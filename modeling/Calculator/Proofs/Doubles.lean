import Calculator.Number.Binary
import Mathlib.Data.Nat.Log
import Mathlib.Tactic.NormNum
import Mathlib.Tactic.Ring

/-!
# The parts of a double

The logic computes with doubles by taking them apart and putting the rounded parts together again. Here both are tied to
the parts that `Binary.ofFloat` reads off the bits.

* `IsDouble` : a mantissa and an exponent that a double has. Those of every finite double are (`isDouble_of_finite`).
* `Binary.ofUnpacked`, `ofFloat_eq_ofUnpacked` : the parts as the logic has them.
* `ofFloat_pack` : a double that is put together from parts has these parts.
* `ofFloat_neg`, `isFinite_iff` : the sign, and which doubles are finite.
-/

namespace Calculator.Number

set_option autoImplicit false

open Float.Model (UnpackedFloat)
open Float.Model.Format (binary64)
open Float.Model.UnpackedFloat (Sign packComponents unpackMantissa unpackExponent unpackSign
  unpackMantissa_packComponents unpackExponent_packComponents)

/-- A double has the mantissa `m` and the exponent `q`: full mantissas above the smallest exponent. -/
structure IsDouble (m : Nat) (q : Int) : Prop where
  fits : m < 2 ^ 53
  least : -1074 ≤ q
  greatest : q ≤ 971
  full : 2 ^ 52 ≤ m ∨ q = -1074

def isMinus : Sign → Bool
  | .negative => true
  | .positive => false

namespace Binary

/-- The parts as the logic has them. -/
def ofUnpacked : UnpackedFloat → Binary
  | .notANumber => nan
  | .infinity s => infinite (isMinus s)
  | .zero s => finite (isMinus s) 0 (-1074)
  | .finite s m q _ => finite (isMinus s) m q

/-- The parts that the fields of the bits mean. -/
def ofFields (negative : Bool) (field fraction : Nat) : Binary :=
  if field = 2047 then if fraction = 0 then infinite negative else nan
  else if field = 0 then finite negative fraction (-1074)
  else finite negative (2 ^ 52 + fraction) (field - 1075)

def opposite : Binary → Binary
  | nan => nan
  | infinite negative => infinite !negative
  | finite negative m q => finite (!negative) m q

def isFinite : Binary → Bool
  | finite .. => true
  | _ => false

end Binary

open Binary (ofUnpacked ofFields)

/-! ## Taking apart -/

section Bits

variable (b : BitVec binary64.numBits)

theorem toNat_unpackMantissa : (unpackMantissa b).toNat = b.toNat % 2 ^ 52 := by
  simp [unpackMantissa]

theorem toNat_unpackExponent : (unpackExponent b).toNat = b.toNat / 2 ^ 52 % 2 ^ 11 := by
  simp [unpackExponent, Nat.shiftRight_eq_div_pow]

theorem unpackSign_eq {spec : Float.Model.Format} (b : BitVec spec.numBits) : unpackSign b =
    (b.extractLsb (spec.mantissaBitsWithoutImplicit + spec.exponentBits)
      (spec.mantissaBitsWithoutImplicit + spec.exponentBits)).cast (by omega) := rfl

theorem toNat_unpackSign : (unpackSign b).toNat = b.toNat / 2 ^ 63 := by
  have : b.toNat < 2 ^ 64 := b.isLt
  simp [unpackSign_eq, Nat.shiftRight_eq_div_pow]
  omega

theorem isMinus_unpackSign : isMinus (Sign.ofBitVec (unpackSign b)) = (b.toNat / 2 ^ 63 == 1) := by
  have h := toNat_unpackSign b
  have hlt : b.toNat < 2 ^ 64 := b.isLt
  unfold Sign.ofBitVec
  split
  · rename_i hzero
    rw [hzero] at h
    rw [← h]
    rfl
  · rename_i hone
    have hne : b.toNat / 2 ^ 63 ≠ 0 := fun hz => hone (BitVec.eq_of_toNat_eq (h.trans hz))
    have heq : b.toNat / 2 ^ 63 = 1 := by omega
    rw [heq]
    rfl

theorem toNat_append_implicit (m : BitVec 52) : (1#1 ++ m).toNat = 2 ^ 52 + m.toNat := by
  rw [BitVec.toNat_append, ← Nat.shiftLeft_add_eq_or_of_lt m.isLt]
  rfl

theorem ofUnpacked_unpack : ofUnpacked (UnpackedFloat.unpack binary64 b) =
    ofFields (isMinus (Sign.ofBitVec (unpackSign b))) (unpackExponent b).toNat (unpackMantissa b).toNat := by
  have hexponent {n : Nat} (hn : n < 2 ^ 11) : unpackExponent b = BitVec.ofNat 11 n ↔ (unpackExponent b).toNat = n := by
    rw [← BitVec.toNat_inj, BitVec.toNat_ofNat, Nat.mod_eq_of_lt hn]
  have htop : unpackExponent b = -1#_ ↔ (unpackExponent b).toNat = 2047 := hexponent (by decide)
  have hbottom : unpackExponent b = 0#_ ↔ (unpackExponent b).toNat = 0 := hexponent (by decide)
  have hmantissa : unpackMantissa b = 0#_ ↔ (unpackMantissa b).toNat = 0 := BitVec.toNat_inj.symm
  unfold UnpackedFloat.unpack ofFields
  by_cases h : unpackExponent b = -1#_
  · rw [if_pos h, if_pos (htop.1 h)]
    by_cases hm : unpackMantissa b = 0#_
    · rw [if_pos hm, if_pos (hmantissa.1 hm)]
      rfl
    · rw [if_neg hm, if_neg (mt hmantissa.2 hm)]
      rfl
  rw [if_neg h, if_neg (mt htop.2 h)]
  by_cases h' : unpackExponent b = 0#_
  · rw [if_pos h', if_pos (hbottom.1 h')]
    by_cases hm : unpackMantissa b = 0#_
    · rw [dif_pos hm, hmantissa.1 hm]
      rfl
    · rw [dif_neg hm, hbottom.1 h']
      rfl
  · rw [if_neg h', if_neg (mt hbottom.2 h'), ← toNat_append_implicit]
    rfl

end Bits

theorem ofFloat_eq_ofUnpacked (x : Float) : Binary.ofFloat x = ofUnpacked x.toModel.unpack := by
  refine Eq.symm ((ofUnpacked_unpack x.toModel.toBits.toBitVec).trans ?_)
  rw [isMinus_unpackSign, toNat_unpackExponent, toNat_unpackMantissa]
  rfl

theorem isDouble_of_finite {x : Float} {negative : Bool} {m : Nat} {q : Int}
    (h : Binary.ofFloat x = .finite negative m q) : IsDouble m q := by
  unfold Binary.ofFloat at h
  simp only [Nat.pow_eq] at h
  split_ifs at h with htop _ hbottom
  · obtain ⟨-, rfl, rfl⟩ := Binary.finite.inj h
    constructor <;> omega
  · obtain ⟨-, rfl, rfl⟩ := Binary.finite.inj h
    constructor <;> omega

/-! ## Putting together -/

theorem unpackSign_packComponents {spec : Float.Model.Format} (s : Sign) (e : BitVec spec.exponentBits)
    (m : BitVec spec.mantissaBitsWithoutImplicit) : unpackSign (packComponents spec s e m) = s.toBitVec := by
  refine BitVec.eq_of_getLsbD_eq fun i hi => ?_
  obtain rfl : i = 0 := by omega
  simp [unpackSign_eq, packComponents, BitVec.getLsbD_append, BitVec.getElem_append]

theorem ofBitVec_toBitVec (s : Sign) : Sign.ofBitVec s.toBitVec = s := by cases s <;> rfl

theorem ofUnpacked_unpack_packComponents (s : Sign) (e : BitVec 11) (m : BitVec 52) :
    ofUnpacked (UnpackedFloat.unpack binary64 (packComponents binary64 s e m)) =
      ofFields (isMinus s) e.toNat m.toNat := by
  rw [ofUnpacked_unpack, unpackSign_packComponents, ofBitVec_toBitVec, unpackExponent_packComponents,
    unpackMantissa_packComponents]

theorem ofFloat_pack_finite {s : Sign} {m : Nat} {q : Int} (hm : 0 < m) (h : IsDouble m q) :
    Binary.ofFloat (.ofModel (.pack (.finite s m q hm))) = .finite (isMinus s) m q := by
  have hbias : (q + binary64.exponentBias + binary64.mantissaBitsWithoutImplicit).toNat = (q + 1075).toNat := by
    show (q + 1023 + 52).toNat = (q + 1075).toNat
    omega
  rw [ofFloat_eq_ofUnpacked]
  show ofUnpacked (UnpackedFloat.unpack binary64 (UnpackedFloat.pack binary64 (.finite s m q hm))) = _
  have hfits := h.fits
  have hleast := h.least
  have hgreatest := h.greatest
  unfold UnpackedFloat.pack
  rw [hbias, if_neg (by show ¬2 ^ 11 ≤ _; omega)]
  by_cases hlog : m.log2 + 1 = binary64.mantissaBits
  · rw [if_pos hlog]
    have hlog : m.log2 = 52 := by
      change m.log2 + 1 = 53 at hlog
      omega
    have hfull : 2 ^ 52 ≤ m := (Nat.le_log2 hm.ne').1 hlog.ge
    rw [ofUnpacked_unpack_packComponents, BitVec.toNat_ofNat, BitVec.toNat_ofNat, ofFields, if_neg (by omega),
      if_neg (by omega)]
    congr <;> omega
  · rw [if_neg hlog]
    have hsmall : m < 2 ^ 52 := by
      have : m.log2 < 53 := (Nat.log2_lt hm.ne').2 hfits
      change ¬m.log2 + 1 = 53 at hlog
      exact (Nat.log2_lt hm.ne').1 (by omega)
    obtain rfl := h.full.resolve_left (by omega)
    rw [ofUnpacked_unpack_packComponents, BitVec.toNat_ofNat, BitVec.toNat_ofNat, ofFields, if_neg (by decide),
      if_pos (by decide), Nat.mod_eq_of_lt hsmall]

/-- Parts that can be put together without loss. -/
def IsPackable (u : UnpackedFloat) : Prop := ∀ negative m q, ofUnpacked u = .finite negative m q → IsDouble m q

theorem ofFloat_pack {u : UnpackedFloat} (h : IsPackable u) : Binary.ofFloat (.ofModel (.pack u)) = ofUnpacked u := by
  cases u with
  | finite s m q hm => exact ofFloat_pack_finite hm (h _ _ _ rfl)
  | notANumber => rfl
  | infinity s => cases s <;> rfl
  | zero s => cases s <;> rfl

/-! ## Signs -/

theorem ofUnpacked_neg (u : UnpackedFloat) : ofUnpacked u.neg = (ofUnpacked u).opposite := by
  cases u with
  | finite s m q hm => cases s <;> rfl
  | notANumber => rfl
  | infinity s => cases s <;> rfl
  | zero s => cases s <;> rfl

theorem ofFloat_neg (x : Float) : Binary.ofFloat (-x) = (Binary.ofFloat x).opposite := by
  have hpack : IsPackable x.toModel.unpack.neg := by
    intro negative m q h
    rw [ofUnpacked_neg, ← ofFloat_eq_ofUnpacked] at h
    cases hx : Binary.ofFloat x with
    | finite negative' m' q' =>
      rw [hx] at h
      obtain ⟨-, rfl, rfl⟩ := Binary.finite.inj h
      exact isDouble_of_finite hx
    | _ =>
      rw [hx] at h
      cases h
  show Binary.ofFloat (.ofModel (.pack x.toModel.unpack.neg)) = _
  rw [ofFloat_pack hpack, ofUnpacked_neg, ofFloat_eq_ofUnpacked]

theorem isFinite_eq (x : Float) : x.isFinite = (Binary.ofFloat x).isFinite := by
  show x.toModel.unpack.isFinite = _
  rw [ofFloat_eq_ofUnpacked]
  cases x.toModel.unpack <;> rfl

theorem isFinite_iff {x : Float} : x.isFinite ↔ ∃ negative m q, Binary.ofFloat x = .finite negative m q := by
  rw [isFinite_eq]
  cases Binary.ofFloat x <;> simp [Binary.isFinite]

end Calculator.Number
