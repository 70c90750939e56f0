import Calculator.Graph
import Calculator.Proofs.Doubles
import Calculator.Proofs.Evaluation

/-!
# The sign of zero

A graph is looked up by its `x`, and there the two zeros are one number. So a value must not depend on which of them an
`x` is.

* `unsigned`, `SameNumber` : a double without the sign of a zero, and doubles that are one number (`sameNumber_iff`).
* `eq_or_zeros_of_beq` : of equal numbers only the zeros are two doubles.
* `float_beq_self`, `float_beq_comm`, `float_beq_trans` : equal numbers.
* `congr_unsigned`, `congr₂_unsigned` : what is the same at both zeros does not see their sign.
* `IsUnsigned` : sums, differences and products, as they are computed on the parts of doubles.
* `unsigned_combine`, `unsigned_applyUnary`, `unsigned_value?`, `unsigned_value₂?` : operators and functions.
* `Expr.sameOutcome_evaluate` : the value of a tree.
-/

namespace Calculator

set_option autoImplicit false

open Calculator.Number
open Float.Model (UnpackedFloat)

def unsigned (x : Float) : Float := if x == 0.0 then 0.0 else x

/-- One number, or both no number. -/
def SameNumber (x y : Float) : Prop := x = y ∨ x == y

/-! ## The two zeros -/

/-- Bits are read off a double without loss, but for those of no number. -/
theorem ofFloat_inj {x y : Float} (h : Binary.ofFloat x = Binary.ofFloat y) (hx : Binary.ofFloat x ≠ .nan) :
    x = y := by
  have hbits : x.toBits = y.toBits := by
    have hxlt : x.toBits.toNat < 2 ^ 64 := x.toBits.toNat_lt
    have hylt : y.toBits.toNat < 2 ^ 64 := y.toBits.toNat_lt
    refine UInt64.toNat_inj.1 ?_
    unfold Binary.ofFloat at h hx
    simp only [Nat.pow_eq] at h hx
    split_ifs at h hx
    all_goals first
      | exact absurd rfl hx
      | simp only [Binary.infinite.injEq, Binary.finite.injEq, beq_eq_beq] at h
        omega
  obtain ⟨⟨bits, valid⟩⟩ := x
  obtain ⟨⟨bits', valid'⟩⟩ := y
  obtain rfl : bits = bits' := hbits
  rfl

theorem eq_of_unpack {x y : Float} (h : x.toModel.unpack = y.toModel.unpack) (hx : x.toModel.unpack ≠ .notANumber) :
    x = y := by
  refine ofFloat_inj (by rw [ofFloat_eq_ofUnpacked, ofFloat_eq_ofUnpacked, h]) ?_
  rw [ofFloat_eq_ofUnpacked]
  cases hu : x.toModel.unpack with
  | notANumber => exact absurd hu hx
  | _ => exact nofun

theorem unpack_zero : (0.0 : Float).toModel.unpack = .zero .positive := rfl

theorem unpack_minus_zero : (-0.0 : Float).toModel.unpack = .zero .negative := rfl

theorem eq_zero_of_unpack {x : Float} {s : UnpackedFloat.Sign} (h : x.toModel.unpack = .zero s) :
    x = 0.0 ∨ x = -0.0 := by
  have hnan : x.toModel.unpack ≠ .notANumber := by
    rw [h]
    exact nofun
  cases s with
  | positive => exact .inl (eq_of_unpack (h.trans unpack_zero.symm) hnan)
  | negative => exact .inr (eq_of_unpack (h.trans unpack_minus_zero.symm) hnan)

/-- Parts that are equal as numbers are the same, but for the sign of zeros. -/
theorem eq_or_zeros_of_compare {u v : UnpackedFloat} (h : u.compare v = some .eq) :
    u = v ∧ u ≠ .notANumber ∨ ∃ s t, u = .zero s ∧ v = .zero t := by
  cases u with
  | notANumber => cases h
  | zero s =>
    cases v with
    | zero t => exact .inr ⟨s, t, rfl, rfl⟩
    | notANumber => cases h
    | infinity t | finite t n r hn => cases t <;> cases h
  | infinity s =>
    cases v with
    | infinity t =>
      cases s <;> cases t <;> first
        | exact .inl ⟨rfl, by rintro ⟨⟩⟩
        | cases h
    | _ => cases s <;> cases h
  | finite s m q hm =>
    cases v with
    | infinity t => cases s <;> cases t <;> cases h
    | zero t | notANumber => cases s <;> cases h
    | finite t n r hn =>
      have hparts : s = t ∧ (compare q r).then (compare m n) = .eq := by
        cases s <;> cases t
        · exact ⟨rfl, Ordering.swap_eq_eq.1 (Option.some.inj h)⟩
        · cases h
        · cases h
        · exact ⟨rfl, Option.some.inj h⟩
      obtain ⟨rfl, hcompare⟩ := hparts
      obtain ⟨hq, hm⟩ := Ordering.then_eq_eq.1 hcompare
      obtain rfl := Std.LawfulEqOrd.compare_eq_iff_eq.1 hq
      obtain rfl := Std.LawfulEqOrd.compare_eq_iff_eq.1 hm
      exact .inl ⟨rfl, by rintro ⟨⟩⟩

theorem eq_or_zeros_of_beq {x y : Float} (h : x == y) :
    x = y ∨ (x = 0.0 ∨ x = -0.0) ∧ (y = 0.0 ∨ y = -0.0) := by
  rcases eq_or_zeros_of_compare (beq_iff_eq.1 (h : (x.toModel.unpack.compare y.toModel.unpack == some .eq))) with
    ⟨heq, hnan⟩ | ⟨s, t, hx, hy⟩
  · exact .inl (eq_of_unpack heq hnan)
  · exact .inr ⟨eq_zero_of_unpack hx, eq_zero_of_unpack hy⟩

theorem zero_of_beq {x : Float} (h : x == 0.0) : x = 0.0 ∨ x = -0.0 :=
  (eq_or_zeros_of_beq h).elim .inl And.left

theorem float_beq_self (x : Float) : x == x ∨ x.isNaN := by
  show (x.toModel.unpack.compare x.toModel.unpack == some .eq) ∨ x.toModel.unpack.isNaN
  cases x.toModel.unpack with
  | notANumber => exact .inr rfl
  | zero s => exact .inl rfl
  | infinity s => cases s <;> exact .inl rfl
  | finite s m q hm =>
    have hparts : (compare q q).then (compare m m) = .eq := by simp
    left
    cases s with
    | positive =>
      show some ((compare q q).then (compare m m)) == some Ordering.eq
      rw [hparts]
      rfl
    | negative =>
      show some ((compare q q).then (compare m m)).swap == some Ordering.eq
      rw [hparts]
      rfl

theorem float_beq_comm (x y : Float) : (x == y) = (y == x) := by
  have hcomm : ∀ x y : Float, x == y → y == x := by
    intro x y h
    rcases eq_or_zeros_of_beq h with rfl | ⟨hx, hy⟩
    · exact h
    · rcases hx with rfl | rfl <;> rcases hy with rfl | rfl <;> decide +kernel
  exact Bool.eq_iff_iff.2 ⟨hcomm x y, hcomm y x⟩

theorem float_beq_trans {x y z : Float} (hxy : x == y) (hyz : y == z) : x == z := by
  rcases eq_or_zeros_of_beq hxy with rfl | ⟨hx, -⟩
  · exact hyz
  · rcases eq_or_zeros_of_beq hyz with rfl | ⟨-, hz⟩
    · exact hxy
    · rcases hx with rfl | rfl <;> rcases hz with rfl | rfl <;> decide +kernel

theorem zero_beq_zero : ((0.0 : Float) == 0.0) = true := rfl

theorem minus_zero_beq_zero : ((-0.0 : Float) == 0.0) = true := rfl

theorem unsigned_minus_zero : unsigned (-0.0) = unsigned 0.0 := rfl

theorem unsigned_of_zero {x : Float} (h : x = 0.0 ∨ x = -0.0) : unsigned x = 0.0 := by
  rcases h with rfl | rfl <;> rfl

/-- **What is the same at both zeros does not see the sign of zero.** -/
theorem congr_of_zeros {α : Type} {f : Float → α} (hzero : f (-0.0) = f 0.0) (x : Float) : f (unsigned x) = f x := by
  unfold unsigned
  split
  · rename_i h
    rcases zero_of_beq h with rfl | rfl
    · rfl
    · exact hzero.symm
  · rfl

theorem congr_unsigned {α : Type} {f : Float → α} (hzero : f (-0.0) = f 0.0) {x y : Float}
    (h : unsigned x = unsigned y) : f x = f y := by
  rw [← congr_of_zeros hzero x, h, congr_of_zeros hzero]

theorem sameNumber_iff {x y : Float} : SameNumber x y ↔ unsigned x = unsigned y := by
  constructor
  · rintro (rfl | h)
    · rfl
    · rcases eq_or_zeros_of_beq h with rfl | ⟨hx, hy⟩
      · rfl
      · rw [unsigned_of_zero hx, unsigned_of_zero hy]
  · intro h
    unfold unsigned at h
    split at h <;> split at h
    · rename_i hx hy
      refine .inr ?_
      rcases zero_of_beq hx with rfl | rfl <;> rcases zero_of_beq hy with rfl | rfl <;> rfl
    · rename_i hy
      exact absurd (h ▸ zero_beq_zero : y == 0.0) hy
    · rename_i hx _
      exact absurd (h ▸ zero_beq_zero : x == 0.0) hx
    · exact .inl h

theorem congr₂_unsigned {α : Type} {f : Float → Float → α} (hleft : ∀ y, f (-0.0) y = f 0.0 y)
    (hright : ∀ x, f x (-0.0) = f x 0.0) {x x' y y' : Float} (hx : unsigned x = unsigned x')
    (hy : unsigned y = unsigned y') : f x y = f x' y' := by
  calc f x y = f x' y := congr_unsigned (f := fun x => f x y) (hleft y) hx
    _ = f x' y' := congr_unsigned (hright x') hy

/-! ## Arithmetic -/

/-- The same, or two zeros. -/
def Alike (u v : UnpackedFloat) : Prop := u = v ∨ ∃ s t, u = .zero s ∧ v = .zero t

theorem Alike.unsigned_eq {u v : UnpackedFloat} (h : Alike u v) :
    unsigned (.ofModel (.pack u)) = unsigned (.ofModel (.pack v)) := by
  have hzero (s) : unsigned (.ofModel (.pack (.zero s))) = 0.0 := by cases s <;> rfl
  rcases h with rfl | ⟨s, t, rfl, rfl⟩
  · rfl
  · rw [hzero, hzero]

/-- An operation on the parts of doubles that sees no sign of zero, in either of its operands. -/
structure IsUnsigned (f : UnpackedFloat → UnpackedFloat → UnpackedFloat) : Prop where
  left : ∀ u, Alike (f (.zero .negative) u) (f (.zero .positive) u)
  right : ∀ u, Alike (f u (.zero .negative)) (f u (.zero .positive))

theorem isUnsigned_add : IsUnsigned (.add .binary64) := by
  constructor <;> intro u <;> cases u with
  | zero s => cases s <;> exact .inr ⟨_, _, rfl, rfl⟩
  | _ => exact .inl rfl

theorem isUnsigned_sub : IsUnsigned (.sub .binary64) := by
  constructor <;> intro u <;> cases u with
  | zero s => cases s <;> exact .inr ⟨_, _, rfl, rfl⟩
  | _ => exact .inl rfl

theorem isUnsigned_mul : IsUnsigned (.mul .binary64) := by
  constructor <;> intro u <;> cases u with
  | zero s | finite s m q hm => exact .inr ⟨_, _, rfl, rfl⟩
  | _ => exact .inl rfl

/-- An operation that takes doubles apart and packs the result. -/
def onParts (f : UnpackedFloat → UnpackedFloat → UnpackedFloat) (x y : Float) : Float :=
  .ofModel (.pack (f x.toModel.unpack y.toModel.unpack))

theorem IsUnsigned.unsigned_eq {f : UnpackedFloat → UnpackedFloat → UnpackedFloat} (h : IsUnsigned f)
    {x x' y y' : Float} (hx : unsigned x = unsigned x') (hy : unsigned y = unsigned y') :
    unsigned (onParts f x y) = unsigned (onParts f x' y') := by
  refine congr₂_unsigned (f := fun x y => unsigned (onParts f x y)) (fun y => ?_) (fun x => ?_) hx hy
  · show unsigned (onParts f (-0.0) y) = unsigned (onParts f 0.0 y)
    rw [onParts, onParts, unpack_minus_zero, unpack_zero]
    exact (h.left y.toModel.unpack).unsigned_eq
  · show unsigned (onParts f x (-0.0)) = unsigned (onParts f x 0.0)
    rw [onParts, onParts, unpack_minus_zero, unpack_zero]
    exact (h.right x.toModel.unpack).unsigned_eq

/-- The dividend's zero only: a zero divisor has no quotient. -/
theorem unsigned_zero_div (y : Float) : unsigned (-0.0 / y) = unsigned (0.0 / y) := by
  show unsigned (onParts (.div .binary64) (-0.0) y) = unsigned (onParts (.div .binary64) 0.0 y)
  rw [onParts, onParts, unpack_minus_zero, unpack_zero]
  refine Alike.unsigned_eq ?_
  cases y.toModel.unpack with
  | infinity s | finite s m q hm => exact .inr ⟨_, _, rfl, rfl⟩
  | _ => exact .inl rfl

/-! ## Powers and functions -/

theorem unsigned_zeroPower (y : Float) : (zeroPower (-0.0) y).map unsigned = (zeroPower 0.0 y).map unsigned := by
  unfold zeroPower
  split_ifs
  · rfl
  · exact congrArg Except.ok unsigned_minus_zero
  · rfl
  · rfl
  · rfl

theorem unsigned_power {x x' y y' : Float} (hx : unsigned x = unsigned x') (hy : unsigned y = unsigned y') :
    (power x y).map unsigned = (power x' y').map unsigned := by
  refine congr₂_unsigned (f := fun x y => (power x y).map unsigned) (fun y => ?_) (fun x => ?_) hx hy
  · simp only [power, zero_beq_zero, minus_zero_beq_zero, if_true]
    split
    · rfl
    · exact unsigned_zeroPower y
  · simp only [power, zero_beq_zero, minus_zero_beq_zero, if_true]

theorem toOption_map {ε α β : Type} (f : α → β) (r : Except ε α) : (r.map f).toOption = r.toOption.map f := by
  cases r <;> rfl

theorem unsigned_combine (op : Operator) {x x' y y' : Float} (hx : unsigned x = unsigned x')
    (hy : unsigned y = unsigned y') : (combine op x y).map unsigned = (combine op x' y').map unsigned := by
  cases op with
  | add => exact congrArg some (isUnsigned_add.unsigned_eq hx hy)
  | subtract => exact congrArg some (isUnsigned_sub.unsigned_eq hx hy)
  | multiply => exact congrArg some (isUnsigned_mul.unsigned_eq hx hy)
  | divide =>
    refine congr₂_unsigned (f := fun x y => (combine .divide x y).map unsigned) (fun y => ?_) (fun x => ?_) hx hy
    · simp only [combine]
      split
      · rfl
      · exact congrArg some (unsigned_zero_div y)
    · simp only [combine, zero_beq_zero, minus_zero_beq_zero, if_true]
  | power =>
    rw [combine, combine, ← toOption_map, ← toOption_map, unsigned_power hx hy]
  | _ => rfl

theorem unsigned_applyUnary (op : Operator) {x y : Float} (h : unsigned x = unsigned y) :
    (applyUnary op x).map (Option.map unsigned) = (applyUnary op y).map (Option.map unsigned) := by
  refine congr_unsigned (f := fun x => (applyUnary op x).map (Option.map unsigned)) ?_ h
  cases op with
  | scientific => simp only [applyUnary, power, zero_beq_zero, minus_zero_beq_zero, if_true]
  | _ => rfl

theorem unsigned_value? (f : NamedFunction) (mode : AngleMode) {x y : Float} (h : unsigned x = unsigned y) :
    (f.value? mode x).map unsigned = (f.value? mode y).map unsigned := by
  have hzeros : ∀ f ∈ NamedFunction.all, ∀ mode ∈ [AngleMode.radians, .degrees],
      (f.value? mode (-0.0)).map unsigned = (f.value? mode 0.0).map unsigned := by
    decide +kernel
  exact congr_unsigned (f := fun x => (f.value? mode x).map unsigned)
    (hzeros f (by cases f <;> decide) mode (by cases mode <;> decide)) h

/-! ## Functions of two arguments -/

theorem ofFloat_zero : Binary.ofFloat 0.0 = .finite false 0 (-1074) := rfl

theorem ofFloat_minus_zero : Binary.ofFloat (-0.0) = .finite true 0 (-1074) := rfl

theorem isNaN_minus_zero : (-0.0 : Float).isNaN = (0.0 : Float).isNaN := rfl

theorem packFloat_zero (negative : Bool) (q : Int) : packFloat negative 0 q = if negative then -0.0 else 0.0 := by
  cases negative <;> simp only [packFloat, if_true] <;> rfl

theorem unsigned_truncRem (y : Float) : unsigned (truncRem (-0.0) y) = unsigned (truncRem 0.0 y) ∧
    (truncRem (-0.0) y).isNaN = (truncRem 0.0 y).isNaN := by
  unfold truncRem
  rw [ofFloat_zero, ofFloat_minus_zero]
  cases Binary.ofFloat y with
  | nan => exact ⟨rfl, rfl⟩
  | infinite s => exact ⟨unsigned_minus_zero, isNaN_minus_zero⟩
  | finite s n r =>
    simp only [zero_mul, Nat.zero_mod, packFloat_zero]
    split
    · exact ⟨rfl, rfl⟩
    · exact ⟨unsigned_minus_zero, isNaN_minus_zero⟩

theorem truncRem_zero (x : Float) : truncRem x (-0.0) = truncRem x 0.0 := by
  unfold truncRem
  rw [ofFloat_zero, ofFloat_minus_zero]
  cases Binary.ofFloat x <;> rfl

theorem unsigned_remainder {x x' y y' : Float} (hx : unsigned x = unsigned x') (hy : unsigned y = unsigned y') :
    (remainder x y).map unsigned = (remainder x' y').map unsigned := by
  refine congr₂_unsigned (f := fun x y => (remainder x y).map unsigned) (fun y => ?_) (fun x => ?_) hx hy
  · simp only [remainder, isNaN_minus_zero, (unsigned_truncRem y).2]
    split
    · rfl
    · exact congrArg Except.ok (unsigned_truncRem y).1
  · simp only [remainder, isNaN_minus_zero, truncRem_zero]

theorem hypotenuse_congr {x x' y y' : Float} (hx : unsigned x = unsigned x') (hy : unsigned y = unsigned y') :
    hypotenuse x y = hypotenuse x' y' := by
  refine congr₂_unsigned (fun y => ?_) (fun x => ?_) hx hy
  · unfold hypotenuse
    rw [ofFloat_zero, ofFloat_minus_zero]
    cases Binary.ofFloat y <;> rfl
  · unfold hypotenuse
    rw [ofFloat_zero, ofFloat_minus_zero]
    cases Binary.ofFloat x <;> rfl

theorem toWhole_congr {x y : Float} (h : unsigned x = unsigned y) : toWhole x = toWhole y := by
  refine congr_unsigned ?_ h
  simp only [toWhole, toInt, ofFloat_zero, ofFloat_minus_zero, truncInt, numerator, zero_mul, Nat.zero_div]
  rfl

/-- A zero divisor has no quotient. -/
theorem divide_congr (x : Float) {y y' : Float} (h : unsigned y = unsigned y') : divide x y = divide x y' := by
  refine congr_unsigned ?_ h
  simp only [divide, zero_beq_zero, minus_zero_beq_zero, if_true]

theorem logb_congr {x x' y y' : Float} (hx : unsigned x = unsigned x') (hy : unsigned y = unsigned y') :
    NamedFunction.logb.compute₂ x y = NamedFunction.logb.compute₂ x' y' := by
  have hplus : decide ((0.0 : Float) ≤ 0.0) = true := rfl
  have hminus : decide ((-0.0 : Float) ≤ 0.0) = true := rfl
  refine congr₂_unsigned (fun y => ?_) (fun x => ?_) hx hy
  · simp only [NamedFunction.compute₂, hplus, hminus, Bool.true_or, if_true]
  · simp only [NamedFunction.compute₂, hplus, hminus, Bool.true_or, Bool.or_true, if_true]

theorem map_some {ε : Type} (r : Except ε Float) :
    (r >>= fun a => .ok (some a)).map (Option.map unsigned) = (r.map unsigned).map some := by
  cases r <;> rfl

theorem map_bind_congr_right {ε α β γ : Type} {g : β → γ} {f f' : α → Except ε β}
    (h : ∀ a, (f a).map g = (f' a).map g) (r : Except ε α) : (r >>= f).map g = (r >>= f').map g := by
  cases r with
  | error fault => rfl
  | ok a => exact h a

theorem unsigned_compute₂ (f : NamedFunction) {x x' y y' : Float} (hx : unsigned x = unsigned x')
    (hy : unsigned y = unsigned y') :
    (f.compute₂ x y).map (Option.map unsigned) = (f.compute₂ x' y').map (Option.map unsigned) := by
  cases f with
  | logb => rw [logb_congr hx hy]
  | root =>
    simp only [NamedFunction.compute₂, divide_congr 1.0 hy]
    refine map_bind_congr_right (fun d => ?_) _
    exact (map_some _).trans ((congrArg _ (unsigned_power hx rfl)).trans (map_some _).symm)
  | mod => exact (map_some _).trans ((congrArg _ (unsigned_remainder hx hy)).trans (map_some _).symm)
  | hypot => exact congrArg (fun v => Except.ok (some (unsigned v))) (hypotenuse_congr hx hy)
  | nPr => simp only [NamedFunction.compute₂, Counting.permutations, toWhole_congr hx, toWhole_congr hy]
  | nCr => simp only [NamedFunction.compute₂, Counting.combinations, toWhole_congr hx, toWhole_congr hy]
  | _ => rfl

theorem value₂?_eq (f : NamedFunction) (x y : Float) : f.value₂? x y = (f.compute₂ x y).toOption.join := by
  unfold NamedFunction.value₂?
  cases f.compute₂ x y <;> rfl

theorem unsigned_value₂? (f : NamedFunction) {x x' y y' : Float} (hx : unsigned x = unsigned x')
    (hy : unsigned y = unsigned y') : (f.value₂? x y).map unsigned = (f.value₂? x' y').map unsigned := by
  rw [value₂?_eq, value₂?_eq, ← Option.join_map_eq_map_join, ← Option.join_map_eq_map_join, ← toOption_map,
    ← toOption_map, unsigned_compute₂ f hx hy]

/-! ## Trees -/

/-- Outcomes are the same but for the sign of zero. -/
def SameOutcome (a b : Outcome) : Prop := a.map (Option.map unsigned) = b.map (Option.map unsigned)

section Same

variable {u? v? : Option Float}

theorem SameOutcome.error_or_ok {a b : Outcome} (h : SameOutcome a b) :
    (∃ e, a = .error e ∧ b = .error e) ∨
      ∃ u? v? : Option Float, a = .ok u? ∧ b = .ok v? ∧ u?.map unsigned = v?.map unsigned := by
  cases a with
  | error e =>
    cases b with
    | error e' => exact .inl ⟨e, rfl, congrArg Except.error (Except.error.inj h).symm⟩
    | ok v? => cases h
  | ok u? =>
    cases b with
    | error e' => cases h
    | ok v? => exact .inr ⟨u?, v?, rfl, rfl, Except.ok.inj h⟩

theorem SameOutcome.bind {a b : Outcome} {f g : Option Float → Outcome} (h : SameOutcome a b)
    (hfg : ∀ u? v? : Option Float, u?.map unsigned = v?.map unsigned → SameOutcome (f u?) (g v?)) :
    SameOutcome (a >>= f) (b >>= g) := by
  obtain ⟨e, rfl, rfl⟩ | ⟨u?, v?, rfl, rfl, huv⟩ := h.error_or_ok
  · rfl
  · exact hfg u? v? huv

theorem none_or_some (h : u?.map unsigned = v?.map unsigned) :
    u? = none ∧ v? = none ∨ ∃ u v, u? = some u ∧ v? = some v ∧ unsigned u = unsigned v := by
  cases u? with
  | none => exact .inl ⟨rfl, Option.map_eq_none_iff.1 h.symm⟩
  | some u =>
    obtain ⟨v, hv, huv⟩ := Option.map_eq_some_iff.1 h.symm
    exact .inr ⟨u, v, rfl, hv, huv.symm⟩

theorem sameOutcome_elim {f g : Float → Outcome} (h : u?.map unsigned = v?.map unsigned)
    (hfg : ∀ u v, unsigned u = unsigned v → SameOutcome (f u) (g v)) :
    SameOutcome (u?.elim (.ok none) f) (v?.elim (.ok none) g) := by
  obtain ⟨rfl, rfl⟩ | ⟨u, v, rfl, rfl, huv⟩ := none_or_some h
  · rfl
  · exact hfg u v huv

theorem map_bind_congr {f g : Float → Option Float} (h : u?.map unsigned = v?.map unsigned)
    (hfg : ∀ u v, unsigned u = unsigned v → (f u).map unsigned = (g v).map unsigned) :
    (u?.bind f).map unsigned = (v?.bind g).map unsigned := by
  obtain ⟨rfl, rfl⟩ | ⟨u, v, rfl, rfl, huv⟩ := none_or_some h
  · rfl
  · exact hfg u v huv

end Same

/-- **A tree has the same value at numbers that are the same**, but for the sign of a zero. -/
theorem Expr.sameOutcome_evaluate (e : Expr) (mode : AngleMode) {x y : Float} (h : unsigned x = unsigned y) :
    SameOutcome (e.evaluate x mode) (e.evaluate y mode) := by
  induction e with
  | number v | failure k | hole => rfl
  | name t => exact congrArg (fun v => Except.ok (some v)) h
  | bare op =>
    cases op with
    | freeVariable => exact congrArg (fun v => Except.ok (some v)) h
    | _ => rfl
  | unary op e ih =>
    rw [evaluate_unary, evaluate_unary]
    exact ih.bind fun u? v? huv => sameOutcome_elim huv fun u v => unsigned_applyUnary op
  | binary l op r ihl ihr =>
    rw [evaluate_binary, evaluate_binary]
    refine ihl.bind fun u? v? huv => sameOutcome_elim huv fun u v hv => ihr.bind fun w? z? hwz => ?_
    exact congrArg Except.ok (map_bind_congr hwz fun w z hw => unsigned_combine op hv hw)
  | call f e ih =>
    rw [evaluate_call, evaluate_call]
    exact ih.bind fun u? v? huv => congrArg Except.ok (map_bind_congr huv fun u v => unsigned_value? f mode)
  | call₂ f a b iha ihb =>
    rw [evaluate_call₂, evaluate_call₂]
    refine iha.bind fun u? v? huv => ihb.bind fun w? z? hwz => ?_
    exact congrArg Except.ok (map_bind_congr huv fun u v hv => map_bind_congr hwz fun w z => unsigned_value₂? f hv)

end Calculator
