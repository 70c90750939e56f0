import Calculator.Number.Remainder
import Calculator.Proofs.CanonicalText
import Calculator.Proofs.RoundAway

/-!
# Rounding errors and exact remainders

The remainder of two doubles is a double and has no error. So the remainder with the sign of the divisor has none either,
unless the divisor is added to it.

* `IsRounded.abs_sub_le`, `IsRounded.abs_sub_le_half` : no double is nearer, and half a unit is the greatest error.
* `exists_multiple_of_le`, `IsRounded.exists_multiple` : a large double is a multiple of a unit, and the nearest one.
* `ofFloat_packFloat` : a double put together from a mantissa and an exponent.
* `exists_truncRem`, `exists_floorRem` : the remainders.
-/

namespace Calculator.Number

set_option autoImplicit false

open Float.Model (UnpackedFloat)
open Float.Model.Format (binary64)
open Binary (ofFields)

/-! ## Rounding errors -/

section Errors

variable {x y : Float} {r : ℚ} {k : ℕ} {q e : ℤ}

theorem isDoubleValue_infinityValue : IsDoubleValue infinityValue :=
  ⟨1, 1024, by norm_num, by norm_num, by rw [infinityValue, Nat.cast_one, one_mul]⟩

theorem abs_signed_sub (negative : Bool) (w v : ℚ) : |signed negative w - signed negative v| = |w - v| := by
  cases negative
  · rfl
  · rw [signed_true, signed_true, neg_sub_neg, abs_sub_comm]

theorem isDoubleValue_abs (hy : y.isFinite) : IsDoubleValue |exactValue y| := by
  obtain ⟨a, m, q, hparts⟩ := isFinite_iff.1 hy
  have hdouble := isDouble_of_finite hparts
  exact ⟨m, q, hdouble.fits, hdouble.least, abs_exactValue_of_parts hparts⟩

theorem RoundsTo.abs_min_sub_le {w u : ℚ} (h : RoundsTo w k q) (hu : IsDoubleValue u) (hlt : u < infinityValue) :
    |min (k * 2 ^ q : ℚ) infinityValue - w| ≤ |u - w| := by
  rcases le_or_gt (k * 2 ^ q : ℚ) infinityValue with hle | hgt
  · rw [min_eq_left hle, abs_sub_comm, abs_sub_comm u]
    exact h.abs_sub_le hu
  · -- only what is not below the first number that is too large goes past it
    have hw : infinityValue ≤ w := by
      by_contra hbelow
      have hnear := h.abs_sub_le isDoubleValue_infinityValue
      rw [abs_sub_comm, abs_of_nonneg (by linarith), abs_sub_comm, abs_of_nonneg (by linarith)] at hnear
      linarith
    rw [min_eq_right hgt.le, abs_sub_comm, abs_of_nonneg (by linarith), abs_sub_comm, abs_of_nonneg (by linarith)]
    linarith

theorem abs_sub_of_signed {negative : Bool} {w : ℚ} (hvalue : exactValue x = signed negative w)
    (hsign : signed negative (|r|) = r) : |exactValue x - r| = |w - (|r|)| :=
  (congrArg₂ (fun a b => |a - b|) hvalue hsign.symm).trans (abs_signed_sub negative w _)

theorem IsRounded.abs_sub_le (h : IsRounded x r) (hy : y.isFinite) : |exactValue x - r| ≤ |exactValue y - r| := by
  obtain ⟨-, negative, k, q, hk, hsign, hvalue⟩ := h
  rw [abs_sub_of_signed hvalue hsign]
  exact (hk.abs_min_sub_le (isDoubleValue_abs hy) (abs_exactValue_lt hy)).trans (abs_abs_sub_abs_le (exactValue y) r)

theorem RoundsTo.exponent_le (h : RoundsTo r k q) (hr : r < 2 ^ e) (he : -1021 ≤ e) : q + 53 ≤ e := by
  rcases h.full with hfull | rfl
  · have hlt : (2 : ℚ) ^ (52 + q) < 2 ^ e := by
      rw [zpow_add₀ two_ne_zero]
      exact hfull.trans_lt hr
    have := (zpow_lt_zpow_iff_right₀ one_lt_two).1 hlt
    omega
  · omega

theorem RoundsTo.value_le (h : RoundsTo r k q) : (k * 2 ^ q : ℚ) ≤ 2 ^ (q + 53) := by
  have hk : (k : ℚ) ≤ 2 ^ 53 := by exact_mod_cast h.le_two_pow
  calc (k * 2 ^ q : ℚ) ≤ 2 ^ 53 * 2 ^ q := by gcongr
    _ = 2 ^ (q + 53) := by
      rw [zpow_add₀ two_ne_zero, mul_comm]
      rfl

/-- Half a unit is the greatest error. -/
theorem IsRounded.abs_sub_le_half (h : IsRounded x r) (hr : |r| < 2 ^ e) (hleast : -1021 ≤ e) (hgreatest : e ≤ 1023) :
    x.isFinite ∧ |exactValue x - r| ≤ 2 ^ (e - 54) := by
  obtain ⟨hx, negative, k, q, hk, hsign, hvalue⟩ := h
  have hq := hk.exponent_le hr hleast
  have hlt : (k * 2 ^ q : ℚ) < infinityValue := by
    rw [infinityValue]
    exact hk.value_le.trans_lt (zpow_lt_zpow_right₀ one_lt_two (by omega))
  rw [min_eq_left hlt.le] at hvalue
  constructor
  · refine isFinite_of_abs_lt hx ?_
    rwa [hvalue, abs_signed negative (by positivity)]
  · rw [abs_sub_of_signed hvalue hsign, abs_sub_comm]
    calc |(|r|) - k * 2 ^ q| ≤ 2 ^ q / 2 := hk.abs_sub_le_half
      _ = 2 ^ (q - 1) := (zpow_sub_one₀ two_ne_zero q).symm
      _ ≤ 2 ^ (e - 54) := zpow_le_zpow_right₀ one_le_two (by omega)

theorem IsRounded.isFinite_of_abs_le (h : IsRounded x r) (hy : y.isFinite) (hle : |r| ≤ |exactValue y|) : x.isFinite := by
  obtain ⟨hx, negative, k, q, hk, -, hvalue⟩ := h
  obtain ⟨a, m, p, hparts⟩ := isFinite_iff.1 hy
  have hdouble := isDouble_of_finite hparts
  rw [abs_exactValue_of_parts hparts] at hle
  have hlt : (k * 2 ^ q : ℚ) < infinityValue :=
    (hk.mono (roundsTo_self hdouble) hle).trans_lt (value_lt_infinityValue hdouble)
  refine isFinite_of_abs_lt hx ?_
  rwa [hvalue, min_eq_left hlt.le, abs_signed negative (by positivity)]

theorem value_lowered (m : ℕ) (h : e ≤ q) : ((m * 2 ^ (q - e).toNat : ℕ) * 2 ^ e : ℚ) = m * 2 ^ q := by
  obtain ⟨d, rfl⟩ : ∃ d : ℕ, q = d + e := ⟨(q - e).toNat, by omega⟩
  rw [add_sub_cancel_right, Int.toNat_natCast, zpow_add₀ two_ne_zero, zpow_natCast]
  push_cast
  ring

theorem exists_multiple_of_le (hq : q ≤ 1024) (h : 2 ^ (q + 52) ≤ |exactValue x|) : ∃ j : ℤ, exactValue x = j * 2 ^ q := by
  have hsigned {negative : Bool} {m : ℕ} {p : ℤ} (hp : q ≤ p) (hvalue : exactValue x = signed negative (m * 2 ^ p)) :
      ∃ j : ℤ, exactValue x = j * 2 ^ q := by
    rw [hvalue, ← value_lowered m hp, ← Int.cast_natCast]
    cases negative
    · exact ⟨_, rfl⟩
    · exact ⟨_, (neg_mul _ _).symm.trans (congrArg (· * _) (Int.cast_neg _).symm)⟩
  cases hparts : Binary.ofFloat x with
  | nan =>
    rw [exactValue, hparts] at h
    have hpos : (0 : ℚ) < 2 ^ (q + 52) := by positivity
    exact absurd (h.trans_eq abs_zero) (not_le.2 hpos)
  | infinite negative =>
    have hvalue := exactValue_of_infinite hparts
    rw [infinityValue, ← one_mul (2 ^ (1024 : ℤ) : ℚ), ← Nat.cast_one] at hvalue
    exact hsigned hq hvalue
  | finite negative m p =>
    have hlt := (isDouble_of_finite hparts).lt_exponent (h.trans_eq (abs_exactValue_of_parts hparts))
    exact hsigned (by omega) (exactValue_of_parts hparts)

/-- Next to a large number the double is the nearest multiple of a unit. -/
theorem IsRounded.exists_multiple (h : IsRounded x r) (hlow : 2 ^ (q + 52) + 2 ^ (q - 1) ≤ |r|) (hhigh : |r| < 2 ^ (q + 53))
    (hleast : -1074 ≤ q) (hgreatest : q ≤ 970) :
    x.isFinite ∧ ∃ j : ℤ, exactValue x = j * 2 ^ q ∧ |j * 2 ^ q - r| ≤ 2 ^ (q - 1) := by
  obtain ⟨hfinite, herror⟩ := h.abs_sub_le_half hhigh (by omega) (by omega)
  rw [show q + 53 - 54 = q - 1 by ring] at herror
  have hlarge : 2 ^ (q + 52) ≤ |exactValue x| := by
    have hless := abs_sub_abs_le_abs_sub r (exactValue x)
    rw [abs_sub_comm] at hless
    linarith
  obtain ⟨j, hj⟩ := exists_multiple_of_le (by omega) hlarge
  exact ⟨hfinite, j, hj, hj ▸ herror⟩

end Errors

/-! ## Doubles put together -/

section Pack

variable {negative : Bool} {m field fraction : ℕ} {e : ℤ}

theorem isDouble_of_ofFields {a : Bool} {q : ℤ} (hfield : field < 2 ^ 11) (hfraction : fraction < 2 ^ 52)
    (h : ofFields negative field fraction = .finite a m q) : IsDouble m q := by
  unfold ofFields at h
  split_ifs at h
  · obtain ⟨-, rfl, rfl⟩ := Binary.finite.inj h
    constructor <;> omega
  · obtain ⟨-, rfl, rfl⟩ := Binary.finite.inj h
    constructor <;> omega

theorem ofFloat_ofBits {n : ℕ} (hn : n < 2 ^ 64) : Binary.ofFloat (Float.ofBits (UInt64.ofNat n)) =
    ofFields (n / 2 ^ 63 == 1) (n / 2 ^ 52 % 2 ^ 11) (n % 2 ^ 52) := by
  have hbits : (UInt64.ofNat n).toBitVec.toNat = n := Nat.mod_eq_of_lt hn
  have hfields := ofUnpacked_unpack (UInt64.ofNat n).toBitVec
  rw [isMinus_unpackSign, toNat_unpackExponent, toNat_unpackMantissa, hbits] at hfields
  have hpack : IsPackable (UnpackedFloat.unpack binary64 (UInt64.ofNat n).toBitVec) := by
    intro a m q h
    rw [hfields] at h
    exact isDouble_of_ofFields (Nat.mod_lt _ (by norm_num)) (Nat.mod_lt _ (by norm_num)) h
  exact (ofFloat_pack hpack).trans hfields

theorem ofFloat_fields (negative : Bool) (hfield : field < 2047) (hfraction : fraction < 2 ^ 52) :
    Binary.ofFloat (Float.ofBits (UInt64.ofNat ((if negative then 2 ^ 63 else 0) + field * 2 ^ 52 + fraction))) =
      ofFields negative field fraction := by
  have hsign : (if negative then 2 ^ 63 else 0 : ℕ) = negative.toNat * 2 ^ 63 := by cases negative <;> rfl
  have hbit : negative.toNat < 2 := negative.toNat_lt
  rw [hsign, ofFloat_ofBits (by omega)]
  have hfirst : (negative.toNat * 2 ^ 63 + field * 2 ^ 52 + fraction) / 2 ^ 63 = negative.toNat := by omega
  have hmiddle : (negative.toNat * 2 ^ 63 + field * 2 ^ 52 + fraction) / 2 ^ 52 % 2 ^ 11 = field := by omega
  have hlast : (negative.toNat * 2 ^ 63 + field * 2 ^ 52 + fraction) % 2 ^ 52 = fraction := by omega
  rw [hfirst, hmiddle, hlast]
  cases negative <;> rfl

/-- A mantissa filled up to its leading bit. -/
theorem shifted_bounds (hzero : m ≠ 0) (hm : m < 2 ^ 53) :
    2 ^ 52 ≤ m * 2 ^ (52 - m.log2) ∧ m * 2 ^ (52 - m.log2) < 2 ^ 53 := by
  have hlog : m.log2 < 53 := (Nat.log2_lt hzero).2 hm
  have hpow (i : ℕ) : 2 ^ (m.log2 + i) * 2 ^ (52 - m.log2) = 2 ^ (52 + i) := by
    rw [← pow_add]
    congr 1
    omega
  constructor
  · rw [← hpow 0]
    exact Nat.mul_le_mul_right _ (Nat.log2_self_le hzero)
  · rw [← hpow 1]
    exact Nat.mul_lt_mul_of_pos_right Nat.lt_log2_self (by positivity)

/-- A mantissa with its leading bit is that of a normal double. -/
theorem ofFloat_normal (negative : Bool) (hlow : 2 ^ 52 ≤ m) (hhigh : m < 2 ^ 53) (he : -1074 ≤ e)
    (hlt : (m * 2 ^ e : ℚ) < infinityValue) : Binary.ofFloat (Float.ofBits (UInt64.ofNat
      ((if negative then 2 ^ 63 else 0) + (e + 1075).toNat * 2 ^ 52 + (m - 2 ^ 52)))) = .finite negative m e := by
  have hexponent : e < 972 := by
    have hfull : (2 : ℚ) ^ 52 ≤ m := by exact_mod_cast hlow
    have hpow : (2 : ℚ) ^ (52 + e) < 2 ^ (1024 : ℤ) := by
      rw [infinityValue] at hlt
      rw [zpow_add₀ two_ne_zero]
      exact (mul_le_mul_of_nonneg_right hfull (by positivity)).trans_lt hlt
    have := (zpow_lt_zpow_iff_right₀ one_lt_two).1 hpow
    omega
  rw [ofFloat_fields negative (by omega) (by omega), ofFields, if_neg (by omega), if_neg (by omega)]
  have hmantissa : 2 ^ 52 + (m - 2 ^ 52) = m := by omega
  have hplace : ((e + 1075).toNat : ℤ) - 1075 = e := by omega
  rw [hmantissa, hplace]

theorem ofFloat_packFloat (negative : Bool) (hm : m < 2 ^ 53) (he : -1074 ≤ e)
    (hlt : (m * 2 ^ e : ℚ) < infinityValue) : ∃ n q, Binary.ofFloat (packFloat negative m e) = .finite negative n q ∧
      (n * 2 ^ q : ℚ) = m * 2 ^ e := by
  unfold packFloat
  simp only [Nat.pow_eq]
  by_cases hzero : m = 0
  · rw [if_pos hzero]
    have hbits := ofFloat_fields negative (by norm_num : 0 < 2047) (by norm_num : 0 < 2 ^ 52)
    exact ⟨0, -1074, hbits, by rw [hzero, Nat.cast_zero, zero_mul, zero_mul]⟩
  rw [if_neg hzero]
  obtain ⟨hlow, hhigh⟩ := shifted_bounds hzero hm
  set shift := 52 - m.log2 with hshift
  by_cases hnormal : -1074 ≤ e - shift
  · rw [if_pos hnormal]
    have hvalue : ((m * 2 ^ shift : ℕ) * 2 ^ (e - shift) : ℚ) = m * 2 ^ e := by
      rw [zpow_sub₀ two_ne_zero, zpow_natCast]
      push_cast
      field_simp
    exact ⟨_, _, ofFloat_normal negative hlow hhigh hnormal (hvalue.trans_lt hlt), hvalue⟩
  · rw [if_neg hnormal]
    obtain ⟨d, hd⟩ : ∃ d : ℕ, e = d + -1074 := ⟨(e + 1074).toNat, by omega⟩
    have hd' : (e + 1074).toNat = d := by omega
    have hsmall : m * 2 ^ d < 2 ^ 52 := by
      calc m * 2 ^ d < 2 ^ (m.log2 + 1) * 2 ^ d := Nat.mul_lt_mul_of_pos_right Nat.lt_log2_self (by positivity)
        _ = 2 ^ (m.log2 + 1 + d) := (pow_add 2 _ d).symm
        _ ≤ 2 ^ 52 := Nat.pow_le_pow_right two_pos (by omega)
    have hbits := ofFloat_fields negative (by norm_num : 0 < 2047) hsmall
    rw [hd']
    refine ⟨m * 2 ^ d, -1074, hbits, ?_⟩
    rw [hd, zpow_add₀ two_ne_zero, zpow_natCast, Nat.cast_mul, Nat.cast_pow, Nat.cast_ofNat, mul_assoc]

end Pack

/-! ## Remainders -/

section Remainders

variable {x y : Float}

theorem signed_mul_add (a b : Bool) (n : ℕ) (d t : ℚ) :
    signed a (n * d + t) = (signedInt (a != b) n : ℤ) * signed b d + signed a t := by
  cases a <;> cases b <;> simp [signedInt] <;> ring

/-- Of two mantissas brought to the smaller exponent the remainder is no longer than a mantissa. -/
theorem mod_lowered_lt {m n : ℕ} {q p : ℤ} (hm : m < 2 ^ 53) (hn : n < 2 ^ 53) (hne : n ≠ 0) :
    m * 2 ^ (q - min q p).toNat % (n * 2 ^ (p - min q p).toNat) < 2 ^ 53 := by
  rcases min_choice q p with hmin | hmin
  · rw [hmin, sub_self, Int.toNat_zero, pow_zero, mul_one]
    exact (Nat.mod_le _ _).trans_lt hm
  · rw [hmin, sub_self, Int.toNat_zero, pow_zero, mul_one]
    exact (Nat.mod_lt _ (Nat.pos_of_ne_zero hne)).trans hn

/-- The remainder with the sign of the dividend is exact. -/
theorem exists_truncRem (hx : x.isFinite) (hy : y.isFinite) (hne : exactValue y ≠ 0) :
    (truncRem x y).isFinite ∧ |exactValue (truncRem x y)| < |exactValue y| ∧
      ∃ k : ℤ, exactValue x = k * exactValue y + exactValue (truncRem x y) := by
  obtain ⟨a, m, q, hxparts⟩ := isFinite_iff.1 hx
  obtain ⟨b, n, p, hyparts⟩ := isFinite_iff.1 hy
  have hxdouble := isDouble_of_finite hxparts
  have hydouble := isDouble_of_finite hyparts
  rw [exactValue_of_parts hyparts] at hne
  have hn : n ≠ 0 := by
    rintro rfl
    rw [Nat.cast_zero, zero_mul, signed_zero] at hne
    exact hne rfl
  -- both mantissas, brought to the smaller exponent
  have hxplace := value_lowered m (min_le_left q p)
  have hyplace := value_lowered n (min_le_right q p)
  set e := min q p with he
  set M := m * 2 ^ (q - e).toNat with hM
  set D := n * 2 ^ (p - e).toNat with hD
  have hDpos : 0 < D := by positivity
  have hmod : M % D < D := Nat.mod_lt _ hDpos
  have hfits : M % D < 2 ^ 53 := mod_lowered_lt hxdouble.fits hydouble.fits hn
  have hbelow : ((M % D : ℕ) * 2 ^ e : ℚ) < n * 2 ^ p := by
    rw [← hyplace]
    exact mul_lt_mul_of_pos_right (Nat.cast_lt.2 hmod) (by positivity)
  obtain ⟨k, i, hparts, hvalue⟩ := ofFloat_packFloat a hfits (le_min hxdouble.least hydouble.least)
    (hbelow.trans (value_lt_infinityValue hydouble))
  have hrem : truncRem x y = packFloat a (M % D) e := by
    rw [truncRem, hxparts, hyparts]
    exact if_neg hn
  rw [← hrem] at hparts
  refine ⟨isFinite_iff.2 ⟨_, _, _, hparts⟩, ?_, signedInt (a != b) (M / D : ℕ), ?_⟩
  · rwa [abs_exactValue_of_parts hparts, abs_exactValue_of_parts hyparts, hvalue]
  · have hdiv : (M : ℚ) = (M / D : ℕ) * D + (M % D : ℕ) := by exact_mod_cast (Nat.div_add_mod' M D).symm
    rw [exactValue_of_parts hxparts, exactValue_of_parts hyparts, exactValue_of_parts hparts, hvalue, ← hxplace, ← hyplace,
      hdiv, add_mul, mul_assoc, signed_mul_add a b]

/-- The remainder with the sign of a positive divisor is exact, or the rounded sum of a remainder and the divisor. -/
theorem exists_floorRem (hx : x.isFinite) (hy : y.isFinite) (hpos : 0 < exactValue y) : ∃ (k : ℤ) (t : ℚ),
    exactValue x = k * exactValue y + t ∧ |t| < exactValue y ∧
      (0 ≤ t ∧ (floorRem x y).isFinite ∧ exactValue (floorRem x y) = t ∨
        t < 0 ∧ IsRounded (floorRem x y) (t + exactValue y)) := by
  obtain ⟨hfinite, hlt, k, hk⟩ := exists_truncRem hx hy hpos.ne'
  rw [abs_of_pos hpos] at hlt
  refine ⟨k, _, hk, hlt, ?_⟩
  have hnegative (z : Float) (hz : z.isFinite) : z < 0.0 ↔ exactValue z < 0 := by
    rw [float_lt_iff, exactValue_zero]
    simp [ne_nan_of_isFinite hz, ne_nan_of_isFinite isFinite_zero]
  obtain ⟨a, m, q, hparts⟩ := isFinite_iff.1 hfinite
  unfold floorRem
  dsimp only
  split_ifs with hzero hsign
  · left
    obtain rfl := (float_beq_zero_iff hparts).1 hzero
    obtain ⟨hresult, -, hvalue⟩ := withSignOf_spec (y := y) isFinite_zero
    have hnone : exactValue (truncRem x y) = 0 := by
      rw [exactValue_of_parts hparts, Nat.cast_zero, zero_mul, signed_zero]
    rw [hvalue, hnone, exactValue_zero, abs_zero, signed_zero]
    exact ⟨le_rfl, hresult, rfl⟩
  · right
    simp only [hnegative y hy, hnegative _ hfinite, not_lt.2 hpos.le, decide_false, Bool.false_bne, decide_eq_true_eq]
      at hsign
    exact ⟨hsign, isRounded_add hfinite hy⟩
  · left
    simp only [hnegative y hy, hnegative _ hfinite, not_lt.2 hpos.le, decide_false, Bool.false_bne, decide_eq_true_eq,
      not_lt] at hsign
    exact ⟨hsign, hfinite, rfl⟩

end Remainders

end Calculator.Number
