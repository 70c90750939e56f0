import Calculator.Function.Value
import Calculator.Proofs.Remainders

/-!
# Angles near a multiple of π

An angle is tested by its remainder. The remainder has an error only where π is added to a negative one, and so the tests
tell how far an angle is from a multiple of π, but for the rounding of the angle itself.

* `exactValue_pi`, `exactValue_halfPi`, `exactValue_tolerance` : the constants.
* `exists_remainder` : the remainder of an angle, and what the test says of it.
* `exists_near_of_isNearEnd`, `isNearEnd_of_near` : angles that are near a multiple of π, and those that are not.
* `not_near_both` : where π/2 is not lost, no angle is near a multiple of π and near an odd multiple of π/2.
* `sub_halfPi_eq_iff` : where it is lost.
* `vanish_together_iff` : so sine and cosine vanish together exactly where π/2 is lost.
-/

namespace Calculator

set_option autoImplicit false

open Calculator.Number Calculator.Angle

namespace Angle

/-! ## Constants -/

theorem parts_pi : Binary.ofFloat pi = .finite false 7074237752028440 (-51) := by rfl

theorem parts_halfPi : Binary.ofFloat halfPi = .finite false 7074237752028440 (-52) := by rfl

theorem parts_tolerance : Binary.ofFloat tolerance = .finite false 7737125245533627 (-86) := by rfl

theorem isFinite_pi : pi.isFinite := isFinite_iff.2 ⟨_, _, _, parts_pi⟩

theorem isFinite_halfPi : halfPi.isFinite := isFinite_iff.2 ⟨_, _, _, parts_halfPi⟩

theorem exactValue_pi : exactValue pi = 884279719003555 / 2 ^ 48 := by
  rw [exactValue_of_parts parts_pi, signed_false]
  norm_num

theorem exactValue_halfPi : exactValue halfPi = exactValue pi / 2 := by
  rw [exactValue_of_parts parts_halfPi, exactValue_pi, signed_false]
  norm_num

theorem exactValue_tolerance : exactValue tolerance = 7737125245533627 / 2 ^ 86 := by
  rw [exactValue_of_parts parts_tolerance, signed_false]
  norm_num

/-! ## Remainders -/

section Remainder

variable {y : Float}

theorem lt_tolerance_iff (hy : y.isFinite) : y < tolerance ↔ exactValue y < exactValue tolerance := by
  have htolerance : tolerance.isFinite := isFinite_iff.2 ⟨_, _, _, parts_tolerance⟩
  rw [float_lt_iff]
  simp [ne_nan_of_isFinite hy, ne_nan_of_isFinite htolerance]

theorem isNearEnd_iff (hy : y.isFinite) (hsub : (pi - y).isFinite) : isNearEnd y pi ↔
    exactValue y < exactValue tolerance ∨ exactValue (pi - y) < exactValue tolerance := by
  rw [isNearEnd, Bool.or_eq_true, decide_eq_true_iff, decide_eq_true_iff, lt_tolerance_iff hy, lt_tolerance_iff hsub]

theorem exists_floorRem_pi (hy : y.isFinite) : (floorRem y pi).isFinite ∧ ∃ (k : ℤ) (s : ℚ),
    exactValue y = k * exactValue pi + s ∧ 0 ≤ s ∧ s < exactValue pi ∧ |exactValue (floorRem y pi) - s| ≤ 2 ^ (-52 : ℤ) := by
  have hpi := exactValue_pi
  obtain ⟨k, t, hk, ht, ⟨ht0, hfinite, hvalue⟩ | ⟨ht0, hrounded⟩⟩ := exists_floorRem hy isFinite_pi (by rw [hpi]; norm_num)
  · rw [abs_of_nonneg ht0] at ht
    refine ⟨hfinite, k, t, hk, ht0, ht, ?_⟩
    rw [hvalue, sub_self, abs_zero]
    positivity
  · rw [abs_of_neg ht0] at ht
    have hsmall : |t + exactValue pi| < 2 ^ (2 : ℤ) := by
      rw [abs_of_nonneg (by linarith), hpi]
      norm_num
      linarith
    obtain ⟨hfinite, herror⟩ := hrounded.abs_sub_le_half hsmall (by norm_num) (by norm_num)
    refine ⟨hfinite, k - 1, t + exactValue pi, ?_, by linarith, by linarith, herror⟩
    rw [hk]
    push_cast
    ring

/-- What the test says of the exact remainder. -/
theorem exists_remainder (hy : y.isFinite) : ∃ (k : ℤ) (s : ℚ), exactValue y = k * exactValue pi + s ∧ 0 ≤ s ∧
    s < exactValue pi ∧ (isNearEnd (floorRem y pi) pi → s < 1 / 4 ∨ exactValue pi - s < 1 / 4) ∧
    (s ≤ 995 / 10 ^ 13 ∨ exactValue pi - s ≤ 995 / 10 ^ 13 → isNearEnd (floorRem y pi) pi) := by
  obtain ⟨hr, k, s, hk, hs0, hs, herror⟩ := exists_floorRem_pi hy
  have hpi := exactValue_pi
  have htolerance := exactValue_tolerance
  have herror := abs_le.1 herror
  norm_num at herror hpi htolerance
  have hsmall : |exactValue pi - exactValue (floorRem y pi)| < 2 ^ (2 : ℤ) := by
    rw [abs_lt]
    norm_num
    constructor <;> linarith
  obtain ⟨hsub, herror'⟩ := (isRounded_sub isFinite_pi hr).abs_sub_le_half hsmall (by norm_num) (by norm_num)
  have herror' := abs_le.1 herror'
  norm_num at herror'
  refine ⟨k, s, hk, hs0, hs, fun h => ?_, fun h => (isNearEnd_iff hr hsub).2 ?_⟩
  · rcases (isNearEnd_iff hr hsub).1 h with h | h
    · left
      linarith
    · right
      linarith
  · rcases h with h | h
    · left
      linarith
    · right
      linarith

theorem exists_near_of_isNearEnd (hy : y.isFinite) (h : isNearEnd (floorRem y pi) pi) :
    ∃ k : ℤ, |exactValue y - k * exactValue pi| < 1 / 4 := by
  obtain ⟨k, s, hk, hs0, hs, hnear, -⟩ := exists_remainder hy
  rcases hnear h with h | h
  · refine ⟨k, ?_⟩
    rw [hk, add_sub_cancel_left, abs_of_nonneg hs0]
    exact h
  · refine ⟨k + 1, ?_⟩
    have heq : exactValue y - (k + 1 : ℤ) * exactValue pi = -(exactValue pi - s) := by
      rw [hk]
      push_cast
      ring
    rw [heq, abs_neg, abs_of_nonneg (by linarith)]
    exact h

theorem isNearEnd_of_near (hy : y.isFinite) {k : ℤ} (h : |exactValue y - k * exactValue pi| ≤ 995 / 10 ^ 13) :
    isNearEnd (floorRem y pi) pi := by
  obtain ⟨j, s, hj, hs0, hs, -, hnear⟩ := exists_remainder hy
  have hpi := exactValue_pi
  norm_num at hpi
  obtain ⟨hlow, hhigh⟩ := abs_le.1 h
  have hsplit : exactValue y - k * exactValue pi = (j - k : ℤ) * exactValue pi + s := by
    rw [hj]
    push_cast
    ring
  rw [hsplit] at hlow hhigh
  -- the exact remainder is that of the multiple, or all but π of it
  have hle : j - k ≤ 0 := by
    by_contra hgt
    have hone : (1 : ℚ) ≤ (j - k : ℤ) := by exact_mod_cast not_le.1 hgt
    nlinarith
  have hge : -1 ≤ j - k := by
    by_contra hlt
    have htwo : ((j - k : ℤ) : ℚ) ≤ -2 := by exact_mod_cast (by omega : j - k ≤ -2)
    nlinarith
  refine hnear ?_
  rcases (by omega : j - k = 0 ∨ j - k = -1) with heq | heq
  · left
    rw [heq] at hhigh
    norm_num at hhigh ⊢
    exact hhigh
  · right
    rw [heq] at hlow
    norm_num at hlow ⊢
    linarith

end Remainder

/-! ## Both tests -/

section Both

variable {a : Float}

theorem exactValue_sub_zero (ha : a.isFinite) : (a - 0.0).isFinite ∧ exactValue (a - 0.0) = exactValue a := by
  have hrounded := isRounded_sub ha isFinite_zero
  rw [exactValue_zero, sub_zero] at hrounded
  have hlt := abs_exactValue_lt ha
  have hvalue := hrounded.exactValue_eq (isDoubleValue_abs ha) hlt.le
  exact ⟨isFinite_of_abs_lt hrounded.isNumber (hvalue ▸ hlt), hvalue⟩

/-- Up to this size π/2 is taken off with a small error. -/
theorem abs_sub_halfPi_le (ha : a.isFinite) (hlow : -2 ^ 54 < exactValue a) (hhigh : exactValue a ≤ 2 ^ 54) :
    (a - halfPi).isFinite ∧ |exactValue (a - halfPi) - (exactValue a - exactValue halfPi)| ≤ 1 := by
  have hpi := exactValue_pi
  have hhalfPi := exactValue_halfPi
  norm_num at hpi
  -- a double above the lower bound is not below the next one
  have hlow' : -2 ^ 54 + 2 ≤ exactValue a := by
    by_contra hlt
    have hlarge : (2 : ℚ) ^ ((1 : ℤ) + 52) ≤ |exactValue a| := by
      rw [abs_of_neg (by linarith)]
      norm_num at hlt ⊢
      linarith
    obtain ⟨j, hj⟩ := exists_multiple_of_le (by norm_num) hlarge
    rw [hj] at hlow hlt
    norm_num at hlow hlt
    have hj1 : -(2 : ℚ) ^ 53 < j := by linarith
    have hj2 : (j : ℚ) < -2 ^ 53 + 1 := by linarith
    have hj1' : -(2 : ℤ) ^ 53 < j := by exact_mod_cast hj1
    have hj2' : j < -2 ^ 53 + 1 := by exact_mod_cast hj2
    omega
  have hsmall : |exactValue a - exactValue halfPi| < 2 ^ (54 : ℤ) := by
    rw [abs_lt]
    norm_num at hlow' hhigh ⊢
    constructor <;> linarith
  have herror := (isRounded_sub ha isFinite_halfPi).abs_sub_le_half hsmall (by norm_num) (by norm_num)
  norm_num at herror
  exact herror

/-- Near a multiple of π, and again near one when π/2 is taken off: but multiples are not so near to each other. -/
theorem not_near_both (ha : a.isFinite) (hlow : -2 ^ 54 < exactValue a) (hhigh : exactValue a ≤ 2 ^ 54) :
    ¬(isNearZeroCrossing a ∧ isNearHalfPi a) := by
  rintro ⟨hzero, hhalf⟩
  have hpi := exactValue_pi
  have hhalfPi := exactValue_halfPi
  norm_num at hpi
  obtain ⟨hsub, herror⟩ := abs_sub_halfPi_le ha hlow hhigh
  obtain ⟨hfinite, hvalue⟩ := exactValue_sub_zero ha
  obtain ⟨k, hk⟩ := exists_near_of_isNearEnd hfinite hzero
  obtain ⟨j, hj⟩ := exists_near_of_isNearEnd hsub hhalf
  rw [hvalue] at hk
  obtain ⟨hk1, hk2⟩ := abs_lt.1 hk
  obtain ⟨hj1, hj2⟩ := abs_lt.1 hj
  obtain ⟨he1, he2⟩ := abs_le.1 herror
  rcases le_or_gt k j with hle | hgt
  · have hcast : (k : ℚ) ≤ j := by exact_mod_cast hle
    nlinarith
  · have hcast : (j : ℚ) + 1 ≤ k := by exact_mod_cast hgt
    nlinarith

/-- Taking π/2 off leaves a double of this size as large: above, it is a multiple of four, and below, the order is kept. -/
theorem two_pow_le_abs_sub_halfPi (ha : a.isFinite) (h : 2 ^ 54 < exactValue a ∨ exactValue a ≤ -2 ^ 54)
    (herror : exactValue a ≤ exactValue (a - halfPi) + exactValue pi) :
    (2 : ℚ) ^ ((2 : ℤ) + 52) ≤ |exactValue (a - halfPi)| := by
  have hpi := exactValue_pi
  norm_num at hpi ⊢
  rcases h with h | h
  · have hlarge : (2 : ℚ) ^ ((2 : ℤ) + 52) ≤ |exactValue a| := by
      norm_num
      exact h.le.trans (le_abs_self _)
    obtain ⟨i, hi⟩ := exists_multiple_of_le (by norm_num) hlarge
    rw [hi] at h herror
    norm_num at h herror
    have hnext : (2 : ℚ) ^ 52 + 1 ≤ i := by
      have hlt : (2 : ℚ) ^ 52 < i := by linarith
      exact_mod_cast hlt
    refine le_trans ?_ (le_abs_self _)
    linarith
  · have hpos : 0 ≤ exactValue halfPi := by
      rw [exactValue_halfPi, hpi]
      norm_num
    have hle := (isRounded_sub ha isFinite_halfPi).le_of_le (.self ha) (by linarith)
    exact (le_neg.1 ((float_le_iff.1 hle).2.2.trans h)).trans (neg_le_abs _)

/-- Both are multiples of four, and not as far from each other, for no double is nearer than `a` itself. -/
theorem exactValue_sub_halfPi (ha : a.isFinite) (h : 2 ^ 54 < exactValue a ∨ exactValue a ≤ -2 ^ 54) :
    exactValue (a - halfPi) = exactValue a := by
  have hpi := exactValue_pi
  have hhalfPi := exactValue_halfPi
  norm_num at hpi
  have herror := (isRounded_sub ha isFinite_halfPi).abs_sub_le ha
  rw [sub_sub_cancel, abs_of_pos (a := exactValue halfPi) (by linarith)] at herror
  obtain ⟨hlow, hhigh⟩ := abs_le.1 herror
  have hlarge : (2 : ℚ) ^ ((2 : ℤ) + 52) ≤ |exactValue a| := by
    norm_num at h ⊢
    rcases h with h | h
    · exact h.le.trans (le_abs_self _)
    · exact (le_neg.1 h).trans (neg_le_abs _)
  obtain ⟨i, hi⟩ := exists_multiple_of_le (by norm_num) hlarge
  obtain ⟨j, hj⟩ := exists_multiple_of_le (by norm_num) (two_pow_le_abs_sub_halfPi ha h (by linarith))
  rw [hi, hj] at hlow hhigh ⊢
  norm_num at hlow hhigh
  have hlt : (i : ℚ) < j + 1 := by linarith
  have hlt' : i < j + 1 := by exact_mod_cast hlt
  rw [show j = i by omega]

theorem isNegative_iff (ha : a.isFinite) (hne : exactValue a ≠ 0) : isNegative a = true ↔ exactValue a < 0 := by
  obtain ⟨negative, m, q, hparts⟩ := isFinite_iff.1 ha
  have hvalue := exactValue_of_parts hparts
  have hnonneg : (0 : ℚ) ≤ m * 2 ^ q := by positivity
  rw [isNegative_of_parts hparts]
  cases negative with
  | false => exact iff_of_false Bool.false_ne_true (by rw [hvalue]; exact not_lt.2 hnonneg)
  | true =>
    rw [signed_true] at hvalue
    exact iff_of_true rfl (lt_of_le_of_ne (by linarith) hne)

theorem eq_of_exactValue {b : Float} (ha : a.isFinite) (hb : b.isFinite) (hvalue : exactValue a = exactValue b)
    (hne : exactValue b ≠ 0) : a = b := by
  refine eq_of_exactValue_eq ha hb ?_ hvalue
  rw [Bool.eq_iff_iff, isNegative_iff ha (hvalue ▸ hne), isNegative_iff hb hne, hvalue]

theorem sub_halfPi_eq_iff (ha : a.isFinite) : a - halfPi = a ↔ 2 ^ 54 < exactValue a ∨ exactValue a ≤ -2 ^ 54 := by
  constructor
  · intro hlost
    by_contra h
    obtain ⟨hhigh, hlow⟩ := not_or.1 h
    have herror := (abs_sub_halfPi_le ha (not_le.1 hlow) (not_lt.1 hhigh)).2
    rw [hlost, sub_sub_cancel, exactValue_halfPi, exactValue_pi] at herror
    norm_num [abs_le] at herror
  · intro h
    have hvalue := exactValue_sub_halfPi ha h
    have hfinite : (a - halfPi).isFinite :=
      isFinite_of_abs_lt (isRounded_sub ha isFinite_halfPi).isNumber (hvalue ▸ abs_exactValue_lt ha)
    refine eq_of_exactValue hfinite ha hvalue ?_
    rintro hzero
    norm_num [hzero] at h

theorem isNearHalfPi_of_lost (ha : a.isFinite) (h : 2 ^ 54 < exactValue a ∨ exactValue a ≤ -2 ^ 54) :
    isNearHalfPi a = isNearZeroCrossing a := by
  have hne : exactValue a ≠ 0 := by
    rintro hzero
    norm_num [hzero] at h
  obtain ⟨hfinite, hvalue⟩ := exactValue_sub_zero ha
  rw [isNearHalfPi, isNearZeroCrossing, (sub_halfPi_eq_iff ha).2 h, eq_of_exactValue hfinite ha hvalue hne]

/-- Both tests hold exactly at the multiples of π where π/2 is lost. -/
theorem near_both_iff (ha : a.isFinite) : isNearZeroCrossing a ∧ isNearHalfPi a ↔
    isNearZeroCrossing a ∧ (2 ^ 54 < exactValue a ∨ exactValue a ≤ -2 ^ 54) := by
  constructor
  · rintro ⟨hzero, hhalf⟩
    refine ⟨hzero, ?_⟩
    by_contra h
    obtain ⟨hhigh, hlow⟩ := not_or.1 h
    exact not_near_both ha (not_le.1 hlow) (not_lt.1 hhigh) ⟨hzero, hhalf⟩
  · rintro ⟨hzero, h⟩
    exact ⟨hzero, (isNearHalfPi_of_lost ha h).trans hzero⟩

end Both

end Angle

/-! ## Functions -/

/-- The angle of a number in a mode. -/
def AngleMode.angle (mode : AngleMode) (x : Float) : Float := if mode = .degrees then ofDegrees x else x

/-- What is known of the library at an angle: its sine is zero only at zero, and its cosine is not zero. -/
structure VanishesOnlyAtZero (angle : Float) : Prop where
  zero_of_sine : ∀ v, sine angle = .ok v → v == 0.0 → angle == 0.0
  cosine_ne_zero : ∀ v, cosine angle = .ok v → ¬v == 0.0

section Functions

variable {f : NamedFunction} {mode : AngleMode} {x a : Float}

theorem parts_degree : Binary.ofFloat (pi / 180.0) = .finite false 5030569068109113 (-58) := by rfl

theorem isFinite_degree : (pi / 180.0).isFinite := isFinite_iff.2 ⟨_, _, _, parts_degree⟩

theorem exactValue_degree : exactValue (pi / 180.0) = 5030569068109113 / 2 ^ 58 := by
  rw [exactValue_of_parts parts_degree, signed_false]
  norm_num

theorem isFinite_angle (hx : x.isFinite) : (mode.angle x).isFinite := by
  cases mode with
  | radians => exact hx
  | degrees =>
    refine (isRounded_mul hx isFinite_degree).isFinite_of_abs_le hx ?_
    rw [abs_mul, exactValue_degree]
    refine mul_le_of_le_one_right (abs_nonneg _) ?_
    norm_num [abs_le]

theorem value?_of_ofAngle {r : Option Float} (hf : f.isTrigonometric) (h : f.ofAngle (mode.angle x) = .ok r) :
    f.value? mode x = r := by
  have hcompute : f.compute mode x = .ok r := (if_pos hf).trans h
  rw [NamedFunction.value?, hcompute]

theorem isInf_eq_false (ha : a.isFinite) : a.isInf = false := by
  change a.toModel.unpack.isInf = false
  change a.toModel.unpack.isFinite = true at ha
  cases hu : a.toModel.unpack <;> rw [hu] at ha <;> first | rfl | cases ha

theorem exists_sine (ha : a.isFinite) : ∃ v, sine a = .ok v :=
  ⟨_, if_neg (by rw [isInf_eq_false ha]; exact Bool.false_ne_true)⟩

theorem exists_cosine (ha : a.isFinite) : ∃ v, cosine a = .ok v :=
  ⟨_, if_neg (by rw [isInf_eq_false ha]; exact Bool.false_ne_true)⟩

theorem isNearZeroCrossing_of_zero (h : a == 0.0) : isNearZeroCrossing a := by
  rcases zero_of_beq h with rfl | rfl <;> decide +kernel

/-- A function that is zero where a test holds, and elsewhere has a value that is not zero. -/
theorem eq_zero_iff_of_test {test : Bool} {v : Float} (hf : f.isTrigonometric)
    (h : f.ofAngle (mode.angle x) = if test then .ok (some 0.0) else .ok (some v)) (hv : v == 0.0 → test) :
    (∃ w, f.value? mode x = some w ∧ w == 0.0) ↔ test := by
  rw [value?_of_ofAngle hf (h.trans (apply_ite Except.ok (test = true) (some 0.0) (some v)).symm)]
  cases test with
  | true => exact iff_of_true ⟨0.0, rfl, rfl⟩ rfl
  | false =>
    refine iff_of_false ?_ Bool.false_ne_true
    rintro ⟨w, hw, hzero⟩
    obtain rfl := Option.some.inj hw
    exact Bool.false_ne_true (hv hzero)

/-- A function that is undefined where a test holds, and elsewhere the inverse of a value that is not zero. -/
theorem eq_none_iff_of_test {test : Bool} {v : Float} (hf : f.isTrigonometric)
    (h : f.ofAngle (mode.angle x) = if test then .ok none else (divide 1.0 v).map some) (hv : v == 0.0 → test) :
    f.value? mode x = none ↔ test := by
  cases test with
  | true => exact iff_of_true (value?_of_ofAngle hf h) rfl
  | false =>
    have hdivide : divide 1.0 v = .ok (1.0 / v) := if_neg fun hzero => Bool.false_ne_true (hv hzero)
    rw [hdivide] at h
    rw [value?_of_ofAngle hf h]
    exact iff_of_false (Option.some_ne_none _) Bool.false_ne_true

theorem sine_tests (hx : x.isFinite) (h : VanishesOnlyAtZero (mode.angle x)) :
    ((∃ v, NamedFunction.sin.value? mode x = some v ∧ v == 0.0) ↔ isNearZeroCrossing (mode.angle x)) ∧
      (NamedFunction.csc.value? mode x = none ↔ isNearZeroCrossing (mode.angle x)) := by
  have hfinite : (mode.angle x).isFinite := isFinite_angle hx
  obtain ⟨v, hv⟩ := exists_sine hfinite
  have hzero (hzero : v == 0.0) := isNearZeroCrossing_of_zero (h.zero_of_sine v hv hzero)
  refine ⟨eq_zero_iff_of_test rfl ?_ hzero, eq_none_iff_of_test rfl ?_ hzero⟩
  · show (if _ then _ else (sine (mode.angle x) >>= fun v => _)) = _
    rw [hv]
    rfl
  · show (if _ then _ else (sine (mode.angle x) >>= fun v => divide 1.0 v >>= fun w => _)) = _
    rw [hv]
    rfl

theorem cosine_tests (hx : x.isFinite) (h : VanishesOnlyAtZero (mode.angle x)) :
    ((∃ v, NamedFunction.cos.value? mode x = some v ∧ v == 0.0) ↔ isNearHalfPi (mode.angle x)) ∧
      (NamedFunction.sec.value? mode x = none ↔ isNearHalfPi (mode.angle x)) := by
  have hfinite : (mode.angle x).isFinite := isFinite_angle hx
  obtain ⟨v, hv⟩ := exists_cosine hfinite
  have hzero : v == 0.0 → isNearHalfPi (mode.angle x) := fun hzero => absurd hzero (h.cosine_ne_zero v hv)
  refine ⟨eq_zero_iff_of_test rfl ?_ hzero, eq_none_iff_of_test rfl ?_ hzero⟩
  · show (if _ then _ else (cosine (mode.angle x) >>= fun v => _)) = _
    rw [hv]
    rfl
  · show (if _ then _ else (cosine (mode.angle x) >>= fun v => divide 1.0 v >>= fun w => _)) = _
    rw [hv]
    rfl

end Functions

/-- **Sine and cosine vanish together exactly where π/2 is lost.** An angle passes both tests if it is near a multiple of
π and so large that taking π/2 off leaves it as it is; and a number has such an angle if its sine and cosine are both
zero, and if its cosecant and secant are both undefined. -/
theorem vanish_together_iff {x : Float} (hx : x.isFinite) :
    ((isNearZeroCrossing x ∧ isNearHalfPi x) ↔ isNearZeroCrossing x ∧ x - halfPi = x) ∧
    (x - halfPi = x ↔ 2 ^ 54 < exactValue x ∨ exactValue x ≤ -2 ^ 54) ∧
    ∀ mode : AngleMode, VanishesOnlyAtZero (mode.angle x) →
      (((∃ v, NamedFunction.sin.value? mode x = some v ∧ v == 0.0) ∧
          ∃ v, NamedFunction.cos.value? mode x = some v ∧ v == 0.0) ↔
        isNearZeroCrossing (mode.angle x) ∧ mode.angle x - halfPi = mode.angle x) ∧
      ((NamedFunction.csc.value? mode x = none ∧ NamedFunction.sec.value? mode x = none) ↔
        isNearZeroCrossing (mode.angle x) ∧ mode.angle x - halfPi = mode.angle x) := by
  have hboth {a : Float} (ha : a.isFinite) :
      (isNearZeroCrossing a ∧ isNearHalfPi a) ↔ isNearZeroCrossing a ∧ a - halfPi = a := by
    rw [near_both_iff ha, sub_halfPi_eq_iff ha]
  refine ⟨hboth hx, sub_halfPi_eq_iff hx, fun mode hlibrary => ?_⟩
  obtain ⟨hsin, hcsc⟩ := sine_tests hx hlibrary
  obtain ⟨hcos, hsec⟩ := cosine_tests hx hlibrary
  rw [hsin, hcos, hcsc, hsec, ← hboth (isFinite_angle hx)]
  exact ⟨Iff.rfl, Iff.rfl⟩

/-- At zero only the sine vanishes; at `2 ^ 53` times π, where π/2 is lost, both tests hold. -/
theorem vanish_together_zero :
    ((28296951008113760.0 : Float).isFinite ∧ isNearHalfPi 28296951008113760.0) ∧
      (0.0 : Float).isFinite ∧ VanishesOnlyAtZero (AngleMode.radians.angle 0.0) ∧
        ¬(NamedFunction.csc.value? .radians 0.0 = none ∧ NamedFunction.sec.value? .radians 0.0 = none) := by
  have hfinite : (28296951008113760.0 : Float).isFinite := by rfl
  have hlost : (28296951008113760.0 : Float) - halfPi = 28296951008113760.0 := by rfl
  have hlibrary : VanishesOnlyAtZero (AngleMode.radians.angle 0.0) := by
    refine ⟨fun _ _ _ => rfl, fun v hv => ?_⟩
    have hone : cosine (AngleMode.radians.angle 0.0) = .ok 1.0 := rfl
    obtain rfl := Except.ok.inj (hone.symm.trans hv)
    decide +kernel
  obtain ⟨-, hkept, hfunctions⟩ := vanish_together_iff (x := 0.0) rfl
  refine ⟨⟨hfinite, ((vanish_together_iff hfinite).1.2 ⟨by rfl, hlost⟩).2⟩, rfl, hlibrary, fun hnone => ?_⟩
  have hlarge := hkept.1 ((hfunctions .radians hlibrary).2.1 hnone).2
  rw [exactValue_zero] at hlarge
  norm_num at hlarge

/-- The double `2 ^ 53` times π is a multiple of π, and counts as an odd multiple of π/2 as well. -/
theorem vanish_together_large : (28296951008113760.0 : Float).isFinite ∧ isNearZeroCrossing 28296951008113760.0 ∧
    isNearHalfPi 28296951008113760.0 ∧ NamedFunction.sin.value? .radians 28296951008113760.0 = some 0.0 ∧
    NamedFunction.cos.value? .radians 28296951008113760.0 = some 0.0 ∧
    NamedFunction.csc.value? .radians 28296951008113760.0 = none ∧
    NamedFunction.sec.value? .radians 28296951008113760.0 = none := by
  decide +kernel

end Calculator
