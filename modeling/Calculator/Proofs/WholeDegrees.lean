import Calculator.Proofs.NearMultiples

/-!
# Half turns in degrees

A multiple of 180 degrees becomes a multiple of π with an error: of the product, and of the factor, which is a double, too.
A quarter turn behind it, π/2 is taken off before the test, and the difference is rounded once more. The errors grow with
the multiple and the tolerance does not, and so the values are exact only as far as they stay below the tolerance. At the
quarter turns it is the difference that exceeds it first: the angle itself is still nearer to the pole.

* `isRounded_ofDegrees`, `abs_ofDegrees_sub_le` : the conversion, and its error.
* `isNearZeroCrossing_small`, `isNearHalfPi_small` : the multiples where the bound of the error is below the tolerance.
* `half_turn_error`, `quarter_turn_error` : the errors of the multiples behind these, in units.
* `isNearZeroCrossing_ofDegrees`, `isNearHalfPi_ofDegrees` : all the multiples that pass the tests.
* `half_turns_exact` : the values there.
-/

namespace Calculator

set_option autoImplicit false

open Calculator.Number Calculator.Angle

namespace Angle

/-! ## Conversion -/

section Conversion

variable {x : Float} {h : ℚ} {k : ℤ}

/-- `h` half turns in degrees become as many times a number next to the rounded π, for a degree is rounded, too. -/
theorem isRounded_ofDegrees (hx : x.isFinite) (hvalue : exactValue x = 180 * h) :
    IsRounded (ofDegrees x) (h * (exactValue pi + 20 / 2 ^ 58)) := by
  have hproduct : exactValue x * exactValue (pi / 180.0) = h * (exactValue pi + 20 / 2 ^ 58) := by
    rw [hvalue, exactValue_degree, exactValue_pi]
    ring
  exact hproduct ▸ isRounded_mul hx isFinite_degree

theorem abs_turns (h : ℚ) : |h * (exactValue pi + 20 / 2 ^ 58)| = |h| * (exactValue pi + 20 / 2 ^ 58) := by
  have hpos : 0 < exactValue pi + 20 / 2 ^ 58 := by
    rw [exactValue_pi]
    norm_num
  rw [abs_mul, abs_of_pos hpos]

/-- The error of the conversion. -/
theorem abs_ofDegrees_sub_le (hx : x.isFinite) (hvalue : exactValue x = 180 * h) (hh : |h| ≤ 333772) :
    (ofDegrees x).isFinite ∧
      |exactValue (ofDegrees x) - h * exactValue pi| ≤ |h| * (20 / 2 ^ 58) + 2 ^ (-34 : ℤ) := by
  have hsmall : |h * (exactValue pi + 20 / 2 ^ 58)| < 2 ^ (20 : ℤ) := by
    rw [abs_turns, exactValue_pi]
    norm_num
    linarith
  obtain ⟨hfinite, herror⟩ := (isRounded_ofDegrees hx hvalue).abs_sub_le_half hsmall (by norm_num) (by norm_num)
  refine ⟨hfinite, ?_⟩
  have hsplit : exactValue (ofDegrees x) - h * exactValue pi =
      h * (20 / 2 ^ 58) + (exactValue (ofDegrees x) - h * (exactValue pi + 20 / 2 ^ 58)) := by ring
  rw [hsplit]
  refine (abs_add_le _ _).trans (add_le_add ?_ herror)
  rw [abs_mul, abs_of_pos (by norm_num : (0 : ℚ) < 20 / 2 ^ 58)]

theorem exactValue_eq_half_turns (hvalue : exactValue x = 180 * k + 90) :
    exactValue x = 180 * ((k : ℚ) + 1 / 2) := by
  rw [hvalue]
  ring

end Conversion

/-! ## Tests -/

section Tests

variable {x : Float} {k : ℤ}

theorem isNearZeroCrossing_small (hx : x.isFinite) (hvalue : exactValue x = 180 * k) (hk : |k| ≤ 333772) :
    isNearZeroCrossing (ofDegrees x) := by
  have hk' : |(k : ℚ)| ≤ 333772 := by exact_mod_cast hk
  obtain ⟨hfinite, herror⟩ := abs_ofDegrees_sub_le hx hvalue hk'
  obtain ⟨hsub, heq⟩ := exactValue_sub_zero hfinite
  refine isNearEnd_of_near hsub (k := k) (heq.symm ▸ herror.trans ?_)
  norm_num
  linarith

theorem isNearHalfPi_small (hx : x.isFinite) (hvalue : exactValue x = 180 * k + 90) (hlow : -166886 ≤ k)
    (hhigh : k ≤ 166886) : isNearHalfPi (ofDegrees x) := by
  have hlow' : (-166886 : ℚ) ≤ k := by exact_mod_cast hlow
  have hhigh' : (k : ℚ) ≤ 166886 := by exact_mod_cast hhigh
  have hhalf : |(k : ℚ) + 1 / 2| ≤ 333773 / 2 := by
    rw [abs_le]
    constructor <;> linarith
  have hpi := exactValue_pi
  have hhalfPi := exactValue_halfPi
  norm_num at hpi
  obtain ⟨hfinite, herror⟩ := abs_ofDegrees_sub_le hx (exactValue_eq_half_turns hvalue) (by linarith)
  have herror : |exactValue (ofDegrees x) - ((k : ℚ) + 1 / 2) * exactValue pi| ≤ 7 / 10 ^ 11 :=
    herror.trans (by norm_num; linarith)
  obtain ⟨he1, he2⟩ := abs_le.1 herror
  -- the difference is next to `k` times π
  have hsmall : |exactValue (ofDegrees x) - exactValue halfPi| < 2 ^ (19 : ℤ) := by
    rw [abs_lt, hhalfPi, hpi]
    rw [hpi] at he1 he2
    norm_num at he1 he2 ⊢
    constructor <;> linarith
  obtain ⟨hsub, herror'⟩ := (isRounded_sub hfinite isFinite_halfPi).abs_sub_le_half hsmall (by norm_num) (by norm_num)
  obtain ⟨hs1, hs2⟩ := abs_le.1 herror'
  refine isNearEnd_of_near hsub (k := k) (abs_le.2 ?_)
  norm_num at hs1 hs2 he1 he2 ⊢
  constructor <;> linarith

end Tests

/-! ## The last multiples

Behind these the bound of the error exceeds the tolerance. But a double of this size is the nearest multiple of a unit, and
from one half turn to the next, or to the next but one, its error grows by the same step: so it is known at each of them. -/

section Last

variable {x : Float} {i j k : ℤ}

theorem half_turn_error (hlow : 333773 ≤ |k|) (hhigh : |k| ≤ 333785)
    (hj : |j * 2 ^ 26 - 180 * k * 5030569068109113| ≤ 2 ^ 25) : |j * 2 ^ 16 - k * 884279719003555| ≤ 28006 := by
  rw [le_abs] at hlow
  rw [abs_le] at hhigh hj ⊢
  obtain ⟨m, rfl | rfl⟩ := Int.even_or_odd' k
  · obtain rfl | rfl : j = 26986075409 * m + 7349 ∨ j = 26986075409 * m - 7349 := by omega
    · omega
    · omega
  · obtain rfl | rfl : j = 26986075409 * m + 13493045054 ∨ j = 26986075409 * m + 13493030355 := by omega
    · omega
    · omega

/-- Taking π/2 off takes the same multiple of the unit off everywhere. -/
theorem quarter_turn_error (hk : 166887 ≤ k ∧ k ≤ 166947 ∨ -166903 ≤ k ∧ k ≤ -166887)
    (hi : |i * 2 ^ 25 - (180 * k + 90) * 5030569068109113| ≤ 2 ^ 24)
    (hj : |j * 2 ^ 16 - (i * 2 ^ 16 - 884279719003555)| ≤ 2 ^ 15) : |j * 2 ^ 15 - k * 884279719003555| ≤ 28006 := by
  rw [abs_le] at hi hj ⊢
  obtain rfl : j = i - 13493037705 := by omega
  rcases hk with ⟨hlow, hhigh⟩ | ⟨hlow, hhigh⟩
  · obtain rfl | rfl | rfl : i = 26986075409 * k + 13493045054 ∨ i = 26986075409 * k + 13493045055 ∨
        i = 26986075409 * k + 13493045056 := by omega
    · omega
    · omega
    · omega
  · obtain rfl : i = 26986075409 * k + 13493030355 := by omega
    omega

/-- A bound in units. -/
theorem abs_le_iff_of_units {a b : ℤ} {v w c : ℚ} (hc : 0 < c) (ha : (a : ℚ) = v * c) (hb : (b : ℚ) = w * c) :
    |a| ≤ b ↔ |v| ≤ w := by
  rw [← Int.cast_le (R := ℚ), Int.cast_abs, ha, hb, abs_mul, abs_of_pos hc, mul_le_mul_iff_left₀ hc]

theorem isNearEnd_of_units {y : Float} (hy : y.isFinite) (hvalue : exactValue y * 2 ^ 48 = j)
    (h : |j - k * 884279719003555| ≤ 28006) : isNearEnd (floorRem y pi) pi := by
  have hdistance : |exactValue y - k * exactValue pi| ≤ 28006 / 2 ^ 48 := by
    refine (abs_le_iff_of_units (c := 2 ^ 48) (by positivity) ?_ (by norm_num)).1 h
    push_cast
    rw [← hvalue, exactValue_pi]
    ring
  exact isNearEnd_of_near hy (hdistance.trans (by norm_num))

theorem isNearZeroCrossing_last (hx : x.isFinite) (hvalue : exactValue x = 180 * k) (hlow : 333773 ≤ |k|)
    (hhigh : |k| ≤ 333785) : isNearZeroCrossing (ofDegrees x) := by
  have hlow' : (333773 : ℚ) ≤ |(k : ℚ)| := by exact_mod_cast hlow
  have hhigh' : |(k : ℚ)| ≤ 333785 := by exact_mod_cast hhigh
  have hpi := exactValue_pi
  obtain ⟨hfinite, j, hj, herror⟩ := (isRounded_ofDegrees hx hvalue).exists_multiple (q := -32)
    (by rw [abs_turns, hpi]; norm_num; linarith) (by rw [abs_turns, hpi]; norm_num; linarith) (by norm_num) (by norm_num)
  have hunits : |j * 2 ^ 26 - 180 * k * 5030569068109113| ≤ 2 ^ 25 := by
    refine (abs_le_iff_of_units (c := 2 ^ 58) (by positivity) ?_ (by norm_num)).2 herror
    push_cast
    rw [hpi]
    ring
  obtain ⟨hsub, heq⟩ := exactValue_sub_zero hfinite
  refine isNearEnd_of_units hsub (j := j * 2 ^ 16) ?_ (half_turn_error hlow hhigh hunits)
  rw [heq, hj]
  push_cast
  ring

/-- An odd number of quarter turns of this size becomes the nearest multiple of a unit. -/
theorem exists_quarter_turns (hx : x.isFinite) (hvalue : exactValue x = 180 * k + 90)
    (hk : 166887 ≤ k ∧ k ≤ 166947 ∨ -166903 ≤ k ∧ k ≤ -166887) : (ofDegrees x).isFinite ∧ ∃ i : ℤ,
      exactValue (ofDegrees x) = i / 2 ^ 33 ∧ |i * 2 ^ 25 - (180 * k + 90) * 5030569068109113| ≤ 2 ^ 24 := by
  have hk' : (166887 : ℚ) ≤ k ∧ (k : ℚ) ≤ 166947 ∨ (-166903 : ℚ) ≤ k ∧ (k : ℚ) ≤ -166887 := by exact_mod_cast hk
  have hturns : 333773 / 2 ≤ |(k : ℚ) + 1 / 2| ∧ |(k : ℚ) + 1 / 2| ≤ 333895 / 2 := by
    rcases hk' with hk' | hk'
    · rw [abs_of_pos (by linarith)]
      constructor <;> linarith
    · rw [abs_of_neg (by linarith)]
      constructor <;> linarith
  have hpi := exactValue_pi
  obtain ⟨hfinite, i, hi, herror⟩ := (isRounded_ofDegrees hx (exactValue_eq_half_turns hvalue)).exists_multiple (q := -33)
    (by rw [abs_turns, hpi]; norm_num; linarith) (by rw [abs_turns, hpi]; norm_num; linarith) (by norm_num) (by norm_num)
  refine ⟨hfinite, i, by rw [hi]; ring, (abs_le_iff_of_units (c := 2 ^ 58) (by positivity) ?_ (by norm_num)).2 herror⟩
  push_cast
  rw [hpi]
  ring

theorem isNearHalfPi_last (hx : x.isFinite) (hvalue : exactValue x = 180 * k + 90)
    (hk : 166887 ≤ k ∧ k ≤ 166947 ∨ -166903 ≤ k ∧ k ≤ -166887) : isNearHalfPi (ofDegrees x) := by
  obtain ⟨hfinite, i, hi, hunits⟩ := exists_quarter_turns hx hvalue hk
  have hhalfPi : exactValue halfPi = 884279719003555 / 2 ^ 49 := by
    rw [exactValue_halfPi, exactValue_pi]
    norm_num
  -- the difference is of the same size
  have hdifference : 2 ^ 19 + 1 ≤ |exactValue (ofDegrees x) - exactValue halfPi| ∧
      |exactValue (ofDegrees x) - exactValue halfPi| < 2 ^ 20 := by
    have hsize : 524291 * 2 ^ 33 ≤ i ∧ i ≤ 524482 * 2 ^ 33 ∨ -524340 * 2 ^ 33 ≤ i ∧ i ≤ -524289 * 2 ^ 33 := by
      rw [abs_le] at hunits
      omega
    have hsize' : 524291 * 2 ^ 33 ≤ (i : ℚ) ∧ (i : ℚ) ≤ 524482 * 2 ^ 33 ∨
        -524340 * 2 ^ 33 ≤ (i : ℚ) ∧ (i : ℚ) ≤ -524289 * 2 ^ 33 := by exact_mod_cast hsize
    rw [hi, hhalfPi]
    rcases hsize' with hsize' | hsize'
    · rw [abs_of_pos (by linarith)]
      constructor <;> linarith
    · rw [abs_of_neg (by linarith)]
      constructor <;> linarith
  obtain ⟨hsub, j, hj, herror⟩ := (isRounded_sub hfinite isFinite_halfPi).exists_multiple (q := -33)
    (hdifference.1.trans' (by norm_num)) (hdifference.2.trans_le (by norm_num)) (by norm_num) (by norm_num)
  have hunits' : |j * 2 ^ 16 - (i * 2 ^ 16 - 884279719003555)| ≤ 2 ^ 15 := by
    refine (abs_le_iff_of_units (c := 2 ^ 49) (by positivity) ?_ (by norm_num)).2 herror
    push_cast
    rw [hi, hhalfPi]
    ring
  refine isNearEnd_of_units hsub (j := j * 2 ^ 15) ?_ (quarter_turn_error hk hunits hunits')
  rw [hj]
  push_cast
  ring

theorem isNearZeroCrossing_ofDegrees (hx : x.isFinite) (hvalue : exactValue x = 180 * k) (hk : |k| ≤ 333785) :
    isNearZeroCrossing (ofDegrees x) := by
  rcases le_or_gt |k| 333772 with hsmall | hlarge
  · exact isNearZeroCrossing_small hx hvalue hsmall
  · exact isNearZeroCrossing_last hx hvalue hlarge hk

theorem isNearHalfPi_ofDegrees (hx : x.isFinite) (hvalue : exactValue x = 180 * k + 90) (hlow : -166903 ≤ k)
    (hhigh : k ≤ 166947) : isNearHalfPi (ofDegrees x) := by
  rcases (by omega : (-166886 ≤ k ∧ k ≤ 166886) ∨ 166887 ≤ k ∧ k ≤ 166947 ∨ -166903 ≤ k ∧ k ≤ -166887) with hsmall | hlast
  · exact isNearHalfPi_small hx hvalue hsmall.1 hsmall.2
  · exact isNearHalfPi_last hx hvalue hlast

/-- A quarter turn behind them no angle is near a multiple of π. -/
theorem not_isNearZeroCrossing_ofDegrees (hx : x.isFinite) (hvalue : exactValue x = 180 * k + 90) (hlow : -166903 ≤ k)
    (hhigh : k ≤ 166947) : ¬isNearZeroCrossing (ofDegrees x) := by
  have hlow' : (-166903 : ℚ) ≤ k := by exact_mod_cast hlow
  have hhigh' : (k : ℚ) ≤ 166947 := by exact_mod_cast hhigh
  have hhalf : |(k : ℚ) + 1 / 2| ≤ 333772 := by
    rw [abs_le]
    constructor <;> linarith
  obtain ⟨hfinite, herror⟩ := abs_ofDegrees_sub_le hx (exactValue_eq_half_turns hvalue) hhalf
  obtain ⟨he1, he2⟩ := abs_le.1 (herror.trans (by norm_num; linarith : _ ≤ (1 : ℚ)))
  rw [exactValue_pi] at he1 he2
  exact fun hzero => not_near_both hfinite (by linarith) (by linarith)
    ⟨hzero, isNearHalfPi_ofDegrees hx hvalue hlow hhigh⟩

end Last

end Angle

/-- **Half turns in degrees are exact as far as the errors stay below the tolerance**: up to 333785 of them, where only the
conversion has one, and a quarter turn behind them, where the difference from π/2 is rounded, too, from 166903 backwards to
166947 forwards. -/
theorem half_turns_exact {x : Float} (hx : x.isFinite) (k : ℤ) :
    (exactValue x = 180 * k → |k| ≤ 333785 →
      NamedFunction.sin.value? .degrees x = some 0.0 ∧ NamedFunction.tan.value? .degrees x = some 0.0 ∧
        NamedFunction.csc.value? .degrees x = none ∧ NamedFunction.cot.value? .degrees x = none) ∧
    (exactValue x = 180 * k + 90 → -166903 ≤ k → k ≤ 166947 →
      NamedFunction.cos.value? .degrees x = some 0.0 ∧ NamedFunction.cot.value? .degrees x = some 0.0 ∧
        NamedFunction.tan.value? .degrees x = none ∧ NamedFunction.sec.value? .degrees x = none) := by
  constructor
  · intro hvalue hk
    have hzero := isNearZeroCrossing_ofDegrees hx hvalue hk
    exact ⟨value?_of_ofAngle rfl (if_pos hzero), value?_of_ofAngle rfl (if_pos hzero),
      value?_of_ofAngle rfl (if_pos hzero), value?_of_ofAngle rfl (if_pos hzero)⟩
  · intro hvalue hlow hhigh
    have hhalf := isNearHalfPi_ofDegrees hx hvalue hlow hhigh
    have hnot := not_isNearZeroCrossing_ofDegrees hx hvalue hlow hhigh
    exact ⟨value?_of_ofAngle rfl (if_pos hhalf), value?_of_ofAngle rfl ((if_neg hnot).trans (if_pos hhalf)),
      value?_of_ofAngle rfl ((if_neg hnot).trans (if_pos hhalf)), value?_of_ofAngle rfl (if_pos hhalf)⟩

/-- The last half turns, in both directions. -/
theorem half_turns_exact_last :
    ((-60081300.0 : Float).isFinite ∧ exactValue (-60081300.0) = 180 * (-333785 : ℤ) ∧
      NamedFunction.sin.value? .degrees (-60081300.0) = some 0.0 ∧ NamedFunction.csc.value? .degrees (-60081300.0) = none) ∧
    (30050550.0 : Float).isFinite ∧ exactValue 30050550.0 = 180 * (166947 : ℤ) + 90 ∧
      NamedFunction.cos.value? .degrees 30050550.0 = some 0.0 ∧ NamedFunction.tan.value? .degrees 30050550.0 = none := by
  have hparts : Binary.ofFloat (-60081300.0) = .finite true (60081300 * 2 ^ 27) (-27) := by rfl
  have hparts' : Binary.ofFloat 30050550.0 = .finite false (30050550 * 2 ^ 28) (-28) := by rfl
  have hvalue : exactValue (-60081300.0) = 180 * (-333785 : ℤ) := by
    rw [exactValue_of_parts hparts, signed_true]
    norm_num
  have hvalue' : exactValue 30050550.0 = 180 * (166947 : ℤ) + 90 := by
    rw [exactValue_of_parts hparts', signed_false]
    norm_num
  have hfinite := isFinite_iff.2 ⟨_, _, _, hparts⟩
  have hfinite' := isFinite_iff.2 ⟨_, _, _, hparts'⟩
  obtain ⟨hsin, -, hcsc, -⟩ := (half_turns_exact hfinite _).1 hvalue (by decide)
  obtain ⟨hcos, -, htan, -⟩ := (half_turns_exact hfinite' _).2 hvalue' (by decide) (by decide)
  exact ⟨⟨hfinite, hvalue, hsin, hcsc⟩, hfinite', hvalue', hcos, htan⟩

/-- The next ones have lost too much: the conversion at half turns, the difference from π/2 at quarter turns. The tangent
has a value there, and no test holds. -/
theorem half_turns_inexact :
    (30050730.0 : Float).isFinite ∧ exactValue 30050730.0 = 180 * (166948 : ℤ) + 90 ∧
      NamedFunction.tan.value? .degrees 30050730.0 ≠ none ∧ NamedFunction.tan.value? .degrees (-30042630.0) ≠ none ∧
      ¬isNearZeroCrossing (ofDegrees 60081480.0) ∧ ¬isNearZeroCrossing (ofDegrees (-60081480.0)) := by
  have hparts : Binary.ofFloat 30050730.0 = .finite false (30050730 * 2 ^ 28) (-28) := by rfl
  refine ⟨isFinite_iff.2 ⟨_, _, _, hparts⟩, ?_, by decide +kernel, by decide +kernel, by decide +kernel, by decide +kernel⟩
  rw [exactValue_of_parts hparts, signed_false]
  norm_num

end Calculator
