import Calculator.Proofs.ShownValue

/-!
# The accuracy of what is shown

What is shown of a double differs from it by less than the distance at which it is taken for an integer, and by no more
than half a unit of the last digit.

* `IsScientific.exponent_bounds`, `IsScientific.abs_sub_le` : seven digits.
* `Shown.abs_sub_le_places` : as many places as are left of twelve digits.
* `Shown.eq_natCast` : integers up to the first number with an exponent are shown as they are.
* `exists_accurate` : all doubles.
-/

namespace Calculator

set_option autoImplicit false

open Calculator.Number
open Calculator.Text (decimal)

section Digits

variable {w r : ℚ} {t : Text} {c n : ℕ} {e : ℤ}

theorem IsScientific.exponent_bounds (h : IsScientific w c e) :
    (10 : ℚ) ^ e ≤ c * 10 ^ (e - 6) ∧ (c * 10 ^ (e - 6) : ℚ) < 10 ^ (e + 1) := by
  obtain ⟨hlow, hhigh⟩ := h.coefficient_bounds
  have hlow' : (10 ^ 6 : ℚ) ≤ c := by exact_mod_cast hlow
  have hhigh' : (c : ℚ) < 10 ^ 7 := by exact_mod_cast hhigh
  constructor
  · rw [ten_zpow_eq_mul e]
    gcongr
  · rw [zpow_add_one₀ (by norm_num), ten_zpow_eq_mul e]
    have hunit : (0 : ℚ) < 10 ^ (e - 6) := by positivity
    linarith [mul_lt_mul_of_pos_right hhigh' hunit]

/-- Half a unit of the last of seven digits. -/
theorem IsScientific.abs_sub_le (h : IsScientific w c e) : |c * 10 ^ (e - 6) - w| ≤ 1 / 2 * (10 : ℚ) ^ (e - 6) := by
  have hunit : (0 : ℚ) < 10 ^ (e - 6) := by positivity
  rw [abs_sub_comm]
  cases h with
  | kept low high near hne =>
    rw [abs_sub_mul hunit]
    exact mul_le_mul_of_nonneg_right near.within hunit.le
  | carried low high near =>
    -- the digits were those of the next exponent below
    have hvalue : ((10 ^ 6 : ℕ) * 10 ^ (e - 6) : ℚ) = (10 ^ 7 : ℕ) * 10 ^ (e - 1 - 6) := by
      rw [ten_zpow_pred]
      push_cast
      ring
    have hunit' : (10 : ℚ) ^ (e - 1 - 6) ≤ 10 ^ (e - 6) := zpow_le_zpow_right₀ (by norm_num) (by omega)
    rw [hvalue, abs_sub_mul (by positivity)]
    calc |w / 10 ^ (e - 1 - 6) - (10 ^ 7 : ℕ)| * 10 ^ (e - 1 - 6) ≤ 1 / 2 * 10 ^ (e - 1 - 6) :=
          mul_le_mul_of_nonneg_right near.within (by positivity)
      _ ≤ 1 / 2 * 10 ^ (e - 6) := by gcongr

/-- Half a unit of the last place. -/
theorem Shown.abs_sub_le_places (h : Shown w t r) (hw : IsDoubleValue w) (low : 10 ^ (-8 : ℤ) ≤ w) (high : w < 10 ^ 8) :
    |r - w| ≤ 1 / 2 * (10 : ℚ) ^ (-placesOf w : ℤ) := by
  cases h with
  | scientific regime =>
    rcases regime with hlarge | ⟨-, hsmall⟩
    · exact absurd hlarge high.not_ge
    · exact absurd low (lt_of_lt_plainLimit hw hsmall).not_ge
  | whole hn hwhole =>
    rw [hwhole, sub_self, abs_zero]
    positivity
  | places low' high' hne near =>
    have hunit : (0 : ℚ) < 10 ^ (-placesOf w : ℤ) := by positivity
    rw [abs_sub_comm, abs_sub_mul hunit, zpow_neg, zpow_natCast, div_inv_eq_mul]
    exact mul_le_mul_of_nonneg_right near.within (by positivity)

/-- Half a unit of the last of seven digits, the exponent being that of the digits. -/
theorem Shown.exists_abs_sub_le (h : Shown w t r) (hw : 10 ^ 8 ≤ w ∨ 0 < w ∧ w < plainLimit) :
    ∃ e : ℤ, (10 : ℚ) ^ e ≤ r ∧ r < 10 ^ (e + 1) ∧ |r - w| ≤ 1 / 2 * (10 : ℚ) ^ (e - 6) := by
  cases h with
  | @scientific c e regime h => exact ⟨e, h.exponent_bounds.1, h.exponent_bounds.2, h.abs_sub_le⟩
  | whole hn hwhole =>
    rw [hwhole] at hw
    exact absurd hw (natCast_not_scientific hn)
  | places low high =>
    rcases hw with hlarge | ⟨-, hsmall⟩
    · exact absurd hlarge high.not_ge
    · exact absurd low hsmall.not_ge

/-- Integers up to the first number with an exponent are shown as they are. -/
theorem Shown.eq_natCast (h : Shown n t r) (hn : n ≤ 10 ^ 8) : r = n := by
  have hceiling : IsScientific (10 ^ 8) (10 ^ 6) 8 := by
    refine .kept (by norm_num) (by norm_num) (IsNearest.of_lt ?_) (by norm_num)
    norm_num
  generalize hw : (n : ℚ) = w at h
  cases h with
  | @scientific c e regime h =>
    rcases hn.lt_or_eq with hlt | rfl
    · exact absurd (hw ▸ regime) (natCast_not_scientific hlt)
    · rw [← hw, Nat.cast_pow] at h
      obtain ⟨rfl, rfl⟩ := h.unique hceiling
      rw [← hw]
      norm_num
  | whole _ hwhole => exact hwhole.symm
  | places _ _ hne => exact absurd hw.symm (hne n)

end Digits

/-! ## Magnitudes -/

section Magnitudes

variable {x w r : ℚ} {t : Text} {n b : ℕ}

theorem snapLimit_lt_half : snapLimit < 1 / 2 := snapLimit_lt_snapBottom.trans snapBottom_lt_half

/-- The integer next to a number below a bound is no greater than the bound. -/
theorem natCast_le_of_near (near : |x - n| < snapLimit) (h : x < b) : n ≤ b := by
  have hlt : (n : ℚ) < b + 1 := by linarith [(abs_lt.1 near).1, snapLimit_lt_half]
  exact Nat.lt_succ_iff.1 (by exact_mod_cast hlt)

theorem le_natCast_of_near (near : |x - n| < snapLimit) (h : b ≤ x) : b ≤ n := by
  have hlt : (b : ℚ) < n + 1 := by linarith [(abs_lt.1 near).2, snapLimit_lt_half]
  exact Nat.lt_succ_iff.1 (by exact_mod_cast hlt)

theorem abs_sub_lt_of_integer (near : |x - n| < snapLimit) (hx : x < 10 ^ 8) (h : Shown n t r) :
    |r - x| < snapLimit := by
  have hn : n ≤ 10 ^ 8 := natCast_le_of_near near (by exact_mod_cast hx)
  rwa [h.eq_natCast hn, abs_sub_comm]

theorem exists_abs_sub_le_of_large (hw : Taken x w) (h : Shown w t r) (hx : 10 ^ 8 ≤ x) :
    ∃ e : ℤ, (10 : ℚ) ^ e ≤ r ∧ r < 10 ^ (e + 1) ∧ |r - x| ≤ snapLimit + 1 / 2 * 10 ^ (e - 6) := by
  have hlarge : (10 : ℚ) ^ 8 ≤ w ∧ |w - x| ≤ snapLimit := by
    cases hw with
    | integer near far =>
      have hn := le_natCast_of_near (b := 10 ^ 8) near (by exact_mod_cast hx)
      exact ⟨by exact_mod_cast hn, by rw [abs_sub_comm]; exact near.le⟩
    | itself =>
      refine ⟨hx, ?_⟩
      rw [sub_self, abs_zero, snapLimit]
      positivity
  obtain ⟨e, hlow, hhigh, herror⟩ := h.exists_abs_sub_le (.inl hlarge.1)
  refine ⟨e, hlow, hhigh, ?_⟩
  calc |r - x| ≤ |r - w| + |w - x| := abs_sub_le r w x
    _ ≤ snapLimit + 1 / 2 * 10 ^ (e - 6) := by linarith

theorem exists_abs_sub_le_of_small (hw : Taken x w) (h : Shown w t r) (hpos : 0 < x) (hx : x < 10 ^ (-8 : ℤ)) :
    ∃ e : ℤ, (10 : ℚ) ^ e ≤ r ∧ r < 10 ^ (e + 1) ∧ |r - x| ≤ 1 / 2 * 10 ^ (e - 6) := by
  have hlimit := hx.trans plainLimit_bounds.1
  cases hw with
  | integer near far => exact absurd (far.trans hlimit) plainLimit_lt_snapBottom.not_gt
  | itself => exact h.exists_abs_sub_le (.inr ⟨hpos, hlimit⟩)

theorem cast_placesOf (hw : 0 ≤ w) (high : w < 10 ^ 8) : (placesOf w : ℤ) = 12 - (decimal ⌊w⌋₊).length := by
  have hpos := placesOf_pos hw high
  change 0 < 12 - _ at hpos
  show ((12 - (decimal ⌊w⌋₊).length : ℕ) : ℤ) = _
  omega

theorem abs_signed_sub (a : Bool) (r x : ℚ) : |signed a r - signed a x| = |r - x| := by
  cases a
  · rfl
  · rw [signed_true, signed_true, neg_sub_neg, abs_sub_comm]

end Magnitudes

/-! ## Doubles -/

/-- **What is shown is accurate**: zero is shown as zero, a double that is taken for an integer is less than the
tolerance away (which is below three units of the eighth place, `snapLimit_lt`), and another one no more than half a
unit of the last of twelve digits, or of the last of seven. -/
theorem exists_accurate {v : Float} (hv : v.isFinite) : ∃ D, writtenDecimal? (Display.text v) = some D ∧
    (exactValue v = 0 → D = 0) ∧
    (10 ^ (-8 : ℤ) ≤ |exactValue v| → |exactValue v| < 10 ^ 8 → (snaps v → |D - exactValue v| < snapLimit) ∧
      (¬snaps v → |D - exactValue v| ≤ 1 / 2 * 10 ^ (-(12 - (decimal ⌊|exactValue v|⌋₊).length) : ℤ))) ∧
    (10 ^ 8 ≤ |exactValue v| → ∃ e : ℤ, 10 ^ e ≤ |D| ∧ |D| < 10 ^ (e + 1) ∧
      |D - exactValue v| ≤ snapLimit + 1 / 2 * 10 ^ (e - 6)) ∧
    (0 < |exactValue v| → |exactValue v| < 10 ^ (-8 : ℤ) → ∃ e : ℤ, 10 ^ e ≤ |D| ∧ |D| < 10 ^ (e + 1) ∧
      |D - exactValue v| ≤ 1 / 2 * 10 ^ (e - 6)) := by
  obtain ⟨a, m, q, hparts⟩ := isFinite_iff.1 hv
  obtain ⟨w, t, r, htaken, hdouble, hshown, -, hwritten⟩ := exists_shownValue hparts
  have hvalue := exactValue_of_parts hparts
  have habs := abs_exactValue_of_parts hparts
  have hD : |signed a r| = r := abs_signed a hshown.nonneg
  have herror : |signed a r - exactValue v| = |r - m * 2 ^ q| := by rw [hvalue, abs_signed_sub]
  refine ⟨signed a r, hwritten, fun hzero => ?_, fun hlow hhigh => ⟨fun hsnaps => ?_, fun hsnaps => ?_⟩,
    fun hlarge => ?_, fun hpos hsmall => ?_⟩
  · rw [hzero, abs_zero] at habs
    rw [← habs] at htaken
    obtain rfl := taken_zero htaken
    rw [hshown.eq_zero, signed_zero]
  · rw [herror]
    rw [habs] at hhigh
    cases htaken with
    | integer near far => exact abs_sub_lt_of_integer near hhigh hshown
    | itself h => exact absurd hsnaps (not_snaps_of_itself hparts h)
  · rw [herror, habs]
    rw [habs] at hlow hhigh
    cases htaken with
    | integer near far => exact absurd (snaps_of_integer hparts near far) hsnaps
    | itself =>
      rw [← cast_placesOf (by positivity) hhigh]
      exact hshown.abs_sub_le_places hdouble hlow hhigh
  · rw [hD, herror]
    exact exists_abs_sub_le_of_large htaken hshown (habs ▸ hlarge)
  · rw [hD, herror]
    exact exists_abs_sub_le_of_small htaken hshown (habs ▸ hpos) (habs ▸ hsmall)

/-- A number just below three is taken for three. -/
theorem accurate_below_three : (2.9999999999 : Float).isFinite ∧ snaps 2.9999999999 ∧ ∃ D,
    writtenDecimal? (Display.text 2.9999999999) = some D ∧ |D - exactValue 2.9999999999| < snapLimit := by
  have hparts : Binary.ofFloat 2.9999999999 = .finite false 6755399440830564 (-51) := by decide +kernel
  have hvalue : |exactValue 2.9999999999| = 6755399440830564 * 2 ^ (-51 : ℤ) := abs_exactValue_of_parts hparts
  have hfinite : (2.9999999999 : Float).isFinite := isFinite_iff.2 ⟨_, _, _, hparts⟩
  have hsnaps : snaps 2.9999999999 := by decide +kernel
  obtain ⟨D, hD, -, hplain, -⟩ := exists_accurate hfinite
  refine ⟨hfinite, hsnaps, D, hD, (hplain ?_ ?_).1 hsnaps⟩
  · rw [hvalue]
    norm_num
  · rw [hvalue]
    norm_num

end Calculator
