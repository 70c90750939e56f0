import Calculator.Proofs.DecimalDouble
import Calculator.Proofs.ShownNumber

/-!
# Rounding to digits and back

A double `w` is shown with rounded digits, which mean `r`; the double `x` nearest to `r` is no farther from `r` than `w`
is. So `x` is shown with the same digits.

* `IsScientific.reread` : the coefficient and the exponent stay.
* `below_plainLimit` : where numbers with an exponent end there is no double between the limit and its decimal.
* `between_of_digits`, `Shown.reread_places` : digits with places stay.
* `Shown.reread` : so all digits stay but those of two powers of ten, where the way of being shown changes.
* `Shown.whole_or_small_or_point` : only digits with a point may be read as close to an integer.
-/

namespace Calculator

set_option autoImplicit false

open Calculator.Number

/-! ## Doubles below a power of ten -/

/-- Two doubles that differ are the least double apart. -/
theorem add_least_le {x w : ℚ} (hx : IsDoubleValue x) (hw : IsDoubleValue w) (h : x < w) :
    x + 2 ^ (-1074 : ℤ) ≤ w := by
  have hunits {y : ℚ} (hy : IsDoubleValue y) : ∃ n : ℕ, y = n * 2 ^ (-1074 : ℤ) := by
    obtain ⟨m, q, -, hq, rfl⟩ := hy
    obtain ⟨d, rfl⟩ : ∃ d : ℕ, q = d + -1074 := ⟨(q + 1074).toNat, by omega⟩
    refine ⟨m * 2 ^ d, ?_⟩
    rw [zpow_add₀ two_ne_zero, zpow_natCast, Nat.cast_mul, Nat.cast_pow, mul_assoc]
    rfl
  obtain ⟨i, rfl⟩ := hunits hx
  obtain ⟨j, rfl⟩ := hunits hw
  have hpos : (0 : ℚ) < 2 ^ (-1074 : ℤ) := by positivity
  have hij : i + 1 ≤ j := by exact_mod_cast lt_of_mul_lt_mul_right h hpos.le
  have hij' : (i : ℚ) + 1 ≤ j := by exact_mod_cast hij
  calc (i : ℚ) * 2 ^ (-1074 : ℤ) + 2 ^ (-1074 : ℤ) = (i + 1) * 2 ^ (-1074 : ℤ) := by ring
    _ ≤ j * 2 ^ (-1074 : ℤ) := mul_le_mul_of_nonneg_right hij' hpos.le

/-- The least double among the powers of ten. -/
theorem ten_pow_two_pow : 2 ^ 1074 < 10 ^ 324 ∧ 10 ^ 323 ≤ 2 ^ 1074 ∧ 4048045 * 10 ^ 317 < 2 * 2 ^ 1074 ∧
    2 ^ 1074 < 2024023 * 10 ^ 317 := by
  decide +kernel

theorem least_bounds : (10 : ℚ) ^ (-324 : ℤ) < 2 ^ (-1074 : ℤ) ∧ (2 : ℚ) ^ (-1074 : ℤ) ≤ 10 ^ (-323 : ℤ) := by
  have hlow : ((2 ^ 1074 : ℕ) : ℚ) < (10 ^ 324 : ℕ) := Nat.cast_lt.2 ten_pow_two_pow.1
  have hhigh : ((10 ^ 323 : ℕ) : ℚ) ≤ (2 ^ 1074 : ℕ) := Nat.cast_le.2 ten_pow_two_pow.2.1
  rw [Nat.cast_pow, Nat.cast_pow] at hlow hhigh
  rw [zpow_neg, zpow_neg, zpow_neg]
  exact ⟨inv_strictAnti₀ (by positivity) hlow, inv_anti₀ (by positivity) hhigh⟩

/-- The double nearest to the power of ten below the least seven digits is not smaller. -/
theorem not_below_least {k : ℕ} (hk : IsNearest (10 ^ (-317 : ℤ) / 2 ^ (-1074 : ℤ)) k) :
    (10 : ℚ) ^ (-317 : ℤ) ≤ k * 2 ^ (-1074 : ℤ) := by
  have hlow : ((4048045 * 10 ^ 317 : ℕ) : ℚ) < (2 * 2 ^ 1074 : ℕ) := Nat.cast_lt.2 ten_pow_two_pow.2.2.1
  have hhigh : ((2 ^ 1074 : ℕ) : ℚ) < (2024023 * 10 ^ 317 : ℕ) := Nat.cast_lt.2 ten_pow_two_pow.2.2.2
  have hvalue : (10 : ℚ) ^ (-317 : ℤ) / 2 ^ (-1074 : ℤ) = (2 ^ 1074 : ℕ) / (10 ^ 317 : ℕ) := by
    rw [zpow_neg, zpow_neg, div_inv_eq_mul, Nat.cast_pow, Nat.cast_pow, inv_mul_eq_div]
    rfl
  rw [← div_le_iff₀ (by positivity)]
  rw [hvalue] at hk ⊢
  rw [Nat.cast_mul, Nat.cast_mul] at hlow
  rw [Nat.cast_mul] at hhigh
  have hpos : (0 : ℚ) < (10 ^ 317 : ℕ) := Nat.cast_pos.2 (by positivity)
  generalize ((2 ^ 1074 : ℕ) : ℚ) = units at hlow hhigh hk ⊢
  generalize ((10 ^ 317 : ℕ) : ℚ) = unit at hlow hhigh hpos hk ⊢
  have hlower : 4048045 / 2 < units / unit := by
    rw [lt_div_iff₀ hpos]
    push_cast at hlow
    linarith
  have hupper : units / unit < 2024023 := by
    rw [div_lt_iff₀ hpos]
    exact_mod_cast hhigh
  have hk' : (2024022 : ℚ) < k := by
    have := abs_le.1 hk.within
    linarith
  have hk'' : 2024023 ≤ k := by exact_mod_cast hk'
  exact hupper.le.trans (by exact_mod_cast hk'')

/-! ## Digits with an exponent -/

section Scientific

variable {w x : ℚ} {c k : ℕ} {e q : ℤ}

/-- What is no farther from its rounded digits than `w` is has the same digits. -/
theorem isNearest_div_of_abs_sub_le {unit : ℚ} (hunit : 0 < unit) (hw : IsNearest (w / unit) c)
    (h : |c * unit - x| ≤ |c * unit - w|) : IsNearest (x / unit) c := by
  rw [abs_sub_comm _ x, abs_sub_comm _ w, abs_sub_mul hunit, abs_sub_mul hunit] at h
  exact hw.of_abs_sub_le (le_of_mul_le_mul_right h hunit)

theorem ten_zpow_eq_mul (e : ℤ) : (10 : ℚ) ^ e = 10 ^ 6 * 10 ^ (e - 6) := by
  rw [← zpow_natCast, ← zpow_add₀ (by norm_num)]
  congr 1
  omega

theorem ten_zpow_pred (e : ℤ) : (10 : ℚ) ^ (e - 1 - 6) = 10 ^ (e - 6) / 10 := by
  rw [show e - 1 - 6 = e - 6 - 1 by omega, zpow_sub_one₀ (by norm_num), div_eq_mul_inv]

/-- A double a little below a power of ten has the digits of the power. -/
theorem isScientific_of_below (hlow : 10 ^ e - x ≤ 10 ^ (e - 6) / 20) (hhigh : x < 10 ^ e) :
    IsScientific x (10 ^ 6) e := by
  have hunit : (0 : ℚ) < 10 ^ (e - 6) := by positivity
  rw [ten_zpow_eq_mul e] at hlow
  refine .carried ?_ hhigh ⟨?_, fun _ => by decide⟩
  · rw [zpow_sub_one₀ (by norm_num), ten_zpow_eq_mul e]
    linarith
  · rw [ten_zpow_eq_mul e] at hhigh
    rw [ten_zpow_pred, div_div_eq_mul_div, abs_le, Nat.cast_pow, Nat.cast_ofNat]
    constructor
    · have : (10 ^ 7 - 1 / 2 : ℚ) ≤ x * 10 / 10 ^ (e - 6) := by
        rw [le_div_iff₀ hunit]
        linarith
      linarith
    · have : x * 10 / 10 ^ (e - 6) ≤ 10 ^ 7 := by
        rw [div_le_iff₀ hunit]
        linarith
      linarith

theorem isScientific_of_above (hlow : 10 ^ e ≤ x) (hhigh : x - 10 ^ e ≤ 10 ^ (e - 6) / 20) :
    IsScientific x (10 ^ 6) e := by
  have hunit : (0 : ℚ) < 10 ^ (e - 6) := by positivity
  rw [ten_zpow_eq_mul e] at hhigh
  refine .kept hlow ?_ (IsNearest.of_lt ?_) (by decide)
  · rw [zpow_add_one₀ (by norm_num), ten_zpow_eq_mul e]
    linarith
  · rw [ten_zpow_eq_mul e] at hlow
    have hquotient : x / 10 ^ (e - 6) ≤ 10 ^ 6 + 1 / 20 := by
      rw [div_le_iff₀ hunit]
      linarith
    have hquotient' : 10 ^ 6 ≤ x / 10 ^ (e - 6) := by rwa [le_div_iff₀ hunit]
    rw [abs_lt, Nat.cast_pow, Nat.cast_ofNat]
    constructor <;> linarith

/-- The double nearest to a power of ten is only a little below it, unless the digits are finer than the doubles. -/
theorem sub_le_of_below (hx : RoundsTo (10 ^ e) k q) (hbelow : k * 2 ^ q < (10 : ℚ) ^ e) (he : -317 ≤ e) :
    10 ^ e - k * 2 ^ q ≤ (10 : ℚ) ^ (e - 6) / 20 := by
  have herror := (le_abs_self _).trans hx.abs_sub_le_half
  rcases hx.full with hfull | rfl
  · have hpos : (0 : ℚ) < 10 ^ (e - 6) := by positivity
    rw [ten_zpow_eq_mul e] at hfull herror ⊢
    linarith
  · rcases he.lt_or_eq with he | rfl
    · have hleast : (2 : ℚ) ^ (-1074 : ℤ) ≤ 10 ^ (e - 1 - 6) :=
        least_bounds.2.trans (zpow_le_zpow_right₀ (by norm_num) (by omega))
      rw [ten_zpow_pred] at hleast
      linarith
    · exact absurd (not_below_least hx.nearest) (not_le.2 hbelow)

/-- Only digits that write the power of ten itself are read as less than it. -/
theorem coefficient_of_below (hc : 10 ^ 6 ≤ c) (near : IsNearest (x / 10 ^ (e - 6)) c) (hbelow : x < 10 ^ e) :
    c = 10 ^ 6 := by
  have hquotient : x / 10 ^ (e - 6) < (10 ^ 6 : ℚ) := by
    rwa [div_lt_iff₀ (by positivity), ← ten_zpow_eq_mul]
  have hlt : (c : ℚ) < (10 ^ 6 + 1 : ℕ) := by
    have := abs_le.1 near.within
    push_cast
    linarith
  have := Nat.cast_lt.1 hlt
  omega

/-- Two doubles that differ have the same digits only where a digit is no less than the least double. -/
theorem exponent_of_same_digits (hx : IsDoubleValue x) (hw : IsDoubleValue w) (h : x < w)
    (near : IsNearest (x / 10 ^ (e - 6)) c) (near' : IsNearest (w / 10 ^ (e - 6)) c) : -317 ≤ e := by
  by_contra he
  have hwithin := abs_le.1 near.within
  have hwithin' := abs_le.1 near'.within
  have hquotient : (w - x) / 10 ^ (e - 6) ≤ 1 := by
    rw [sub_div]
    linarith
  rw [div_le_one (by positivity)] at hquotient
  have hunit : (10 : ℚ) ^ (e - 6) ≤ 10 ^ (-324 : ℤ) := zpow_le_zpow_right₀ (by norm_num) (by omega)
  have hsplit := add_least_le hx hw h
  have hleast := least_bounds.1
  linarith

/-- The double nearest to the digits shown of a double has the same digits. -/
theorem IsScientific.reread (h : IsScientific w c e) (hw : IsDoubleValue w) (hx : RoundsTo (c * 10 ^ (e - 6)) k q) :
    IsScientific (k * 2 ^ q) c e := by
  have hnearest := hx.abs_sub_le hw
  obtain ⟨hmin, hmax⟩ := h.coefficient_bounds
  have hunit : (0 : ℚ) < 10 ^ (e - 6) := by positivity
  cases h with
  | kept low high near hne =>
    have hnear := isNearest_div_of_abs_sub_le hunit near hnearest
    rcases le_or_gt ((10 : ℚ) ^ e) (k * 2 ^ q) with hlow | hbelow
    · refine .kept hlow ?_ hnear hne
      have hwithin := abs_le.1 hnear.within
      have hc : (c : ℚ) ≤ 10 ^ 7 - 1 := by
        have : ((c + 1 : ℕ) : ℚ) ≤ (10 ^ 7 : ℕ) := Nat.cast_le.2 hmax
        push_cast at this
        linarith
      have hquotient : k * 2 ^ q / 10 ^ (e - 6) < (10 ^ 7 : ℚ) := by linarith
      rw [div_lt_iff₀ hunit] at hquotient
      rw [zpow_add_one₀ (by norm_num), ten_zpow_eq_mul e]
      linarith
    obtain rfl := coefficient_of_below hmin hnear hbelow
    have he := exponent_of_same_digits hx.isDoubleValue hw (hbelow.trans_le low) hnear near
    rw [Nat.cast_pow, Nat.cast_ofNat, ← ten_zpow_eq_mul] at hx
    exact isScientific_of_below (sub_le_of_below hx hbelow he) hbelow
  | carried low high near =>
    have hdistance : (10 : ℚ) ^ e - w ≤ 10 ^ (e - 6) / 20 := by
      have hwithin := (abs_le.1 near.within).1
      rw [ten_zpow_pred, div_div_eq_mul_div, Nat.cast_pow, Nat.cast_ofNat] at hwithin
      have hquotient : (10 ^ 7 - 1 / 2 : ℚ) ≤ w * 10 / 10 ^ (e - 6) := by linarith
      rw [le_div_iff₀ hunit] at hquotient
      rw [ten_zpow_eq_mul e]
      linarith
    rw [Nat.cast_pow, Nat.cast_ofNat, ← ten_zpow_eq_mul, abs_of_pos (sub_pos.2 high)] at hnearest
    obtain ⟨hbelow, habove⟩ := abs_le.1 (hnearest.trans hdistance)
    rcases le_or_gt ((10 : ℚ) ^ e) (k * 2 ^ q) with hle | hlt
    · exact isScientific_of_above hle (by linarith)
    · exact isScientific_of_below habove hlt

theorem IsScientific.bounds (h : IsScientific w c e) : (10 : ℚ) ^ (e - 1) ≤ w ∧ w < 10 ^ (e + 1) := by
  have hmono : (10 : ℚ) ^ (e - 1) ≤ 10 ^ e := zpow_le_zpow_right₀ (by norm_num) (by omega)
  have hmono' : (10 : ℚ) ^ e ≤ 10 ^ (e + 1) := zpow_le_zpow_right₀ (by norm_num) (by omega)
  cases h with
  | kept low high => exact ⟨hmono.trans low, high⟩
  | carried low high => exact ⟨low, high.trans_le hmono'⟩

end Scientific

/-! ## Whole numbers -/

section Whole

variable {w : ℚ} {c k n : ℕ} {e q : ℤ} {t : Text}

theorem exists_natCast_of_rounds (hx : RoundsTo n k q) : ∃ j : ℕ, (k * 2 ^ q : ℚ) = j := by
  rcases le_total 0 q with hq | hq
  · refine ⟨k * 2 ^ q.toNat, ?_⟩
    rw [Nat.cast_mul, Nat.cast_pow, Nat.cast_ofNat, ← zpow_natCast, Int.toNat_of_nonneg hq]
  · refine ⟨n, ?_⟩
    have hunits : (n / 2 ^ q : ℚ) = (n * 2 ^ (-q).toNat : ℕ) := by
      rw [Nat.cast_mul, Nat.cast_pow, Nat.cast_ofNat, ← zpow_natCast (2 : ℚ), Int.toNat_of_nonneg (by omega), zpow_neg,
        div_eq_mul_inv]
    have hnear := hx.nearest
    have hself : IsNearest ((n * 2 ^ (-q).toNat : ℕ) : ℚ) (n * 2 ^ (-q).toNat) := IsNearest.of_lt (by simp)
    rw [hunits] at hnear
    rw [hnear.unique hself, ← hunits, div_mul_cancel₀ _ (by positivity)]

theorem isDoubleValue_natCast (hn : n < 2 ^ 53) : IsDoubleValue n := ⟨n, 0, hn, by decide, by rw [zpow_zero, mul_one]⟩

/-- The digits of a large number mean a whole number, which is no smaller than the least large number. -/
theorem exists_natCast_of_large (h : IsScientific w c e) (hw : 10 ^ 8 ≤ w) :
    ∃ n : ℕ, (c * 10 ^ (e - 6) : ℚ) = n ∧ (10 : ℚ) ^ 8 ≤ n := by
  obtain ⟨hmin, hmax⟩ := h.coefficient_bounds
  have hexponent : 8 ≤ e := by
    have hlt := (zpow_lt_zpow_iff_right₀ (by norm_num : (1 : ℚ) < 10)).1
      (lt_of_le_of_lt (by exact_mod_cast hw : (10 : ℚ) ^ (8 : ℤ) ≤ w) h.bounds.2)
    omega
  obtain ⟨d, hd⟩ : ∃ d : ℕ, e - 6 = d + 2 := ⟨(e - 8).toNat, by omega⟩
  have hvalue : (c * 10 ^ (e - 6) : ℚ) = (c * 10 ^ (d + 2) : ℕ) := by
    rw [hd, Nat.cast_mul, Nat.cast_pow, Nat.cast_ofNat]
    norm_cast
  refine ⟨c * 10 ^ (d + 2), hvalue, ?_⟩
  have : 10 ^ 8 ≤ c * 10 ^ (d + 2) := calc
    10 ^ 8 = 10 ^ 6 * 10 ^ 2 := by norm_num
    _ ≤ c * 10 ^ (d + 2) := Nat.mul_le_mul hmin (Nat.pow_le_pow_right (by decide) (by omega))
  exact_mod_cast this

end Whole

/-! ## The lower end of the numbers without an exponent -/

/-- Between the lower end and its decimal there is no double. -/
theorem below_plainLimit {w : ℚ} (hw : IsDoubleValue w) (h : w < plainLimit) :
    w ≤ (6044629098073146 - 1) * 2 ^ (-79 : ℤ) := by
  obtain ⟨m, q, hm, -, rfl⟩ := hw
  rw [plainLimit_eq] at h
  rcases le_or_gt (-79) q with hq | hq
  · obtain ⟨d, rfl⟩ : ∃ d : ℕ, q = d + -79 := ⟨(q + 79).toNat, by omega⟩
    rw [zpow_add₀ two_ne_zero, ← mul_assoc, zpow_natCast] at h ⊢
    have hunits : (m * 2 ^ d : ℚ) < (6044629098073146 : ℕ) := by
      exact_mod_cast lt_of_mul_lt_mul_right h (by positivity)
    have hunits' : m * 2 ^ d + 1 ≤ 6044629098073146 := by exact_mod_cast hunits
    have hunits'' : (m * 2 ^ d + 1 : ℚ) ≤ 6044629098073146 := by exact_mod_cast hunits'
    exact mul_le_mul_of_nonneg_right (by linarith) (by positivity)
  · have hm' : (m : ℚ) ≤ 2 ^ 53 := by exact_mod_cast hm.le
    have hpow : (2 : ℚ) ^ q ≤ 2 ^ (-80 : ℤ) := zpow_le_zpow_right₀ (by norm_num) (by omega)
    calc (m * 2 ^ q : ℚ) ≤ 2 ^ 53 * 2 ^ (-80 : ℤ) := by gcongr
      _ ≤ (6044629098073146 - 1) * 2 ^ (-79 : ℤ) := by norm_num

theorem lt_of_lt_plainLimit {w : ℚ} (hw : IsDoubleValue w) (h : w < plainLimit) : w < 10 ^ (-8 : ℤ) :=
  (below_plainLimit hw h).trans_lt (by norm_num)

theorem isDoubleValue_plainLimit : IsDoubleValue plainLimit :=
  ⟨6044629098073146, -79, by decide, by decide, plainLimit_eq⟩

/-- The double nearest to a number above the decimal of the lower end is above the lower end. -/
theorem plainLimit_le_of_rounds {r : ℚ} {k : ℕ} {q : ℤ} (hx : RoundsTo r k q) (hr : 10 ^ (-8 : ℤ) ≤ r) :
    plainLimit ≤ k * 2 ^ q := by
  by_contra hlt
  have hbelow := below_plainLimit hx.isDoubleValue (not_le.1 hlt)
  have hr' : r < plainLimit := by
    by_contra hle
    exact hlt (hx.ge_of_isDoubleValue isDoubleValue_plainLimit (not_lt.1 hle))
  have hnearest := hx.abs_sub_le isDoubleValue_plainLimit
  rw [abs_of_neg (sub_neg.2 hr'), plainLimit_eq] at hnearest
  have := (le_abs_self _).trans hnearest
  norm_num at hbelow hr this
  linarith

/-! ## Digits with places -/

section Places

variable {w : ℚ} {n k : ℕ} {q : ℤ}

theorem placesOf_of_lt_one (h : w < 1) : placesOf w = 11 := by
  have hfloor : ⌊w⌋₊ = 0 := Nat.floor_eq_zero.2 h
  rw [placesOf, hfloor]
  rfl

/-- The places show the digits of the lower end. -/
theorem thousand_le_digits (low : plainLimit ≤ w) (h : w < 1) (near : IsNearest (w * 10 ^ placesOf w) n) :
    1000 ≤ n := by
  refine near.ge_of_ge ?_
  rw [placesOf_of_lt_one h]
  have hlow := plainLimit_bounds.1.trans_le low
  norm_num at hlow ⊢
  linarith

theorem digits_pos (low : plainLimit ≤ w) (near : IsNearest (w * 10 ^ placesOf w) n) : 0 < n := by
  rcases lt_or_ge w 1 with h | h
  · exact (by decide : 0 < 1000).trans_le (thousand_le_digits low h near)
  · refine near.ge_of_ge ?_
    rw [Nat.cast_one]
    exact one_le_mul_of_one_le_of_one_le h (one_le_pow₀ (by norm_num))

/-- Numbers with the same digits lie between the same whole numbers, if the digits write none of the two. -/
theorem between_of_digits {x : ℚ} {places : ℕ} (near : IsNearest (x * 10 ^ places) n) (hmod : n % 10 ^ places ≠ 0) :
    ((n / 10 ^ places : ℕ) : ℚ) < x ∧ x < (n / 10 ^ places : ℕ) + 1 := by
  have hunit : (0 : ℚ) < 10 ^ places := by positivity
  have hwithin := abs_le.1 near.within
  have hsplit := Nat.div_add_mod' n (10 ^ places)
  have hlt := Nat.mod_lt n (by positivity : 10 ^ places > 0)
  -- the digits are a place away from both, and half a place is the most that was rounded off
  have hlower : ((n / 10 ^ places * 10 ^ places + 1 : ℕ) : ℚ) ≤ n := Nat.cast_le.2 (by omega)
  have hupper : ((n + 1 : ℕ) : ℚ) ≤ (n / 10 ^ places * 10 ^ places + 10 ^ places : ℕ) := Nat.cast_le.2 (by omega)
  rw [Nat.cast_succ, Nat.cast_mul, Nat.cast_pow, Nat.cast_ofNat] at hlower
  rw [Nat.cast_succ, Nat.cast_add, Nat.cast_mul, Nat.cast_pow, Nat.cast_ofNat] at hupper
  constructor <;> refine lt_of_mul_lt_mul_right (a := 10 ^ places) ?_ hunit.le <;> linarith

theorem floor_eq_of_digits {x : ℚ} {places : ℕ} (near : IsNearest (x * 10 ^ places) n) (hmod : n % 10 ^ places ≠ 0) :
    ⌊x⌋₊ = n / 10 ^ places := by
  obtain ⟨hlow, hhigh⟩ := between_of_digits near hmod
  exact (Nat.floor_eq_iff ((Nat.cast_nonneg _).trans hlow.le)).2 ⟨hlow.le, hhigh⟩

/-- The double nearest to digits with places has the same digits. -/
theorem Shown.reread_places (hw : IsDoubleValue w) (low : plainLimit ≤ w) (high : w < 10 ^ 8)
    (near : IsNearest (w * 10 ^ placesOf w) n) (hmod : n % 10 ^ placesOf w ≠ 0)
    (hx : RoundsTo (n * 10 ^ (-placesOf w : ℤ)) k q) :
    Shown (k * 2 ^ q) (placesDigits (placesOf w) n) (n * 10 ^ (-placesOf w : ℤ)) := by
  have hnear : IsNearest (k * 2 ^ q * 10 ^ placesOf w) n := by
    have hnearest := hx.abs_sub_le hw
    rw [zpow_neg, zpow_natCast] at hnearest
    rw [← div_inv_eq_mul] at near ⊢
    exact isNearest_div_of_abs_sub_le (by positivity) near hnearest
  obtain ⟨hlow, hhigh⟩ := between_of_digits hnear hmod
  have hfloor : ⌊w⌋₊ = n / 10 ^ placesOf w := floor_eq_of_digits near hmod
  have hplaces : placesOf (k * 2 ^ q) = placesOf w := by
    rw [placesOf, (floor_eq_of_digits hnear hmod).trans hfloor.symm, placesOf]
  rw [← hfloor] at hlow hhigh
  have hbelow : (k * 2 ^ q : ℚ) < 10 ^ 8 := by
    have hceiling : ⌊w⌋₊ + 1 ≤ 10 ^ 8 :=
      Nat.succ_le_of_lt ((Nat.floor_lt (plainLimit_pos.le.trans low)).2 (by exact_mod_cast high))
    exact hhigh.trans_le (by exact_mod_cast hceiling)
  have habove : plainLimit ≤ k * 2 ^ q := by
    rcases lt_or_ge w 1 with h | h
    · refine plainLimit_le_of_rounds hx ?_
      have hn : ((1000 : ℕ) : ℚ) ≤ n := Nat.cast_le.2 (thousand_le_digits low h near)
      rw [Nat.cast_ofNat] at hn
      rw [placesOf_of_lt_one h]
      norm_num
      linarith
    · have hone : (1 : ℚ) ≤ ⌊w⌋₊ := by exact_mod_cast Nat.floor_pos.2 h
      have hlimit := plainLimit_bounds.2
      norm_num at hlimit
      linarith
  have hfraction (j : ℕ) : (k * 2 ^ q : ℚ) ≠ j := by
    intro hj
    rw [hj] at hlow hhigh
    have h1 : ⌊w⌋₊ < j := Nat.cast_lt.1 hlow
    have h2 : j < ⌊w⌋₊ + 1 := by exact_mod_cast hhigh
    omega
  have hshown := Shown.places habove hbelow hfraction (hplaces ▸ hnear)
  rwa [hplaces] at hshown

end Places

/-! ## All digits -/

namespace Shown

variable {w x r : ℚ} {t : Text} {k : ℕ} {q : ℤ}

theorem pos_iff (h : Shown w t r) : 0 < w ↔ 0 < r := by
  cases h with
  | @scientific c e regime h =>
    have hc : (0 : ℚ) < c := Nat.cast_pos.2 ((by decide : 0 < 10 ^ 6).trans_le h.coefficient_bounds.1)
    refine iff_of_true ?_ (by positivity)
    rcases regime with hlarge | ⟨hpos, -⟩
    · exact hlarge.trans_lt' (by norm_num)
    · exact hpos
  | whole hn hw => rw [hw]
  | @places n low high hne near =>
    have hn : (0 : ℚ) < n := Nat.cast_pos.2 (digits_pos low near)
    exact iff_of_true (plainLimit_pos.trans_le low) (by positivity)

/-- The double nearest to what is shown of a double is shown the same, unless the digits have become those of the first
number with an exponent, or of the first one without. -/
theorem reread (h : Shown w t r) (hw : IsDoubleValue w) (hx : RoundsTo r k q) (hceiling : t ≠ "100000000".toList)
    (hfloor : t ≠ "1E-8".toList) : Shown (k * 2 ^ q) t r := by
  cases h with
  | @scientific c e regime h =>
    have hagain := h.reread hw hx
    refine .scientific ?_ hagain
    rcases regime with hlarge | ⟨hpos, hsmall⟩
    · obtain ⟨n, hn, hle⟩ := exists_natCast_of_large h hlarge
      have hdouble : IsDoubleValue (10 ^ 8 : ℚ) := by exact_mod_cast isDoubleValue_natCast (n := 10 ^ 8) (by decide)
      exact .inl (hx.ge_of_isDoubleValue hdouble (hn ▸ hle))
    · right
      have hlt := lt_of_lt_plainLimit hw hsmall
      have hexponent : e ≤ -9 := by
        have hle := (zpow_lt_zpow_iff_right₀ (by norm_num)).1 (h.bounds.1.trans_lt hlt)
        rcases (show e ≤ -9 ∨ e = -8 by omega) with he | rfl
        · exact he
        -- below the last power of ten the digits are those of the power
        · cases h with
          | kept low => exact absurd low (not_le.2 hlt)
          | carried => exact absurd (by decide) hfloor
      have hbelow : (10 : ℚ) ^ (e + 1) ≤ 10 ^ (-8 : ℤ) := zpow_le_zpow_right₀ (by norm_num) (by omega)
      exact ⟨hagain.bounds.1.trans_lt' (by positivity), hagain.bounds.2.trans_le hbelow |>.trans plainLimit_bounds.1⟩
  | @whole n hn hwhole =>
    refine .whole hn ?_
    exact hx.eq_of_isDoubleValue (isDoubleValue_natCast (hn.trans (by decide)))
  | @places n low high hne near =>
    by_cases hmod : n % 10 ^ placesOf w = 0
    · -- the places have become zeros, and what is shown is the whole number
      rw [placesDigits_of_mod_eq_zero hmod] at hceiling ⊢
      obtain ⟨j, rfl⟩ : ∃ j, n = j * 10 ^ placesOf w := ⟨_, (Nat.div_mul_cancel (Nat.dvd_of_mod_eq_zero hmod)).symm⟩
      have hvalue : (((j * 10 ^ placesOf w : ℕ) : ℚ) * 10 ^ (-placesOf w : ℤ)) = j := by
        rw [zpow_neg, zpow_natCast, Nat.cast_mul, Nat.cast_pow, Nat.cast_ofNat,
          mul_inv_cancel_right₀ (by positivity)]
      rw [Nat.mul_div_cancel _ (by positivity)] at hceiling ⊢
      rw [hvalue] at hx ⊢
      have hj : j < 10 ^ 8 := by
        have hle : j * 10 ^ placesOf w ≤ 10 ^ 8 * 10 ^ placesOf w := by
          refine near.le_of_le ?_
          rw [Nat.cast_mul, Nat.cast_pow, Nat.cast_pow]
          exact mul_le_mul_of_nonneg_right high.le (by positivity)
        refine lt_of_le_of_ne (Nat.le_of_mul_le_mul_right hle (by positivity)) ?_
        rintro rfl
        exact hceiling (by decide)
      exact .whole hj (hx.eq_of_isDoubleValue (isDoubleValue_natCast (hj.trans (by decide))))
    · exact reread_places hw low high near hmod hx

/-- The double nearest to what is shown is whole, or too small to be taken for an integer, unless there is a point. -/
theorem whole_or_small_or_point (h : Shown (k * 2 ^ q) t r) (hx : RoundsTo r k q) :
    (∃ j : ℕ, (k * 2 ^ q : ℚ) = j) ∨ (k * 2 ^ q : ℚ) < plainLimit ∨ '.' ∈ t ∧ 'E' ∉ t := by
  cases h with
  | scientific regime h =>
    rcases regime with hlarge | ⟨-, hsmall⟩
    · obtain ⟨n, hn, -⟩ := exists_natCast_of_large h hlarge
      exact .inl (exists_natCast_of_rounds (hn ▸ hx))
    · exact .inr (.inl hsmall)
  | whole hn hwhole => exact .inl ⟨_, hwhole⟩
  | @places n low high hne near =>
    refine .inr (.inr ⟨point_mem_placesDigits fun hmod => ?_, mark_not_mem_placesDigits _ _⟩)
    obtain ⟨j, hj⟩ := Nat.dvd_of_mod_eq_zero hmod
    have hvalue : (n * 10 ^ (-placesOf (k * 2 ^ q) : ℤ) : ℚ) = j := by
      rw [zpow_neg, zpow_natCast, hj, Nat.cast_mul, Nat.cast_pow, Nat.cast_ofNat, mul_comm,
        inv_mul_cancel_left₀ (by positivity)]
    obtain ⟨i, hi⟩ := exists_natCast_of_rounds (hvalue ▸ hx)
    exact hne i hi

end Shown

end Calculator
