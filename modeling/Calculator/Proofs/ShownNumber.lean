import Calculator.Proofs.ShownText
import Mathlib.Data.Rat.Floor
import Mathlib.Tactic.FieldSimp

/-!
# How a number is shown

What is shown of a number depends on its value alone, not on the fraction that gives it.

* `IsScientific w c e` : `w` is shown with the coefficient `c` and the exponent `e`.
* `Shown w t r` : `w`, which is not taken for an integer, is shown as `t`, which writes `r`.
* `Shown.unique`, `exists_shown_digitsText` : there is one such text, and it is the one that is computed.
-/

namespace Calculator

set_option autoImplicit false

open Calculator.Number
open Calculator.Text (decimal)
open Display (trimZeros plainText digitsText fractionLt plainFloor plainCeiling significantDigits)

/-! ## The exponent of the leading digit -/

theorem decimal_bounds {n : ℕ} (hn : 0 < n) : 10 ^ ((decimal n).length - 1) ≤ n ∧ n < 10 ^ (decimal n).length := by
  have hpos : 0 < (decimal n).length := Nat.length_toDigits_pos
  refine ⟨?_, (Nat.length_toDigits_le_iff (by decide) hpos).1 le_rfl⟩
  rcases Nat.lt_or_ge 1 (decimal n).length with h | h
  · by_contra hlt
    have := (Nat.length_toDigits_le_iff (by decide) (by omega)).2 (not_le.1 hlt)
    change (decimal n).length ≤ _ at this
    omega
  · have : (decimal n).length - 1 = 0 := by omega
    rw [this, pow_zero]
    exact hn

section Exponent

variable {num den : ℕ}

theorem decimalExponent_bounds (hnum : 0 < num) (hden : 0 < den) :
    (10 : ℚ) ^ decimalExponent num den ≤ num / den ∧ (num / den : ℚ) < 10 ^ (decimalExponent num den + 1) := by
  have hden' : (0 : ℚ) < den := by exact_mod_cast hden
  have hnum' : (0 : ℚ) < num := by exact_mod_cast hnum
  unfold decimalExponent
  split_ifs with hle
  · have hpos : 0 < num / den := Nat.div_pos hle hden
    obtain ⟨hlow, hhigh⟩ := decimal_bounds hpos
    set k := (decimal (num / den)).length with hk
    have hk' : 0 < k := Nat.length_toDigits_pos
    constructor
    · rw [show ((k : ℤ) - 1) = ((k - 1 : ℕ) : ℤ) by omega, zpow_natCast, le_div_iff₀ hden']
      exact_mod_cast (Nat.le_div_iff_mul_le hden).1 hlow
    · rw [sub_add_cancel, zpow_natCast, div_lt_iff₀ hden']
      exact_mod_cast (Nat.div_lt_iff_lt_mul hden).1 hhigh
  · -- below one the digits of the reciprocal are counted, less one so that a power of ten gets its own exponent
    set m := (den + num - 1) / num - 1 with hm
    have hquotient : 2 ≤ (den + num - 1) / num := (Nat.le_div_iff_mul_le hnum).2 (by omega)
    have hdiv := Nat.div_add_mod (den + num - 1) num
    have hmod := Nat.mod_lt (den + num - 1) hnum
    rw [show (den + num - 1) / num = m + 1 by omega, Nat.mul_add, Nat.mul_one] at hdiv
    obtain ⟨hlow, hhigh⟩ := decimal_bounds (by omega : 0 < m)
    set k := (decimal m).length with hk
    have hk' : 0 < k := Nat.length_toDigits_pos
    constructor
    · have hle : den ≤ num * 10 ^ k := calc
        den ≤ num * (m + 1) := by rw [Nat.mul_add, Nat.mul_one]; omega
        _ ≤ num * 10 ^ k := Nat.mul_le_mul_left _ hhigh
      rw [zpow_neg, zpow_natCast, le_div_iff₀ hden', inv_mul_le_iff₀ (by positivity), mul_comm]
      exact_mod_cast hle
    · have hlt : num * 10 ^ (k - 1) < den := lt_of_le_of_lt (Nat.mul_le_mul_left _ hlow) (by omega)
      rw [show (-(k : ℤ) + 1) = -((k - 1 : ℕ) : ℤ) by omega, zpow_neg, zpow_natCast, div_lt_iff₀ hden',
        lt_inv_mul_iff₀ (by positivity), mul_comm]
      exact_mod_cast hlt

/-- The exponent of the leading digit is the only one. -/
theorem exponent_unique {w : ℚ} {e f : ℤ} (he : (10 : ℚ) ^ e ≤ w) (he' : w < 10 ^ (e + 1)) (hf : (10 : ℚ) ^ f ≤ w)
    (hf' : w < 10 ^ (f + 1)) : e = f := by
  have hef := (zpow_lt_zpow_iff_right₀ (by norm_num)).1 (he.trans_lt hf')
  have hfe := (zpow_lt_zpow_iff_right₀ (by norm_num)).1 (hf.trans_lt he')
  omega

end Exponent

/-! ## Numbers with an exponent -/

/-- `w` is shown with the coefficient `c` and the exponent `e`: its digits are rounded, and may become one more. -/
inductive IsScientific (w : ℚ) : ℕ → ℤ → Prop where
  | kept {c : ℕ} {e : ℤ} (low : (10 : ℚ) ^ e ≤ w) (high : w < 10 ^ (e + 1)) (near : IsNearest (w / 10 ^ (e - 6)) c)
      (hne : c ≠ 10 ^ 7) : IsScientific w c e
  | carried {e : ℤ} (low : (10 : ℚ) ^ (e - 1) ≤ w) (high : w < 10 ^ e)
      (near : IsNearest (w / 10 ^ (e - 1 - 6)) (10 ^ 7)) : IsScientific w (10 ^ 6) e

namespace IsScientific

variable {w : ℚ} {c d : ℕ} {e f : ℤ}

theorem unique (h : IsScientific w c e) (h' : IsScientific w d f) : c = d ∧ e = f := by
  cases h with
  | kept low high near hne =>
    cases h' with
    | kept low' high' near' hne' =>
      obtain rfl := exponent_unique low high low' high'
      exact ⟨near.unique near', rfl⟩
    | carried low' high' near' =>
      obtain rfl : e = f - 1 := exponent_unique low high low' (by rwa [sub_add_cancel])
      exact absurd (near.unique near') hne
  | carried low high near =>
    cases h' with
    | kept low' high' near' hne' =>
      obtain rfl : f = e - 1 := exponent_unique low' high' low (by rwa [sub_add_cancel])
      exact absurd (near'.unique near) hne'
    | carried low' high' near' =>
      have := exponent_unique low (by rwa [sub_add_cancel]) low' (by rwa [sub_add_cancel])
      exact ⟨rfl, by omega⟩

theorem coefficient_bounds (h : IsScientific w c e) : 10 ^ 6 ≤ c ∧ c < 10 ^ 7 := by
  cases h with
  | kept low high near hne =>
    have hpos : (0 : ℚ) < 10 ^ (e - 6) := by positivity
    have hlow : 10 ^ 6 ≤ c := by
      refine near.ge_of_ge ?_
      rw [le_div_iff₀ hpos]
      refine le_trans (le_of_eq ?_) low
      rw [Nat.cast_pow, ← zpow_natCast, Nat.cast_ofNat, ← zpow_add₀ (by norm_num)]
      congr 1
      omega
    have hhigh : c ≤ 10 ^ 7 := by
      refine near.le_of_le ?_
      rw [div_le_iff₀ hpos]
      refine le_trans high.le (le_of_eq ?_)
      rw [Nat.cast_pow, ← zpow_natCast, Nat.cast_ofNat, ← zpow_add₀ (by norm_num)]
      congr 1
      omega
    omega
  | carried => decide

end IsScientific

theorem ten_zpow_eq_div (k : ℤ) : (10 : ℚ) ^ k = 10 ^ k.toNat / 10 ^ (-k).toNat := by
  rcases le_total 0 k with hk | hk
  · obtain ⟨n, rfl⟩ := Int.eq_ofNat_of_zero_le hk
    rw [Int.toNat_natCast, show (-(n : ℤ)).toNat = 0 by omega, zpow_natCast, pow_zero, div_one]
  · obtain ⟨n, rfl⟩ := Int.exists_eq_neg_ofNat hk
    rw [neg_neg, Int.toNat_natCast, show (-(n : ℤ)).toNat = 0 by omega, zpow_neg, zpow_natCast, pow_zero, one_div]

theorem isScientific_scientific {num den : ℕ} (hnum : 0 < num) (hden : 0 < den) :
    IsScientific (num / den) (scientific 6 num den).coefficient (scientific 6 num den).exponent := by
  obtain ⟨hlow, hhigh⟩ := decimalExponent_bounds hnum hden
  have hden' : (den : ℚ) ≠ 0 := by exact_mod_cast hden.ne'
  unfold scientific
  simp only [hnum.ne', if_false]
  set e := decimalExponent num den with he
  have hpos : 0 < den * Nat.pow 10 (e - (6 : ℕ)).toNat := Nat.mul_pos hden (by rw [Nat.pow_eq]; positivity)
  have hnear := isNearest_divNearest (num * Nat.pow 10 ((6 : ℕ) - e).toNat) hpos
  have hvalue : (((num * Nat.pow 10 ((6 : ℕ) - e).toNat : ℕ) : ℚ) / ((den * Nat.pow 10 (e - (6 : ℕ)).toNat : ℕ) : ℚ)) =
      num / den / 10 ^ (e - 6) := by
    rw [ten_zpow_eq_div (e - 6), neg_sub, Nat.pow_eq, Nat.pow_eq]
    push_cast
    field_simp
  rw [hvalue] at hnear
  split_ifs with hcarry
  · rw [hcarry] at hnear
    rw [← add_sub_cancel_right e 1] at hlow hnear
    exact .carried hlow hhigh hnear
  · exact .kept hlow hhigh hnear hcarry

/-! ## All numbers -/

/-- Smaller numbers than this are shown with an exponent. -/
def plainLimit : ℚ := plainFloor.1 / plainFloor.2

theorem plainFloor_eq : plainFloor = (6044629098073146, 2 ^ 79) := by decide +kernel

theorem plainLimit_eq : plainLimit = 6044629098073146 * 2 ^ (-79 : ℤ) := by
  rw [plainLimit, plainFloor_eq, zpow_neg]
  norm_num

theorem plainLimit_bounds : 10 ^ (-8 : ℤ) < plainLimit ∧ plainLimit < 10 ^ (-8 : ℤ) + 10 ^ (-9 : ℤ) := by
  rw [plainLimit_eq]
  norm_num

theorem plainLimit_pos : 0 < plainLimit := plainLimit_bounds.1.trans' (by positivity)

/-- The places of a number that is shown without an exponent. -/
def placesOf (w : ℚ) : ℕ := significantDigits - (decimal ⌊w⌋₊).length

theorem placesOf_pos {w : ℚ} (hw : 0 ≤ w) (hw' : w < 10 ^ 8) : 0 < placesOf w := by
  have hfloor : ⌊w⌋₊ < 10 ^ 8 := by
    rw [Nat.floor_lt hw]
    exact_mod_cast hw'
  have : (decimal ⌊w⌋₊).length ≤ 8 := (Nat.length_toDigits_le_iff (by decide) (by decide)).2 hfloor
  show 0 < 12 - (decimal ⌊w⌋₊).length
  omega

/-- `w`, which is not taken for the integer next to it, is shown as `t`, which writes `r`. -/
inductive Shown (w : ℚ) : Text → ℚ → Prop where
  | scientific {c : ℕ} {e : ℤ} (regime : 10 ^ 8 ≤ w ∨ 0 < w ∧ w < plainLimit) (h : IsScientific w c e) :
      Shown w (scientificDigits c e) (c * 10 ^ (e - 6))
  | whole {n : ℕ} (hn : n < 10 ^ 8) (hw : w = n) : Shown w (decimal n) n
  | places {n : ℕ} (low : plainLimit ≤ w) (high : w < 10 ^ 8) (hw : ∀ n : ℕ, w ≠ n)
      (near : IsNearest (w * 10 ^ placesOf w) n) : Shown w (placesDigits (placesOf w) n) (n * 10 ^ (-placesOf w : ℤ))

theorem natCast_not_scientific {n : ℕ} (hn : n < 10 ^ 8) :
    ¬(10 ^ 8 ≤ (n : ℚ) ∨ 0 < (n : ℚ) ∧ (n : ℚ) < plainLimit) := by
  rintro (h | ⟨hpos, h⟩)
  · have : 10 ^ 8 ≤ n := by exact_mod_cast h
    omega
  · have hone : (1 : ℚ) ≤ n := by exact_mod_cast Nat.cast_pos.1 hpos
    have hlimit := plainLimit_bounds.2
    norm_num at hlimit
    linarith

theorem Shown.unique {w r r' : ℚ} {s t : Text} (hs : Shown w s r) (ht : Shown w t r') : s = t := by
  cases hs with
  | scientific regime h =>
    cases ht with
    | scientific _ h' =>
      obtain ⟨rfl, rfl⟩ := h.unique h'
      rfl
    | whole hn hw => exact absurd (hw ▸ regime) (natCast_not_scientific hn)
    | places low high => rcases regime with regime | ⟨-, regime⟩ <;> linarith
  | whole hn hw =>
    cases ht with
    | scientific regime _ => exact absurd (hw ▸ regime) (natCast_not_scientific hn)
    | whole _ hw' =>
      obtain rfl := Nat.cast_injective (hw.symm.trans hw')
      rfl
    | places _ _ hne => exact absurd hw (hne _)
  | places low high hne near =>
    cases ht with
    | scientific regime _ => rcases regime with regime | ⟨-, regime⟩ <;> linarith
    | whole _ hw => exact absurd hw (hne _)
    | places _ _ _ near' =>
      obtain rfl := near.unique near'
      rfl

section Fraction

variable {num den : ℕ}

theorem fractionLt_iff (hden : 0 < den) {n d : ℕ} (hd : 0 < d) :
    fractionLt (num, den) (n, d) ↔ (num / den : ℚ) < n / d := by
  have hden' : (0 : ℚ) < den := by exact_mod_cast hden
  have hd' : (0 : ℚ) < d := by exact_mod_cast hd
  rw [div_lt_div_iff₀ hden' hd', fractionLt, decide_eq_true_iff]
  exact_mod_cast Iff.rfl

theorem scientific_regime_iff (hden : 0 < den) :
    (plainCeiling * den ≤ num || (num != 0 && fractionLt (num, den) plainFloor)) ↔
      (10 ^ 8 ≤ (num / den : ℚ) ∨ 0 < (num / den : ℚ) ∧ (num / den : ℚ) < plainLimit) := by
  have hden' : (0 : ℚ) < den := by exact_mod_cast hden
  have hceiling : plainCeiling * den ≤ num ↔ (10 ^ 8 : ℚ) ≤ num / den := by
    rw [le_div_iff₀ hden']
    exact_mod_cast Iff.rfl
  have hzero : num ≠ 0 ↔ (0 : ℚ) < num / den := by
    rw [div_pos_iff_of_pos_right hden', Nat.cast_pos, Nat.pos_iff_ne_zero]
  have hfloor : 0 < plainFloor.2 := by
    rw [plainFloor_eq]
    decide
  rw [Bool.or_eq_true, Bool.and_eq_true, decide_eq_true_iff, bne_iff_ne, hceiling, hzero, fractionLt_iff hden hfloor]
  rfl

/-- The digits of a fraction show its value. -/
theorem exists_shown_digitsText (num : ℕ) (hden : 0 < den) : ∃ r, Shown (num / den) (digitsText num den) r := by
  have hden' : (0 : ℚ) < den := by exact_mod_cast hden
  have hregime := @scientific_regime_iff num den hden
  unfold digitsText
  split_ifs with h
  · have hw := hregime.1 h
    have hnum : 0 < num := by
      have hpos : (0 : ℚ) < num / den := by
        rcases hw with hw | hw
        · exact lt_of_lt_of_le (by norm_num) hw
        · exact hw.1
      rwa [div_pos_iff_of_pos_right hden', Nat.cast_pos] at hpos
    exact ⟨_, .scientific hw (isScientific_scientific hnum hden)⟩
  have hw := mt hregime.2 h
  push Not at hw
  unfold plainText
  split_ifs with hmod
  · have hvalue : (num / den : ℚ) = (num / den : ℕ) := by
      rw [div_eq_add_mod_div num hden, hmod, Nat.cast_zero, zero_div, add_zero]
    refine ⟨_, .whole ?_ hvalue⟩
    have := hw.1
    rw [hvalue] at this
    exact_mod_cast this
  · have hpos : (0 : ℚ) < num / den := by
      rw [div_pos_iff_of_pos_right hden', Nat.cast_pos, Nat.pos_iff_ne_zero]
      rintro rfl
      exact hmod (Nat.zero_mod den)
    have hplaces : placesOf (num / den) = significantDigits - (decimal (num / den)).length := by
      rw [placesOf, Rat.natFloor_natCast_div_natCast]
    have hne : ∀ n : ℕ, (num / den : ℚ) ≠ n := by
      intro n hn
      rw [div_eq_iff hden'.ne'] at hn
      have : num = n * den := by exact_mod_cast hn
      exact hmod (this ▸ Nat.mul_mod_left n den)
    have hnear := isNearest_divNearest (num * 10 ^ placesOf (num / den)) hden
    rw [Nat.cast_mul, Nat.cast_pow, mul_div_right_comm] at hnear
    have hshown := Shown.places (hw.2 hpos) hw.1 hne hnear
    have htext : trimZeros (fixedText (significantDigits - (decimal (num / den)).length) num den) =
        placesDigits (placesOf (num / den)) (divNearest (num * 10 ^ placesOf (num / den)) den) := by
      unfold fixedText placesDigits
      rw [← hplaces, if_neg (placesOf_pos hpos.le hw.1).ne']
      rfl
    exact ⟨_, htext ▸ hshown⟩

end Fraction

end Calculator
