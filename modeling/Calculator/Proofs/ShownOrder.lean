import Calculator.Proofs.CanonicalText
import Calculator.Proofs.ShownValue
import Mathlib.Algebra.Order.Archimedean.Basic

/-!
# The order of what is shown

What is shown of a greater double is no smaller. Between two powers of ten all numbers are rounded to the same unit, and
no number is rounded past a power of ten; so the ways of showing a number fit together.

* `gridExponent` : the unit to which the numbers from a power of ten on are rounded.
* `Shown.exists_grid`, `Shown.bounds` : a number is rounded to that unit, and stays between the powers of ten.
* `Shown.mono` : digits are in the order of the numbers.
* `toggleSign`, `text_neg` : the text of the opposite number.
* `text_keeps_order` : the texts of doubles are in their order.
-/

namespace Calculator

set_option autoImplicit false

open Calculator.Number
open Calculator.Text (decimal)

/-! ## Units -/

/-- Numbers with the exponent `e` are rounded to units with this exponent. -/
def gridExponent (e : ℤ) : ℤ := if 8 ≤ e ∨ e < -8 then e - 6 else max e 0 - 11

theorem gridExponent_le (e : ℤ) : gridExponent e ≤ e := by
  unfold gridExponent
  split_ifs <;> omega

section Shown

variable {w w' r r' : ℚ} {t t' : Text} {c : ℕ} {e : ℤ}

theorem lt_of_zpow_lt {i j : ℤ} (h : (10 : ℚ) ^ i < 10 ^ j) : i < j := (zpow_lt_zpow_iff_right₀ (by norm_num)).1 h

/-- Digits with an exponent are rounded to the unit of the exponent of the number. -/
theorem IsScientific.exists_grid (h : IsScientific w c e) {f : ℤ} (low : 10 ^ f ≤ w) (high : w < 10 ^ (f + 1)) :
    ∃ k : ℕ, IsNearest (w / 10 ^ (f - 6)) k ∧ (c * 10 ^ (e - 6) : ℚ) = k * 10 ^ (f - 6) := by
  cases h with
  | kept low' high' near hne =>
    obtain rfl := exponent_unique low' high' low high
    exact ⟨c, near, rfl⟩
  | carried low' high' near =>
    obtain rfl : e - 1 = f := exponent_unique low' (by rwa [sub_add_cancel]) low high
    refine ⟨10 ^ 7, near, ?_⟩
    rw [ten_zpow_pred]
    push_cast
    ring

theorem placesOf_eq (low : (10 : ℚ) ^ e ≤ w) (high : w < 10 ^ (e + 1)) (he : -8 ≤ e) (he' : e < 8) :
    (-placesOf w : ℤ) = max e 0 - 11 := by
  have hpos : 0 < w := lt_of_lt_of_le (by positivity) low
  rcases lt_or_ge e 0 with hneg | hnonneg
  · have hone : w < 1 := high.trans_le (zpow_le_one_of_nonpos₀ (by norm_num) (by omega))
    rw [placesOf_of_lt_one hone, max_eq_right hneg.le]
    rfl
  · obtain ⟨d, rfl⟩ := Int.eq_ofNat_of_zero_le hnonneg
    have hfloor : 10 ^ d ≤ ⌊w⌋₊ := Nat.le_floor (by exact_mod_cast low)
    have hfloor' : ⌊w⌋₊ < 10 ^ (d + 1) := (Nat.floor_lt hpos.le).2 (by exact_mod_cast high)
    obtain ⟨hlow, hhigh⟩ := decimal_bounds (lt_of_lt_of_le (by positivity) hfloor)
    have hle : d < (decimal ⌊w⌋₊).length := (Nat.pow_lt_pow_iff_right (by decide)).1 (hfloor.trans_lt hhigh)
    have hge : (decimal ⌊w⌋₊).length - 1 < d + 1 := (Nat.pow_lt_pow_iff_right (by decide)).1 (hlow.trans_lt hfloor')
    have hlength : (decimal ⌊w⌋₊).length = d + 1 := by omega
    show (-((12 - (decimal ⌊w⌋₊).length : ℕ) : ℤ)) = _
    omega

/-- A number is rounded to the unit of its exponent. -/
theorem Shown.exists_grid (h : Shown w t r) (hw : IsDoubleValue w) (low : (10 : ℚ) ^ e ≤ w) (high : w < 10 ^ (e + 1)) :
    ∃ k : ℕ, IsNearest (w / 10 ^ gridExponent e) k ∧ r = k * 10 ^ gridExponent e := by
  have hlarge (hle : (10 : ℚ) ^ 8 ≤ w) : 8 ≤ e := by
    have := lt_of_zpow_lt (lt_of_le_of_lt (by exact_mod_cast hle : (10 : ℚ) ^ (8 : ℤ) ≤ w) high)
    omega
  have hplain (hlt : w < 10 ^ 8) : e < 8 := lt_of_zpow_lt (lt_of_le_of_lt low (by exact_mod_cast hlt))
  cases h with
  | scientific regime h =>
    have he : 8 ≤ e ∨ e < -8 := by
      rcases regime with hle | ⟨-, hsmall⟩
      · exact .inl (hlarge hle)
      · exact .inr (lt_of_zpow_lt (low.trans_lt (lt_of_lt_plainLimit hw hsmall)))
    rw [gridExponent, if_pos he]
    exact h.exists_grid low high
  | @whole n hn hwhole =>
    have he := hplain (by rw [hwhole]; exact_mod_cast hn)
    have hone : (1 : ℚ) ≤ n := by
      have hpos : (0 : ℚ) < n := hwhole ▸ lt_of_lt_of_le (by positivity) low
      exact_mod_cast Nat.cast_pos.1 hpos
    have hnonneg : 0 ≤ e := by
      have := lt_of_zpow_lt (lt_of_le_of_lt (by rwa [zpow_zero, hwhole] : (10 : ℚ) ^ (0 : ℤ) ≤ w) high)
      omega
    obtain ⟨d, hd⟩ : ∃ d : ℕ, max e 0 - 11 = -d := ⟨(11 - e).toNat, by omega⟩
    have hunit : (n : ℚ) = (n * 10 ^ d : ℕ) * 10 ^ (-d : ℤ) := by
      rw [zpow_neg, zpow_natCast, Nat.cast_mul, Nat.cast_pow, Nat.cast_ofNat, mul_inv_cancel_right₀ (by positivity)]
    rw [gridExponent, if_neg (by omega), hd, hwhole]
    refine ⟨n * 10 ^ d, IsNearest.of_lt ?_, hunit⟩
    conv_lhs => rw [hunit, mul_div_cancel_right₀ _ (by positivity : (10 : ℚ) ^ (-d : ℤ) ≠ 0), sub_self, abs_zero]
    norm_num
  | @places n low' high' hne near =>
    have hlow : -8 ≤ e := by
      have := lt_of_zpow_lt (plainLimit_bounds.1.trans_le low' |>.trans high)
      omega
    have he := hplain high'
    rw [gridExponent, if_neg (by omega), ← placesOf_eq low high hlow he]
    refine ⟨n, ?_, rfl⟩
    rwa [zpow_neg, zpow_natCast, div_inv_eq_mul]

theorem Shown.bounds (h : Shown w t r) (hw : IsDoubleValue w) (low : (10 : ℚ) ^ e ≤ w) (high : w < 10 ^ (e + 1)) :
    10 ^ e ≤ r ∧ r ≤ 10 ^ (e + 1) := by
  obtain ⟨k, hk, rfl⟩ := h.exists_grid hw low high
  have hunit : (0 : ℚ) < 10 ^ gridExponent e := by positivity
  obtain ⟨d, hd⟩ : ∃ d : ℕ, e = d + gridExponent e := ⟨(e - gridExponent e).toNat, by have := gridExponent_le e; omega⟩
  have hpow : (10 : ℚ) ^ e = (10 ^ d : ℕ) * 10 ^ gridExponent e := by
    conv_lhs => rw [hd]
    rw [zpow_add₀ (by norm_num), zpow_natCast, Nat.cast_pow, Nat.cast_ofNat]
  have hpow' : (10 : ℚ) ^ (e + 1) = (10 ^ (d + 1) : ℕ) * 10 ^ gridExponent e := by
    rw [zpow_add_one₀ (by norm_num), hpow]
    push_cast
    ring
  constructor
  · rw [hpow]
    gcongr
    refine hk.ge_of_ge ?_
    rwa [le_div_iff₀ hunit, ← hpow]
  · rw [hpow']
    gcongr
    refine hk.le_of_le ?_
    rw [div_le_iff₀ hunit, ← hpow']
    exact high.le

theorem Shown.mono (h : Shown w t r) (h' : Shown w' t' r') (hw : IsDoubleValue w) (hw' : IsDoubleValue w')
    (h0 : 0 ≤ w) (hle : w ≤ w') : r ≤ r' := by
  rcases h0.eq_or_lt with rfl | hpos
  · rw [h.eq_zero]
    exact h'.nonneg
  obtain ⟨e, low, high⟩ := exists_mem_Ico_zpow hpos (by norm_num : (1 : ℚ) < 10)
  obtain ⟨f, low', high'⟩ := exists_mem_Ico_zpow (hpos.trans_le hle) (by norm_num : (1 : ℚ) < 10)
  have hef := lt_of_zpow_lt (low.trans_lt (hle.trans_lt high'))
  rcases (Int.lt_add_one_iff.1 hef).eq_or_lt with rfl | hlt
  · obtain ⟨k, hk, rfl⟩ := h.exists_grid hw low high
    obtain ⟨k', hk', rfl⟩ := h'.exists_grid hw' low' high'
    have hkk := hk.mono hk' (by gcongr)
    gcongr
  · -- a power of ten lies between them
    calc r ≤ 10 ^ (e + 1) := (h.bounds hw low high).2
      _ ≤ 10 ^ f := zpow_le_zpow_right₀ (by norm_num) (by omega)
      _ ≤ r' := (h'.bounds hw' low' high').1

end Shown

/-! ## Signs -/

/-- The text without its minus, or behind one. -/
def toggleSign : Text → Text
  | '-' :: rest => rest
  | t => '-' :: t

theorem toggleSign_signText (u : Spelling) (negative : Bool) :
    toggleSign (signText negative u.text) = signText (!negative) u.text := by
  cases negative with
  | true => rfl
  | false =>
    obtain ⟨c, rest, htext, hc⟩ := u.exists_text_eq
    rw [signText, if_neg Bool.false_ne_true, htext]
    unfold toggleSign
    split
    · rename_i heq
      obtain ⟨rfl, -⟩ := List.cons.inj heq
      exact absurd hc (by decide)
    · rfl

section Doubles

variable {v w : Float} {a : Bool} {m : ℕ} {q : ℤ}

/-- The digits of the opposite number are the same. -/
theorem text_neg (h : Binary.ofFloat v = .finite a m q) (hm : m ≠ 0) :
    Display.text (-v) = toggleSign (Display.text v) := by
  have hneg : Binary.ofFloat (-v) = .finite (!a) m q := by
    rw [ofFloat_neg, h]
    rfl
  have hne : (m != 0) = true := bne_iff_ne.2 hm
  obtain ⟨x, r, hshown, -⟩ := exists_shown (isDouble_of_finite h)
  obtain ⟨u, hu, -⟩ := hshown.spells
  rw [text_eq hneg, text_eq h, ← hu, toggleSign_signText, hne, Bool.and_true, Bool.and_true]

/-- **What is shown keeps the order of doubles**: that of a greater double is no smaller, and that of the opposite one
is the same with the other sign. -/
theorem text_keeps_order (hv : v.isFinite) (hw : w.isFinite) :
    (v ≤ w → ∃ D D', writtenDecimal? (Display.text v) = some D ∧ writtenDecimal? (Display.text w) = some D' ∧ D ≤ D') ∧
      (¬v == 0.0 → Display.text (-v) = toggleSign (Display.text v)) := by
  obtain ⟨a, m, q, hvparts⟩ := isFinite_iff.1 hv
  obtain ⟨b, n, p, hwparts⟩ := isFinite_iff.1 hw
  refine ⟨fun hle => ?_, fun hne => text_neg hvparts (mt (float_beq_zero_iff hvparts).2 hne)⟩
  obtain ⟨x, s, r, hx, hxdouble, hxshown, -, hvwritten⟩ := exists_shownValue hvparts
  obtain ⟨y, t, r', hy, hydouble, hyshown, -, hwwritten⟩ := exists_shownValue hwparts
  have hvalue := (float_le_iff.1 hle).2.2
  rw [exactValue_of_parts hvparts, exactValue_of_parts hwparts] at hvalue
  refine ⟨_, _, hvwritten, hwwritten, signed_le_signed hvalue (by positivity) (by positivity) hxshown.nonneg
    hyshown.nonneg (fun h => ?_) (fun h => ?_) (fun h => ?_) (fun h => ?_)⟩
  · exact hxshown.mono hyshown hxdouble hydouble (taken_nonneg hx (by positivity)) (taken_mono hx hy h)
  · exact hyshown.mono hxshown hydouble hxdouble (taken_nonneg hy (by positivity)) (taken_mono hy hx h)
  · rw [h] at hx
    obtain rfl := taken_zero hx
    exact hxshown.eq_zero
  · rw [h] at hy
    obtain rfl := taken_zero hy
    exact hyshown.eq_zero

/-- Below and at the first number with an exponent. -/
theorem text_keeps_order_ceiling : (99999999.99995 : Float).isFinite ∧ (100000000.0 : Float).isFinite ∧
    (99999999.99995 : Float) ≤ 100000000.0 ∧ (∃ D D', writtenDecimal? (Display.text 99999999.99995) = some D ∧
      writtenDecimal? (Display.text 100000000.0) = some D' ∧ D ≤ D') ∧
    Display.text (-99999999.99995) = toggleSign (Display.text 99999999.99995) := by
  have hbelow : (99999999.99995 : Float).isFinite := by decide +kernel
  have hceiling : (100000000.0 : Float).isFinite := by decide +kernel
  have hle : (99999999.99995 : Float) ≤ 100000000.0 := by decide +kernel
  obtain ⟨horder, hneg⟩ := text_keeps_order hbelow hceiling
  exact ⟨hbelow, hceiling, hle, horder hle, hneg (by decide +kernel)⟩

end Doubles

end Calculator
