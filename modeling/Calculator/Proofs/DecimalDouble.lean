import Calculator.Number.Numeral
import Calculator.Proofs.NearestDouble

/-!
# The double of a decimal number

* `rounds_mul`, `rounds_div` : products and quotients are the doubles nearest to the exact ones.
* `rounds_ofScientific_neg`, `rounds_ofScientific_nonneg` : so are decimal numbers, whichever way they are computed.
* `rounds_toFloat` : a numeral stands for the double nearest to it.
-/

namespace Calculator.Number

set_option autoImplicit false

open Float.Model (UnpackedFloat totalExponent)
open Float.Model.Format (binary64)
open Float.Model.UnpackedFloat (Sign Accuracy accuracyOfFraction)
open Binary (ofUnpacked)

/-! ## Products and quotients -/

section Operations

variable {m n : ℕ} {q p : ℤ}

theorem isMinus_mul (s t : Sign) : isMinus (s * t) = (isMinus s != isMinus t) := by cases s <;> cases t <;> rfl

theorem isMinus_div (s t : Sign) : isMinus (s / t) = (isMinus s != isMinus t) := by cases s <;> cases t <;> rfl

/-- A mantissa of 53 digits or more has no digit to spare. -/
theorem le_target_of_full (h : 2 ^ 52 ≤ m) : q ≤ target m q := by
  have : 52 ≤ m.log2 := (Nat.le_log2 (by omega)).2 h
  unfold target
  omega

theorem le_target_of_least (h : q ≤ -1074) : q ≤ target m q := h.trans (le_max_right _ _)

/-- The product of the mantissas of doubles has no digit to spare. -/
theorem le_target_mul (h : IsDouble m q) (h' : IsDouble n p) (hm : 0 < m) (hn : 0 < n) :
    q + p ≤ target (m * n) (q + p) := by
  rcases h.full with hfull | rfl
  · exact le_target_of_full (hfull.trans (Nat.le_mul_of_pos_right m hn))
  rcases h'.full with hfull | rfl
  · exact le_target_of_full (hfull.trans (Nat.le_mul_of_pos_left n hm))
  · exact le_target_of_least (by decide)

theorem rounds_roundWithAccuracy (s : Sign) {acc : Accuracy} {x : ℚ} (hx : Describes (.ofMantissaAndAccuracy m acc) x)
    (hq : q ≤ target m q) :
    Rounds (ofUnpacked (UnpackedFloat.roundWithAccuracy binary64 s m q acc)) (isMinus s) (x * 2 ^ q) :=
  let ⟨k, hk, h⟩ := ofUnpacked_roundWithAccuracy s hx hq
  ⟨k, _, hk, h⟩

theorem rounds_mul (s t : Sign) (hm : 0 < m) (hn : 0 < n) (h : q + p ≤ target (m * n) (q + p)) :
    Rounds (ofUnpacked (.mul binary64 (.finite s m q hm) (.finite t n p hn))) (isMinus s != isMinus t)
      (m * 2 ^ q * (n * 2 ^ p)) := by
  have hvalue : (m * 2 ^ q * (n * 2 ^ p) : ℚ) = (m * n : ℕ) * 2 ^ (q + p) := by
    rw [zpow_add₀ two_ne_zero]
    push_cast
    ring
  rw [hvalue, ← isMinus_mul]
  exact rounds_roundWithAccuracy (s * t) rfl h

/-- A fraction of a unit compares with a half as the bits say. -/
theorem describes_accuracyOfFraction (m : ℕ) (hn : 0 < n) :
    Describes (.ofMantissaAndAccuracy (m / n) (accuracyOfFraction (m % n) n)) (m / n) := by
  have hn' : (0 : ℚ) < n := by exact_mod_cast hn
  have hlt : (m % n : ℕ) < (n : ℚ) := by exact_mod_cast Nat.mod_lt m hn
  rw [div_eq_add_mod_div m hn]
  unfold accuracyOfFraction
  split_ifs with hzero
  · rw [hzero, Nat.cast_zero, zero_div, add_zero]
    rfl
  have hpos : (0 : ℚ) < (m % n : ℕ) / n := by
    have : (0 : ℚ) < (m % n : ℕ) := by exact_mod_cast Nat.pos_of_ne_zero hzero
    positivity
  cases hcmp : compare (2 * (m % n)) n with
  | lt =>
    have hhalf : ((m % n : ℕ) : ℚ) / n < 1 / 2 := by
      have : (2 : ℚ) * (m % n : ℕ) < n := by exact_mod_cast Nat.compare_eq_lt.1 hcmp
      rw [div_lt_iff₀ hn']
      linarith
    exact ⟨lt_add_of_pos_right _ hpos, add_lt_add_right hhalf _⟩
  | eq =>
    have hhalf : ((m % n : ℕ) : ℚ) / n = 1 / 2 := by
      have : (2 : ℚ) * (m % n : ℕ) = n := by exact_mod_cast Nat.compare_eq_eq.1 hcmp
      rw [div_eq_iff hn'.ne']
      linarith
    exact congrArg _ hhalf
  | gt =>
    have hhalf : 1 / 2 < ((m % n : ℕ) : ℚ) / n := by
      have : (n : ℚ) < 2 * (m % n : ℕ) := by exact_mod_cast Nat.compare_eq_gt.1 hcmp
      rw [lt_div_iff₀ hn']
      linarith
    exact ⟨add_lt_add_right hhalf _, add_lt_add_right ((div_lt_one hn').2 hlt) _⟩

/-- The quotient of mantissas is shifted far enough to have 53 digits. -/
theorem le_target_of_div {t : ℤ} (hm : 0 < m) (hn : 0 < n) (ht : t ≤ q - p)
    (h : t ≤ max ((m.log2 + 1 + q) - (n.log2 + 1 + p) - 53 : ℤ) (-1074)) :
    t ≤ target (m * 2 ^ (q - p - t).toNat / n) t := by
  rcases le_or_gt t (-1074) with hleast | hleast
  · exact le_target_of_least hleast
  refine le_target_of_full ?_
  rw [Nat.le_div_iff_mul_le hn]
  have hshift : 53 + n.log2 ≤ m.log2 + (q - p - t).toNat := by omega
  have hlow : 2 ^ m.log2 ≤ m := Nat.log2_self_le hm.ne'
  have hhigh : n < 2 ^ (n.log2 + 1) := Nat.lt_log2_self
  calc 2 ^ 52 * n ≤ 2 ^ 52 * 2 ^ (n.log2 + 1) := by gcongr
    _ = 2 ^ (53 + n.log2) := by ring
    _ ≤ 2 ^ (m.log2 + (q - p - t).toNat) := Nat.pow_le_pow_right (by decide) hshift
    _ = 2 ^ m.log2 * 2 ^ (q - p - t).toNat := pow_add ..
    _ ≤ m * 2 ^ (q - p - t).toNat := by gcongr

theorem rounds_div (s t : Sign) (hm : 0 < m) (hn : 0 < n) :
    Rounds (ofUnpacked (.div binary64 (.finite s m q hm) (.finite t n p hn))) (isMinus s != isMinus t)
      (m * 2 ^ q / (n * 2 ^ p)) := by
  set e := min (q - p) (binary64.targetExponent (totalExponent m q - totalExponent n p)) with he
  have hle : e ≤ max ((m.log2 + 1 + q) - (n.log2 + 1 + p) - 53 : ℤ) (-1074) := min_le_right _ _
  have hvalue : (m * 2 ^ q / (n * 2 ^ p) : ℚ) = (m * 2 ^ (q - p - e).toNat : ℕ) / n * 2 ^ e := by
    have hpow : ((2 ^ (q - p - e).toNat : ℕ) : ℚ) = 2 ^ (q - p - e) := by
      rw [Nat.cast_pow, ← zpow_natCast, Int.toNat_of_nonneg (by omega)]
      rfl
    rw [Nat.cast_mul, hpow, zpow_sub₀ two_ne_zero, zpow_sub₀ two_ne_zero]
    field_simp
  rw [hvalue, ← isMinus_div]
  have hround := rounds_roundWithAccuracy (s / t) (describes_accuracyOfFraction (m * 2 ^ (q - p - e).toNat) hn)
    (le_target_of_div hm hn (min_le_left _ _) hle)
  rw [← Nat.shiftLeft_eq] at hround ⊢
  exact hround

end Operations

/-! ## Whole numbers and powers of ten -/

theorem rounds_ofNat {n : ℕ} (hn : 0 < n) : Rounds (ofUnpacked (.ofNat binary64 n)) false n := by
  set d := (0 - target n 0).toNat with hd
  have hround : UnpackedFloat.ofNat binary64 n = .roundWithAccuracy binary64 .positive (n * 2 ^ d) (0 - d) .exact := by
    show UnpackedFloat.normalize binary64 (n : ℤ) 0 .positive = _
    rw [UnpackedFloat.normalize, Int.compare_eq_gt.2 (by omega), ← Nat.shiftLeft_eq, hd, ← targetExponent_eq]
    rfl
  have hfull : 2 ^ 52 ≤ n * 2 ^ d := by
    have hdigits : 52 ≤ n.log2 + d := by
      unfold target at hd
      omega
    calc 2 ^ 52 ≤ 2 ^ (n.log2 + d) := Nat.pow_le_pow_right (by decide) hdigits
      _ = 2 ^ n.log2 * 2 ^ d := pow_add ..
      _ ≤ n * 2 ^ d := Nat.mul_le_mul_right _ (Nat.log2_self_le hn.ne')
  have hvalue : (n : ℚ) = (n * 2 ^ d : ℕ) * 2 ^ (0 - d : ℤ) := by
    rw [zero_sub, zpow_neg, zpow_natCast]
    push_cast
    field_simp
  rw [hround, hvalue]
  exact rounds_roundWithAccuracy .positive rfl (le_target_of_full hfull)

theorem natCast_le_maxDouble {n : ℕ} (hn : n < 2 ^ 53) : (n : ℚ) ≤ maxDouble := by
  have hone : (1 : ℚ) ≤ 2 ^ (971 : ℤ) := one_le_zpow₀ (by norm_num) (by decide)
  have hn' : (n : ℚ) + 1 ≤ 2 ^ 53 := by exact_mod_cast hn
  calc (n : ℚ) ≤ (2 ^ 53 - 1) * 1 := by linarith
    _ ≤ (2 ^ 53 - 1) * 2 ^ (971 : ℤ) := mul_le_mul_of_nonneg_left hone (by norm_num)

theorem ofFloat_toUInt64 {n : ℕ} (hn : n < 2 ^ 53) :
    ∃ m q, Binary.ofFloat n.toUInt64.toFloat = .finite false m q ∧ (m * 2 ^ q : ℚ) = n := by
  rcases Nat.eq_zero_or_pos n with rfl | hpos
  · exact ⟨0, -1074, rfl, by simp⟩
  have hn' : n.toUInt64.toNat = n := by
    rw [Nat.toUInt64_eq, UInt64.toNat_ofNat', Nat.mod_eq_of_lt (by omega)]
  obtain ⟨k, q, hk, hparts⟩ := ofFloat_pack_of_rounds (rounds_ofNat hpos) (natCast_le_maxDouble hn)
  obtain ⟨m, p, hmp, hvalue⟩ := roundedParts_eq false k q
  refine ⟨m, p, ?_, ?_⟩
  · show Binary.ofFloat (.ofModel (.pack (.ofNat binary64 n.toUInt64.toNat))) = _
    rw [hn', hparts, hmp]
  · rw [hvalue]
    exact hk.eq_of_isDoubleValue ⟨n, 0, hn, by decide, by rw [zpow_zero, mul_one]⟩

theorem value_eq_div (m : ℕ) (q : ℤ) : (m * 2 ^ q : ℚ) = numerator m q / denominator q := by
  unfold numerator denominator
  rcases le_total 0 q with hq | hq
  · have hneg : (-q).toNat = 0 := by omega
    rw [hneg, Nat.pow_eq, Nat.pow_eq, pow_zero, Nat.cast_one, div_one, Nat.cast_mul, Nat.cast_pow, ← zpow_natCast,
      Int.toNat_of_nonneg hq]
    rfl
  · have hpos : q.toNat = 0 := by omega
    rw [hpos, Nat.pow_eq, Nat.pow_eq, pow_zero, mul_one, Nat.cast_pow, ← zpow_natCast,
      Int.toNat_of_nonneg (by omega), zpow_neg, div_inv_eq_mul]
    rfl

/-- The double writes the power of ten exactly. -/
def IsPowerOfTen (x : Float) (e : ℕ) : Bool :=
  match Binary.ofFloat x with
  | .finite false m q => numerator m q = 10 ^ e * denominator q
  | _ => false

theorem isPowerOfTen_table : ∀ i : Fin 23, IsPowerOfTen Float.exactlyRepresentablePowersOfTen[i.1] i := by
  decide +kernel

theorem ofFloat_powerOfTen {x : Float} {e : ℕ} (h : IsPowerOfTen x e) :
    ∃ m q, Binary.ofFloat x = .finite false m q ∧ (m * 2 ^ q : ℚ) = 10 ^ e := by
  unfold IsPowerOfTen at h
  split at h
  · rename_i m q hfinite
    refine ⟨m, q, hfinite, ?_⟩
    have hden : (denominator q : ℚ) ≠ 0 := by exact_mod_cast (denominator_pos q).ne'
    rw [value_eq_div, div_eq_iff hden]
    exact_mod_cast of_decide_eq_true h
  · cases h

/-! ## Doubles -/

section Doubles

variable {x y : Float} {a b : Bool} {m n : ℕ} {q p : ℤ}

theorem unpack_of_finite (h : Binary.ofFloat x = .finite a m q) (hm : 0 < m) :
    ∃ s, isMinus s = a ∧ x.toModel.unpack = .finite s m q hm := by
  rw [ofFloat_eq_ofUnpacked] at h
  cases hx : x.toModel.unpack with
  | finite s m' q' hm' =>
    rw [hx] at h
    obtain ⟨rfl, rfl, rfl⟩ := Binary.finite.inj h
    exact ⟨s, rfl, rfl⟩
  | zero s =>
    rw [hx] at h
    obtain ⟨-, rfl, -⟩ := Binary.finite.inj h
    exact absurd hm (lt_irrefl 0)
  | _ =>
    rw [hx] at h
    cases h

theorem unpack_of_zero (h : Binary.ofFloat x = .finite a 0 q) : ∃ s, isMinus s = a ∧ x.toModel.unpack = .zero s := by
  rw [ofFloat_eq_ofUnpacked] at h
  cases hx : x.toModel.unpack with
  | finite s m' q' hm' =>
    rw [hx] at h
    obtain ⟨-, rfl, -⟩ := Binary.finite.inj h
    exact absurd hm' (lt_irrefl 0)
  | zero s =>
    rw [hx] at h
    exact ⟨s, (Binary.finite.inj h).1, rfl⟩
  | _ =>
    rw [hx] at h
    cases h

theorem rounds_zero (negative : Bool) : Rounds (.finite negative 0 (-1074)) negative 0 :=
  ⟨0, -1074, ⟨le_rfl, .inr rfl, by positivity, by simpa using IsNearest.of_lt (n := 0) (x := 0) (by norm_num)⟩, rfl⟩

theorem rounds_float_mul (hx : Binary.ofFloat x = .finite a m q) (hy : Binary.ofFloat y = .finite b n p)
    (hn : 0 < n) (h : m * 2 ^ q * (n * 2 ^ p) ≤ maxDouble) :
    Rounds (Binary.ofFloat (x * y)) (a != b) (m * 2 ^ q * (n * 2 ^ p)) := by
  obtain ⟨t, rfl, ht⟩ := unpack_of_finite hy hn
  show Rounds (Binary.ofFloat (.ofModel (.pack (.mul binary64 x.toModel.unpack y.toModel.unpack)))) _ _
  rw [ht]
  rcases Nat.eq_zero_or_pos m with rfl | hm
  · obtain ⟨s, rfl, hs⟩ := unpack_of_zero hx
    rw [hs, Nat.cast_zero, zero_mul, zero_mul, ← isMinus_mul]
    exact ofFloat_pack_of_rounds (rounds_zero _) (by simpa using natCast_le_maxDouble (n := 0) (by decide))
  · obtain ⟨s, rfl, hs⟩ := unpack_of_finite hx hm
    have hdx := isDouble_of_finite hx
    have hdy := isDouble_of_finite hy
    rw [hs]
    exact ofFloat_pack_of_rounds (rounds_mul s t hm hn (le_target_mul hdx hdy hm hn)) h

theorem rounds_float_div (hx : Binary.ofFloat x = .finite a m q) (hy : Binary.ofFloat y = .finite b n p)
    (hn : 0 < n) (h : m * 2 ^ q / (n * 2 ^ p) ≤ maxDouble) :
    Rounds (Binary.ofFloat (x / y)) (a != b) (m * 2 ^ q / (n * 2 ^ p)) := by
  obtain ⟨t, rfl, ht⟩ := unpack_of_finite hy hn
  show Rounds (Binary.ofFloat (.ofModel (.pack (.div binary64 x.toModel.unpack y.toModel.unpack)))) _ _
  rw [ht]
  rcases Nat.eq_zero_or_pos m with rfl | hm
  · obtain ⟨s, rfl, hs⟩ := unpack_of_zero hx
    rw [hs, Nat.cast_zero, zero_mul, zero_div, ← isMinus_div]
    exact ofFloat_pack_of_rounds (rounds_zero _) (by simpa using natCast_le_maxDouble (n := 0) (by decide))
  · obtain ⟨s, rfl, hs⟩ := unpack_of_finite hx hm
    rw [hs]
    exact ofFloat_pack_of_rounds (rounds_div s t hm hn) h

end Doubles

/-! ## Decimal numbers -/

section Decimal

variable {m e : ℕ}

theorem exists_powerOfTen (he : e < Float.exactlyRepresentablePowersOfTen.size) :
    ∃ n p, Binary.ofFloat Float.exactlyRepresentablePowersOfTen[e] = .finite false n p ∧ 0 < n ∧
      (n * 2 ^ p : ℚ) = 10 ^ e := by
  obtain ⟨n, p, hfinite, hvalue⟩ := ofFloat_powerOfTen (isPowerOfTen_table ⟨e, he⟩)
  refine ⟨n, p, hfinite, Nat.pos_of_ne_zero ?_, hvalue⟩
  rintro rfl
  rw [Nat.cast_zero, zero_mul] at hvalue
  exact absurd hvalue.symm (by positivity)

theorem maxDouble_lt : maxDouble < 2 ^ (1024 : ℤ) := by
  have hsplit : (2 : ℚ) ^ (1024 : ℤ) = 2 ^ 53 * 2 ^ (971 : ℤ) := by
    rw [← zpow_natCast (2 : ℚ) 53, ← zpow_add₀ two_ne_zero]
    rfl
  rw [hsplit, maxDouble]
  exact mul_lt_mul_of_pos_right (by norm_num) (by positivity)

theorem rounds_tiny {r : ℚ} (h0 : 0 ≤ r) (h : r < 2 ^ (-1075 : ℤ)) (negative : Bool) :
    Rounds (.finite negative 0 (-1074)) negative r := by
  have hpos : (0 : ℚ) < 2 ^ (-1074 : ℤ) := by positivity
  have hhalf : (2 : ℚ) ^ (-1075 : ℤ) = 1 / 2 * 2 ^ (-1074 : ℤ) := by
    rw [show (-1075 : ℤ) = -1074 - 1 by norm_num, zpow_sub_one₀ two_ne_zero]
    ring
  have hlt : r / 2 ^ (-1074 : ℤ) < 1 / 2 := by rwa [div_lt_iff₀ hpos, ← hhalf]
  refine ⟨0, -1074, ⟨le_rfl, .inr rfl, ?_, IsNearest.of_lt ?_⟩, rfl⟩
  · rw [hhalf] at h
    exact h.trans (mul_lt_mul_of_pos_right (by norm_num) hpos)
  · rwa [Nat.cast_zero, sub_zero, abs_of_nonneg (by positivity)]

theorem ten_pow_le_two_pow {k : ℤ} (hk : k ≤ 0) : (10 : ℚ) ^ k ≤ 2 ^ k := by
  obtain ⟨n, rfl⟩ := Int.exists_eq_neg_ofNat hk
  rw [zpow_neg, zpow_neg, zpow_natCast, zpow_natCast]
  gcongr
  norm_num

theorem maxDouble_lt_decimal {e : ℤ} (hm : m ≠ 0) (he : 1024 ≤ e) : maxDouble < m * 10 ^ e := by
  have hone : (1 : ℚ) ≤ m := by exact_mod_cast Nat.pos_of_ne_zero hm
  calc maxDouble < (2 : ℚ) ^ (1024 : ℤ) := maxDouble_lt
    _ ≤ 2 ^ e := zpow_le_zpow_right₀ (by norm_num) he
    _ ≤ 10 ^ e := zpow_le_zpow_left₀ (by omega) (by norm_num) (by norm_num)
    _ ≤ m * 10 ^ e := le_mul_of_one_le_left (by positivity) hone

theorem decimal_lt_least {e : ℤ} (he : e + m.log2 + 1 ≤ -1075) : (m * 10 ^ e : ℚ) < 2 ^ (-1075 : ℤ) := by
  have hlog : (m : ℚ) < 2 ^ (m.log2 + 1) := by exact_mod_cast Nat.lt_log2_self
  calc (m * 10 ^ e : ℚ) < 2 ^ (m.log2 + 1) * 10 ^ e := by gcongr
    _ ≤ 2 ^ (m.log2 + 1) * 2 ^ e := by
      gcongr
      exact ten_pow_le_two_pow (by omega)
    _ = 2 ^ (e + m.log2 + 1) := by
      rw [add_assoc, zpow_add₀ two_ne_zero, mul_comm]
      rfl
    _ ≤ 2 ^ (-1075 : ℤ) := zpow_le_zpow_right₀ (by norm_num) he

theorem rounds_unpacked_ofScientific (m : ℕ) (e : ℤ) (h : (m * 10 ^ e : ℚ) ≤ maxDouble) :
    Rounds (ofUnpacked (.ofScientific binary64 m e)) false (m * 10 ^ e) := by
  unfold UnpackedFloat.ofScientific
  by_cases hm : m = 0
  · rw [dif_pos hm, hm, Nat.cast_zero, zero_mul]
    exact rounds_zero false
  rw [dif_neg hm]
  by_cases hhigh : e > 2 ^ binary64.exponentBits
  · change e > 2 ^ 11 at hhigh
    exact absurd h (not_le.2 (maxDouble_lt_decimal hm (by omega)))
  rw [if_neg hhigh]
  by_cases hlow : e < -(2 ^ binary64.exponentBits + m.log2 : ℤ)
  · rw [if_pos hlow]
    change e < -((2 : ℤ) ^ 11 + m.log2) at hlow
    exact rounds_tiny (by positivity) (decimal_lt_least (by omega)) _
  rw [if_neg hlow]
  by_cases he : 0 ≤ e
  · rw [if_pos he]
    have hfull : 2 ^ 52 ≤ m <<< 53 * 10 ^ e.toNat := by
      rw [Nat.shiftLeft_eq]
      have hone : 1 ≤ m * 10 ^ e.toNat := Nat.mul_pos (Nat.pos_of_ne_zero hm) (by positivity)
      calc 2 ^ 52 ≤ 2 ^ 53 * 1 := by norm_num
        _ ≤ 2 ^ 53 * (m * 10 ^ e.toNat) := Nat.mul_le_mul_left _ hone
        _ = m * 2 ^ 53 * 10 ^ e.toNat := by ring
    have hvalue : (m * 10 ^ e : ℚ) = (m <<< 53 : ℕ) * 2 ^ (-53 : ℤ) * ((10 ^ e.toNat : ℕ) * 2 ^ (0 : ℤ)) := by
      have hpow : ((10 ^ e.toNat : ℕ) : ℚ) = 10 ^ e := by
        rw [Nat.cast_pow, ← zpow_natCast, Int.toNat_of_nonneg he]
        rfl
      have hunit : ((2 ^ 53 : ℕ) : ℚ) * 2 ^ (-53 : ℤ) = 1 := by norm_num
      rw [hpow, Nat.shiftLeft_eq, Nat.cast_mul, mul_assoc (m : ℚ), hunit, mul_one, zpow_zero, mul_one]
    rw [hvalue]
    exact rounds_mul .positive .positive _ _ (le_target_of_full hfull)
  · rw [if_neg he]
    have hvalue : (m * 10 ^ e : ℚ) = m * 2 ^ (0 : ℤ) / ((10 ^ (-e).toNat : ℕ) * 2 ^ (0 : ℤ)) := by
      rw [Nat.cast_pow, Nat.cast_ofNat, ← zpow_natCast (10 : ℚ), Int.toNat_of_nonneg (by omega), zpow_neg, zpow_zero,
        mul_one, mul_one, div_inv_eq_mul]
    rw [hvalue]
    exact rounds_div .positive .positive _ _

theorem rounds_ofScientific_neg (h : (m * 10 ^ (-e : ℤ) : ℚ) ≤ maxDouble) :
    Rounds (Binary.ofFloat (Float.ofScientific m true e)) false (m * 10 ^ (-e : ℤ)) := by
  unfold Float.ofScientific
  split
  · rename_i hsmall
    obtain ⟨k, q, hk, hkm⟩ := ofFloat_toUInt64 hsmall.1
    obtain ⟨n, p, hn, hpos, hne⟩ := exists_powerOfTen (Nat.lt_succ_of_le hsmall.2)
    rw [zpow_neg, zpow_natCast, ← div_eq_mul_inv, ← hkm, ← hne] at h ⊢
    exact rounds_float_div hk hn hpos h
  · show Rounds (Binary.ofFloat (.ofModel (.pack (.ofScientific binary64 m (Int.negOfNat e))))) _ _
    rw [Int.negOfNat_eq]
    exact ofFloat_pack_of_rounds (rounds_unpacked_ofScientific m _ h) h

theorem rounds_ofScientific_nonneg (h : (m * 10 ^ (e : ℤ) : ℚ) ≤ maxDouble) :
    Rounds (Binary.ofFloat (Float.ofScientific m false e)) false (m * 10 ^ (e : ℤ)) := by
  unfold Float.ofScientific
  split
  · rename_i hsmall
    obtain ⟨k, q, hk, hkm⟩ := ofFloat_toUInt64 hsmall.1
    obtain ⟨n, p, hn, hpos, hne⟩ := exists_powerOfTen (Nat.lt_succ_of_le hsmall.2)
    rw [zpow_natCast, ← hkm, ← hne] at h ⊢
    exact rounds_float_mul hk hn hpos h
  · exact ofFloat_pack_of_rounds (rounds_unpacked_ofScientific m _ h) h

theorem rounds_float_ofNat (h : (m : ℚ) ≤ maxDouble) : Rounds (Binary.ofFloat (Float.ofNat m)) false m := by
  have hvalue : (m * 10 ^ ((0 : ℕ) : ℤ) : ℚ) = m := by rw [Nat.cast_zero, zpow_zero, mul_one]
  have hrounds := rounds_ofScientific_nonneg (m := m) (e := 0) (hvalue.trans_le h)
  rwa [hvalue] at hrounds

end Decimal

/-! ## Numerals -/

theorem Rounds.opposite {b : Binary} {negative : Bool} {r : ℚ} (h : Rounds b negative r) :
    Rounds b.opposite (!negative) r := by
  obtain ⟨k, q, hk, rfl⟩ := h
  refine ⟨k, q, hk, ?_⟩
  unfold roundedParts
  split <;> rfl

/-- A numeral stands for the double nearest to it. -/
theorem rounds_toFloat (negative : Bool) (d : ℕ) (e : ℤ) (h : (d * 10 ^ e : ℚ) ≤ maxDouble) :
    Rounds (Binary.ofFloat (Numeral.decimal negative d e).toFloat) negative (d * 10 ^ e) := by
  set x := if e < 0 then Float.ofScientific d true e.natAbs else Float.ofScientific d false e.natAbs with hx
  have hrounds : Rounds (Binary.ofFloat x) false (d * 10 ^ e) := by
    rcases lt_or_ge e 0 with he | he
    · obtain ⟨n, rfl⟩ := Int.exists_eq_neg_ofNat he.le
      rw [hx, if_pos he, Int.natAbs_neg, Int.natAbs_natCast]
      exact rounds_ofScientific_neg h
    · obtain ⟨n, rfl⟩ := Int.eq_ofNat_of_zero_le he
      rw [hx, if_neg he.not_gt, Int.natAbs_natCast]
      exact rounds_ofScientific_nonneg h
  cases negative with
  | false => exact hrounds
  | true =>
    show Rounds (Binary.ofFloat (-x)) _ _
    rw [ofFloat_neg]
    exact hrounds.opposite

end Calculator.Number
