import Calculator.Proofs.LiteralValue
import Calculator.Proofs.ShortestDecimal

/-!
# The order of doubles

* `exactValue` : the value of a double as a fraction, infinity the power of two behind the greatest double.
* `IsDouble.lt_exponent`, `IsDouble.exponent_lt` : the size of a double and its exponent.
* `compare_parts`, `compare_eq` : the logic compares doubles as their values.
* `float_le_iff`, `float_lt_iff` : the order of doubles is that of their values, and no order without a number.
-/

namespace Calculator.Number

set_option autoImplicit false

open Float.Model (UnpackedFloat)
open Float.Model.Format (binary64)
open Float.Model.UnpackedFloat (Sign decreaseExponent)
open Binary (ofUnpacked)

/-! ## Values -/

/-- A magnitude with its sign. -/
def signed (negative : Bool) (w : ℚ) : ℚ := if negative then -w else w

@[irreducible] def infinityValue : ℚ := 2 ^ (1024 : ℤ)

/-- The value of a double. Infinity counts as the first number that is too large, no number as zero. -/
def Binary.value : Binary → ℚ
  | nan => 0
  | infinite negative => signed negative infinityValue
  | finite negative m q => signed negative (m * 2 ^ q)

def exactValue (x : Float) : ℚ := (Binary.ofFloat x).value

section Signed

variable {w v : ℚ}

@[simp] theorem signed_false (w : ℚ) : signed false w = w := rfl

@[simp] theorem signed_true (w : ℚ) : signed true w = -w := rfl

theorem abs_signed (negative : Bool) (hw : 0 ≤ w) : |signed negative w| = w := by
  cases negative
  · exact abs_of_nonneg hw
  · exact (abs_neg w).trans (abs_of_nonneg hw)

theorem signed_zero (negative : Bool) : signed negative 0 = 0 := by
  cases negative
  · rfl
  · exact neg_zero

theorem signed_not (negative : Bool) (w : ℚ) : signed (!negative) w = -signed negative w := by
  cases negative
  · rfl
  · exact (neg_neg w).symm

theorem signed_mul (a b : Bool) (w v : ℚ) : signed (a != b) (w * v) = signed a w * signed b v := by
  cases a <;> cases b <;> simp

theorem signed_div (a b : Bool) (w v : ℚ) : signed (a != b) (w / v) = signed a w / signed b v := by
  cases a <;> cases b <;> simp [neg_div, div_neg]

/-- What keeps the order of magnitudes, and zero, keeps the order of numbers with their signs. -/
theorem signed_le_signed {w' v' : ℚ} {a b : Bool} (h : signed a w ≤ signed b v) (hw : 0 ≤ w) (hv : 0 ≤ v)
    (hw' : 0 ≤ w') (hv' : 0 ≤ v') (hle : w ≤ v → w' ≤ v') (hge : v ≤ w → v' ≤ w') (hwzero : w = 0 → w' = 0)
    (hvzero : v = 0 → v' = 0) : signed a w' ≤ signed b v' := by
  cases a <;> cases b
  · exact hle h
  · -- both numbers are zero
    simp only [signed_true, signed_false] at h ⊢
    rw [hwzero (by linarith), hvzero (by linarith), neg_zero]
  · exact (neg_nonpos.2 hw').trans hv'
  · exact neg_le_neg (hge (neg_le_neg_iff.1 h))

end Signed

theorem value_pos {m : ℕ} (hm : 0 < m) (q : ℤ) : (0 : ℚ) < m * 2 ^ q := by positivity

theorem infinityValue_pos : 0 < infinityValue := by
  rw [infinityValue]
  positivity

theorem value_lt_infinityValue {m : ℕ} {q : ℤ} (h : IsDouble m q) : (m * 2 ^ q : ℚ) < infinityValue :=
  (value_le_maxDouble h).trans_lt (by rw [infinityValue]; exact maxDouble_lt)

theorem value_zero (s : Sign) : (ofUnpacked (.zero s)).value = 0 := by
  show signed (isMinus s) ((0 : ℕ) * 2 ^ (-1074 : ℤ)) = 0
  rw [Nat.cast_zero, zero_mul, signed_zero]

theorem value_opposite (b : Binary) : b.opposite.value = -b.value := by
  cases b with
  | nan => exact neg_zero.symm
  | infinite negative | finite negative m q => exact signed_not negative _

section Values

variable {x : Float} {a : Bool} {m : ℕ} {q : ℤ}

theorem exactValue_of_parts (h : Binary.ofFloat x = .finite a m q) : exactValue x = signed a (m * 2 ^ q) := by
  rw [exactValue, h]
  rfl

theorem abs_exactValue_of_parts (h : Binary.ofFloat x = .finite a m q) : |exactValue x| = m * 2 ^ q := by
  rw [exactValue_of_parts h]
  exact abs_signed a (by positivity)

theorem exactValue_of_infinite (h : Binary.ofFloat x = .infinite a) : exactValue x = signed a infinityValue := by
  rw [exactValue, h]
  rfl

theorem exactValue_neg (x : Float) : exactValue (-x) = -exactValue x := by
  rw [exactValue, ofFloat_neg, value_opposite]
  rfl

theorem isFinite_zero : (0.0 : Float).isFinite := rfl

theorem exactValue_zero : exactValue 0.0 = 0 := by
  have hparts : Binary.ofFloat 0.0 = .finite false 0 (-1074) := rfl
  rw [exactValue_of_parts hparts, Nat.cast_zero, zero_mul, signed_zero]

theorem abs_exactValue_lt (hx : x.isFinite) : |exactValue x| < infinityValue := by
  obtain ⟨a, m, q, hparts⟩ := isFinite_iff.1 hx
  rw [abs_exactValue_of_parts hparts]
  exact value_lt_infinityValue (isDouble_of_finite hparts)

theorem isFinite_of_abs_lt (hx : Binary.ofFloat x ≠ .nan) (hlt : |exactValue x| < infinityValue) : x.isFinite := by
  rw [isFinite_eq]
  cases hparts : Binary.ofFloat x with
  | nan => exact absurd hparts hx
  | infinite a =>
    rw [exactValue_of_infinite hparts] at hlt
    exact absurd hlt (abs_signed a infinityValue_pos.le).not_lt
  | finite a m q => rfl

theorem abs_exactValue_le (x : Float) : |exactValue x| ≤ infinityValue := by
  cases hparts : Binary.ofFloat x with
  | nan =>
    rw [exactValue, hparts]
    exact abs_zero.trans_le infinityValue_pos.le
  | infinite a => rw [exactValue_of_infinite hparts, abs_signed a infinityValue_pos.le]
  | finite a m q => exact (abs_exactValue_lt (isFinite_iff.2 ⟨a, m, q, hparts⟩)).le

end Values

/-! ## Exponents -/

namespace IsDouble

variable {m n : ℕ} {q r i : ℤ}

theorem value_lt (h : IsDouble m q) : (m * 2 ^ q : ℚ) < 2 ^ (q + 53) := by
  have hfits : (m : ℚ) < 2 ^ 53 := by exact_mod_cast h.fits
  calc (m * 2 ^ q : ℚ) < 2 ^ 53 * 2 ^ q := mul_lt_mul_of_pos_right hfits (by positivity)
    _ = 2 ^ (q + 53) := by
      rw [zpow_add₀ two_ne_zero, mul_comm]
      rfl

theorem le_value (h : IsDouble m q) (hq : q ≠ -1074) : (2 ^ (q + 52) : ℚ) ≤ m * 2 ^ q := by
  have hfull : (2 ^ 52 : ℚ) ≤ m := by exact_mod_cast h.full.resolve_right hq
  calc (2 ^ (q + 52) : ℚ) = 2 ^ 52 * 2 ^ q := by
        rw [zpow_add₀ two_ne_zero, mul_comm]
        rfl
    _ ≤ m * 2 ^ q := by gcongr

theorem lt_exponent (h : IsDouble m q) (hi : (2 ^ i : ℚ) ≤ m * 2 ^ q) : i < q + 53 :=
  (zpow_lt_zpow_iff_right₀ one_lt_two).1 (hi.trans_lt h.value_lt)

theorem exponent_lt (h : IsDouble m q) (hq : q ≠ -1074) (hi : (m * 2 ^ q : ℚ) < 2 ^ i) : q + 52 < i :=
  (zpow_lt_zpow_iff_right₀ one_lt_two).1 ((h.le_value hq).trans_lt hi)

/-- The mantissa behind a greater exponent is full, and so the double is greater. -/
theorem value_lt_value (h : IsDouble m q) (h' : IsDouble n r) (hqr : q < r) : (m * 2 ^ q : ℚ) < n * 2 ^ r := by
  have hleast := h.least
  calc (m * 2 ^ q : ℚ) < 2 ^ (q + 53) := h.value_lt
    _ ≤ 2 ^ (r + 52) := zpow_le_zpow_right₀ one_le_two (by omega)
    _ ≤ n * 2 ^ r := h'.le_value (by omega)

end IsDouble

/-! ## Comparing parts -/

theorem compare_parts {m n : ℕ} {q r : ℤ} (h : IsDouble m q) (h' : IsDouble n r) :
    (compare q r).then (compare m n) = compare (m * 2 ^ q : ℚ) (n * 2 ^ r) := by
  rcases lt_trichotomy q r with hqr | rfl | hqr
  · rw [compare_lt_iff_lt.2 hqr, compare_lt_iff_lt.2 (h.value_lt_value h' hqr)]
    rfl
  · have hpos : (0 : ℚ) < 2 ^ q := by positivity
    rw [compare_eq_iff_eq.2 rfl]
    rcases lt_trichotomy m n with hmn | rfl | hmn
    · rw [compare_lt_iff_lt.2 hmn, compare_lt_iff_lt.2 (mul_lt_mul_of_pos_right (Nat.cast_lt.2 hmn) hpos)]
      rfl
    · rw [compare_eq_iff_eq.2 rfl, compare_eq_iff_eq.2 rfl]
      rfl
    · rw [compare_gt_iff_gt.2 hmn, compare_gt_iff_gt.2 (mul_lt_mul_of_pos_right (Nat.cast_lt.2 hmn) hpos)]
      rfl
  · rw [compare_gt_iff_gt.2 hqr, compare_gt_iff_gt.2 (h'.value_lt_value h hqr)]
    rfl

theorem compare_neg (a b : ℚ) : compare (-a) (-b) = (compare a b).swap := by
  rcases lt_trichotomy a b with h | rfl | h
  · rw [compare_lt_iff_lt.2 h, compare_gt_iff_gt.2 (neg_lt_neg h)]
    rfl
  · rw [compare_eq_iff_eq.2 rfl, compare_eq_iff_eq.2 rfl]
    rfl
  · rw [compare_gt_iff_gt.2 h, compare_lt_iff_lt.2 (neg_lt_neg h)]
    rfl

section Compare

variable {a b : ℚ}

theorem some_lt (h : a < b) : some Ordering.lt = some (compare a b) := congrArg some (compare_lt_iff_lt.2 h).symm

theorem some_gt (h : b < a) : some Ordering.gt = some (compare a b) := congrArg some (compare_gt_iff_gt.2 h).symm

theorem some_eq (h : a = b) : some Ordering.eq = some (compare a b) := congrArg some (compare_eq_iff_eq.2 h).symm

end Compare

theorem compare_finite {s t : Sign} {m n : ℕ} {q r : ℤ} (hm : 0 < m) (hn : 0 < n) (h : IsDouble m q)
    (h' : IsDouble n r) : UnpackedFloat.compare (.finite s m q hm) (.finite t n r hn) =
      some (compare (signed (isMinus s) (m * 2 ^ q)) (signed (isMinus t) (n * 2 ^ r))) := by
  have hpos := value_pos hm q
  have hpos' := value_pos hn r
  cases s with
  | negative =>
    cases t with
    | negative =>
      show some ((compare q r).then (compare m n)).swap = some (compare (-(m * 2 ^ q : ℚ)) (-(n * 2 ^ r)))
      rw [compare_parts h h', compare_neg]
    | positive => exact some_lt ((neg_lt_zero.2 hpos).trans hpos')
  | positive =>
    cases t with
    | negative => exact some_gt ((neg_lt_zero.2 hpos').trans hpos)
    | positive => exact congrArg some (compare_parts h h')

theorem compare_eq {u v : UnpackedFloat} (hu : IsPackable u) (hv : IsPackable v) (hun : u ≠ .notANumber)
    (hvn : v ≠ .notANumber) : u.compare v = some (compare (ofUnpacked u).value (ofUnpacked v).value) := by
  have htop := infinityValue_pos
  have hbelow := neg_lt_zero.2 htop
  have hbounds {s : Sign} {m : ℕ} {q : ℤ} {hm : 0 < m} (h : IsPackable (.finite s m q hm)) :
      -infinityValue < signed (isMinus s) (m * 2 ^ q) ∧ signed (isMinus s) (m * 2 ^ q) < infinityValue := by
    have hpos := value_pos hm q
    have hlt := value_lt_infinityValue (h _ m q rfl)
    cases s
    · exact ⟨neg_lt_neg hlt, (neg_lt_zero.2 hpos).trans htop⟩
    · exact ⟨hbelow.trans hpos, hlt⟩
  cases u with
  | notANumber => exact absurd rfl hun
  | infinity s =>
    cases v with
    | notANumber => exact absurd rfl hvn
    | infinity t =>
      cases s <;> cases t
      · exact some_eq rfl
      · exact some_lt (hbelow.trans htop)
      · exact some_gt (hbelow.trans htop)
      · exact some_eq rfl
    | zero t =>
      rw [value_zero]
      cases s
      · exact some_lt hbelow
      · exact some_gt htop
    | finite t n r hn =>
      cases s
      · exact some_lt (hbounds hv).1
      · exact some_gt (hbounds hv).2
  | zero s =>
    rw [value_zero]
    cases v with
    | notANumber => exact absurd rfl hvn
    | infinity t =>
      cases t
      · exact some_gt hbelow
      · exact some_lt htop
    | zero t =>
      rw [value_zero]
      exact some_eq rfl
    | finite t n r hn =>
      cases t
      · exact some_gt (neg_lt_zero.2 (value_pos hn r))
      · exact some_lt (value_pos hn r)
  | finite s m q hm =>
    cases v with
    | notANumber => exact absurd rfl hvn
    | infinity t =>
      cases s <;> cases t
      · exact some_gt (hbounds hu).1
      · exact some_lt (hbounds hu).2
      · exact some_gt (hbounds hu).1
      · exact some_lt (hbounds hu).2
    | zero t =>
      rw [value_zero]
      cases s
      · exact some_lt (neg_lt_zero.2 (value_pos hm q))
      · exact some_gt (value_pos hm q)
    | finite t n r hn => exact compare_finite hm hn (hu _ m q rfl) (hv _ n r rfl)

theorem isPackable_unpack (x : Float) : IsPackable x.toModel.unpack := by
  intro negative m q h
  rw [← ofFloat_eq_ofUnpacked] at h
  exact isDouble_of_finite h

theorem unpack_eq_nan {x : Float} : x.toModel.unpack = .notANumber ↔ Binary.ofFloat x = .nan := by
  rw [ofFloat_eq_ofUnpacked]
  cases x.toModel.unpack with
  | notANumber => exact iff_of_true rfl rfl
  | _ => exact iff_of_false UnpackedFloat.noConfusion Binary.noConfusion

theorem float_compare_eq {x y : Float} (hx : Binary.ofFloat x ≠ .nan) (hy : Binary.ofFloat y ≠ .nan) :
    x.toModel.unpack.compare y.toModel.unpack = some (compare (exactValue x) (exactValue y)) := by
  rw [exactValue, exactValue, ofFloat_eq_ofUnpacked, ofFloat_eq_ofUnpacked]
  exact compare_eq (isPackable_unpack x) (isPackable_unpack y) (mt unpack_eq_nan.1 hx) (mt unpack_eq_nan.1 hy)

theorem compare_eq_none {u v : UnpackedFloat} (h : u = .notANumber ∨ v = .notANumber) : u.compare v = none := by
  rcases h with rfl | rfl
  · rfl
  · cases u <;> rfl

theorem float_le_iff {x y : Float} :
    x ≤ y ↔ Binary.ofFloat x ≠ .nan ∧ Binary.ofFloat y ≠ .nan ∧ exactValue x ≤ exactValue y := by
  change decide ((x.toModel.unpack.compare y.toModel.unpack).any (·.isLE) = true) = true ↔ _
  rw [decide_eq_true_iff]
  by_cases hx : Binary.ofFloat x = .nan
  · rw [compare_eq_none (.inl (unpack_eq_nan.2 hx))]
    simp [hx]
  by_cases hy : Binary.ofFloat y = .nan
  · rw [compare_eq_none (.inr (unpack_eq_nan.2 hy))]
    simp [hy]
  rw [float_compare_eq hx hy, Option.any_some, Ordering.isLE_iff_ne_gt, ← ne_eq, compare_le_iff_le]
  simp [hx, hy]

theorem float_lt_iff {x y : Float} :
    x < y ↔ Binary.ofFloat x ≠ .nan ∧ Binary.ofFloat y ≠ .nan ∧ exactValue x < exactValue y := by
  change decide ((x.toModel.unpack.compare y.toModel.unpack == some .lt) = true) = true ↔ _
  rw [decide_eq_true_iff]
  by_cases hx : Binary.ofFloat x = .nan
  · rw [compare_eq_none (.inl (unpack_eq_nan.2 hx))]
    simp [hx]
  by_cases hy : Binary.ofFloat y = .nan
  · rw [compare_eq_none (.inr (unpack_eq_nan.2 hy))]
    simp [hy]
  rw [float_compare_eq hx hy, beq_iff_eq, Option.some.injEq, compare_lt_iff_lt]
  simp [hx, hy]

/-! ## The order -/

section Order

variable {x y z : Float}

theorem float_le_trans (h : x ≤ y) (h' : y ≤ z) : x ≤ z := by
  obtain ⟨hx, -, hxy⟩ := float_le_iff.1 h
  obtain ⟨-, hz, hyz⟩ := float_le_iff.1 h'
  exact float_le_iff.2 ⟨hx, hz, hxy.trans hyz⟩

theorem ne_nan_of_isFinite (hx : x.isFinite) : Binary.ofFloat x ≠ .nan := by
  obtain ⟨a, m, q, hparts⟩ := isFinite_iff.1 hx
  rw [hparts]
  exact Binary.noConfusion

theorem le_of_infinite (hx : Binary.ofFloat x ≠ .nan) (hy : Binary.ofFloat y ≠ .nan)
    (h : Binary.ofFloat x = .infinite true ∨ Binary.ofFloat y = .infinite false) : x ≤ y := by
  refine float_le_iff.2 ⟨hx, hy, ?_⟩
  rcases h with h | h
  · rw [exactValue_of_infinite h]
    exact (abs_le.1 (abs_exactValue_le y)).1
  · rw [exactValue_of_infinite h]
    exact (abs_le.1 (abs_exactValue_le x)).2

theorem le_cases (h : x ≤ y) : x.isFinite ∧ y.isFinite ∨ Binary.ofFloat x = .infinite true ∨
    Binary.ofFloat y = .infinite false := by
  obtain ⟨hx, hy, hle⟩ := float_le_iff.1 h
  have htop := infinityValue_pos
  rw [isFinite_eq, isFinite_eq]
  cases hxp : Binary.ofFloat x with
  | nan => exact absurd hxp hx
  | infinite a =>
    cases a with
    | true => exact .inr (.inl rfl)
    | false =>
      cases hyp : Binary.ofFloat y with
      | nan => exact absurd hyp hy
      | infinite b =>
        cases b with
        | true =>
          rw [exactValue_of_infinite hxp, exactValue_of_infinite hyp] at hle
          exact absurd hle (not_le.2 ((neg_lt_zero.2 htop).trans htop))
        | false => exact .inr (.inr rfl)
      | finite b n r =>
        have hlt := (abs_lt.1 (abs_exactValue_lt (isFinite_iff.2 ⟨b, n, r, hyp⟩))).2
        rw [exactValue_of_infinite hxp] at hle
        exact absurd hle (not_le.2 hlt)
  | finite a m q =>
    cases hyp : Binary.ofFloat y with
    | nan => exact absurd hyp hy
    | infinite b =>
      cases b with
      | true =>
        have hlt := (abs_lt.1 (abs_exactValue_lt (isFinite_iff.2 ⟨a, m, q, hxp⟩))).1
        rw [exactValue_of_infinite hyp] at hle
        exact absurd hle (not_le.2 hlt)
      | false => exact .inr (.inr rfl)
    | finite b n r => exact .inl ⟨rfl, rfl⟩

end Order

end Calculator.Number
