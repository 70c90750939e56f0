import Calculator.Number.Shortest
import Calculator.Proofs.ReadBack
import Calculator.Proofs.SignOfZero

/-!
# The shortest decimal reads back

* `Basin.Contains`, `Basin.holds_iff` : the reals of an interval of fractions.
* `Basin.exists_gridPoint?` : a grid finer than the interval meets it.
* `rounds_of_contains` : the reals in the basin of a double round to it.
* `contains_coarsest` : seventeen digits are always enough.
* `toFloat_of_found` : the numeral that is found stands for the double.
-/

namespace Calculator.Number

set_option autoImplicit false

/-! ## Intervals of fractions -/

namespace Basin

/-- The real lies in the interval. -/
def Contains (b : Basin) (r : ℚ) : Prop :=
  b.low / b.den ≤ r ∧ r ≤ b.high / b.den ∧ (b.closed ∨ b.low / b.den < r ∧ r < b.high / b.den)

variable {b : Basin} {n : ℕ} {g : ℤ}

theorem contains_of_lt {r : ℚ} (hlow : b.low / b.den < r) (hhigh : r < b.high / b.den) : b.Contains r :=
  ⟨hlow.le, hhigh.le, .inr ⟨hlow, hhigh⟩⟩

theorem holds_iff (hden : 0 < b.den) {num d : ℕ} (hd : 0 < d) : b.holds num d ↔ b.Contains (num / d) := by
  have hden' : (0 : ℚ) < b.den := by exact_mod_cast hden
  have hd' : (0 : ℚ) < d := by exact_mod_cast hd
  have hle : ∀ i j c e : ℕ, 0 < c → 0 < e → ((i : ℚ) / c ≤ j / e ↔ i * e ≤ j * c) := by
    intro i j c e hc he
    rw [div_le_div_iff₀ (by exact_mod_cast hc) (by exact_mod_cast he)]
    exact_mod_cast Iff.rfl
  have hlt : ∀ i j c e : ℕ, 0 < c → 0 < e → ((i : ℚ) / c < j / e ↔ i * e < j * c) := by
    intro i j c e hc he
    rw [div_lt_div_iff₀ (by exact_mod_cast hc) (by exact_mod_cast he)]
    exact_mod_cast Iff.rfl
  rw [Contains, hle _ _ _ _ hden hd, hle _ _ _ _ hd hden, hlt _ _ _ _ hden hd, hlt _ _ _ _ hd hden]
  unfold holds
  cases b.closed
  · simp only [Bool.false_eq_true, if_false, Bool.and_eq_true, decide_eq_true_eq, false_or]
    omega
  · simp

/-! ## Points of a grid -/

theorem grid_eq (n : ℕ) (g : ℤ) :
    (n * 10 ^ g : ℚ) = (n * Nat.pow 10 g.toNat : ℕ) / (Nat.pow 10 (-g).toNat : ℕ) := by
  rw [ten_zpow_eq_div g, ← mul_div_assoc, Nat.pow_eq, Nat.pow_eq]
  push_cast
  rfl

theorem holds_grid_iff (hden : 0 < b.den) :
    b.holds (n * Nat.pow 10 g.toNat) (Nat.pow 10 (-g).toNat) ↔ b.Contains (n * 10 ^ g) := by
  rw [grid_eq]
  exact holds_iff hden (Nat.pow_pos (by decide))

theorem contains_of_gridPoint? (hden : 0 < b.den) (h : b.gridPoint? g = some n) : b.Contains (n * 10 ^ g) := by
  rw [← holds_grid_iff hden]
  revert h
  unfold gridPoint?
  dsimp only
  set lower := b.mid * Nat.pow 10 (-g).toNat / (b.den * Nat.pow 10 g.toNat)
  intro h
  split_ifs at h with hboth hnear hfar hlower hupper
  all_goals obtain rfl := Option.some.inj h
  · exact (Bool.and_eq_true_iff.1 hboth).1
  · exact (Bool.and_eq_true_iff.1 hboth).2
  · -- half way between two points the even one is taken
    rw [Bool.and_eq_true] at hboth
    rcases Nat.mod_two_eq_zero_or_one lower with heven | hodd
    · rw [heven]
      exact hboth.1
    · rw [hodd]
      exact hboth.2
  · exact hlower
  · exact hupper

theorem floor_bounds (hden : 0 < b.den) (g : ℤ) :
    ((b.mid * Nat.pow 10 (-g).toNat / (b.den * Nat.pow 10 g.toNat) : ℕ) : ℚ) * 10 ^ g ≤ b.mid / b.den ∧
      (b.mid / b.den : ℚ) <
        ((b.mid * Nat.pow 10 (-g).toNat / (b.den * Nat.pow 10 g.toNat) + 1 : ℕ) : ℚ) * 10 ^ g := by
  have hunit : 0 < Nat.pow 10 g.toNat := Nat.pow_pos (by decide)
  have hparts : 0 < Nat.pow 10 (-g).toNat := Nat.pow_pos (by decide)
  have hpos : 0 < b.den * Nat.pow 10 g.toNat := Nat.mul_pos hden hunit
  set lower := b.mid * Nat.pow 10 (-g).toNat / (b.den * Nat.pow 10 g.toNat) with hlower
  have hle : lower * (b.den * Nat.pow 10 g.toNat) ≤ b.mid * Nat.pow 10 (-g).toNat := Nat.div_mul_le_self _ _
  have hlt : b.mid * Nat.pow 10 (-g).toNat < (lower + 1) * (b.den * Nat.pow 10 g.toNat) := by
    exact (Nat.div_lt_iff_lt_mul hpos).1 (Nat.lt_succ_self lower)
  rw [grid_eq, grid_eq]
  constructor
  · rw [div_le_div_iff₀ (by exact_mod_cast hparts) (by exact_mod_cast hden)]
    norm_cast
    rw [mul_assoc, mul_comm _ b.den]
    exact hle
  · rw [div_lt_div_iff₀ (by exact_mod_cast hden) (by exact_mod_cast hparts)]
    norm_cast
    rw [mul_assoc, mul_comm _ b.den]
    exact hlt

/-- A grid that is finer than the interval meets it. -/
theorem exists_gridPoint? (hden : 0 < b.den) (hlow : b.low < b.mid) (hhigh : b.mid < b.high)
    (hg : (10 : ℚ) ^ g < b.high / b.den - b.low / b.den) : ∃ n, b.gridPoint? g = some n := by
  have hden' : (0 : ℚ) < b.den := by exact_mod_cast hden
  have hlow' : (b.low / b.den : ℚ) < b.mid / b.den := div_lt_div_of_pos_right (by exact_mod_cast hlow) hden'
  have hhigh' : (b.mid / b.den : ℚ) < b.high / b.den := div_lt_div_of_pos_right (by exact_mod_cast hhigh) hden'
  obtain ⟨hbelow, habove⟩ := floor_bounds hden g
  unfold gridPoint?
  dsimp only
  set lower := b.mid * Nat.pow 10 (-g).toNat / (b.den * Nat.pow 10 g.toNat)
  split_ifs with hboth hnear hfar hlower hupper
  any_goals exact ⟨_, rfl⟩
  -- without a point in the interval its ends lie between two neighbours
  exfalso
  have hpos : (0 : ℚ) < 10 ^ g := by positivity
  have hout : (lower * 10 ^ g : ℚ) ≤ b.low / b.den := by
    by_contra hlt
    exact hlower ((holds_grid_iff hden).2 (contains_of_lt (not_le.1 hlt) (hbelow.trans_lt hhigh')))
  have hout' : (b.high / b.den : ℚ) ≤ (lower + 1 : ℕ) * 10 ^ g := by
    by_contra hlt
    exact hupper ((holds_grid_iff hden).2 (contains_of_lt (hlow'.trans habove) (not_le.1 hlt)))
  push_cast at hout'
  linarith

/-- The search ends in the interval if one of its grids meets it. -/
theorem contains_coarsest (hden : 0 < b.den) {top : ℤ} {tries i : ℕ} (hi : i < tries)
    (h : ∃ n, b.gridPoint? (top - i) = some n) :
    b.Contains ((b.coarsest top tries).1 * 10 ^ (b.coarsest top tries).2) := by
  induction tries generalizing top i with
  | zero => omega
  | succ tries ih =>
    unfold coarsest
    cases hpoint : b.gridPoint? top with
    | some n => exact contains_of_gridPoint? hden hpoint
    | none =>
      cases i with
      | zero =>
        rw [Nat.cast_zero, sub_zero, hpoint] at h
        exact nomatch h
      | succ i =>
        refine ih (Nat.lt_of_succ_lt_succ hi) ?_
        rwa [sub_sub, add_comm 1, ← Nat.cast_succ]

end Basin

/-! ## The reals that round to a double -/

section Basin

variable {m : ℕ} {q : ℤ} {r : ℚ}

/-- How far the basin reaches below the double, in quarters of its unit. -/
def quartersBelow (m : ℕ) (q : ℤ) : ℕ := if m = 2 ^ 52 ∧ -1074 < q then 1 else 2

theorem quartersBelow_bounds (m : ℕ) (q : ℤ) : 1 ≤ quartersBelow m q ∧ quartersBelow m q ≤ 2 := by
  unfold quartersBelow
  split_ifs <;> decide

theorem ofFinite_eq (m : ℕ) (q : ℤ) : Basin.ofFinite m q = ⟨numerator (4 * m - quartersBelow m q) (q - 2),
    numerator (4 * m) (q - 2), numerator (4 * m + 2) (q - 2), denominator (q - 2), m % 2 == 0⟩ := rfl

theorem den_ofFinite_pos (m : ℕ) (q : ℤ) : 0 < (Basin.ofFinite m q).den := denominator_pos _

theorem quarters_eq (k : ℕ) (q : ℤ) : (numerator k (q - 2) / denominator (q - 2) : ℚ) = k / 4 * 2 ^ q := by
  rw [← value_eq_div, zpow_sub₀ two_ne_zero]
  norm_num
  ring

theorem low_ofFinite (hm : 0 < m) :
    ((Basin.ofFinite m q).low / (Basin.ofFinite m q).den : ℚ) = (m - quartersBelow m q / 4) * 2 ^ q := by
  have hle : quartersBelow m q ≤ 4 * m := by
    have := (quartersBelow_bounds m q).2
    omega
  rw [ofFinite_eq, quarters_eq, Nat.cast_sub hle]
  push_cast
  ring

theorem high_ofFinite : ((Basin.ofFinite m q).high / (Basin.ofFinite m q).den : ℚ) = (m + 1 / 2) * 2 ^ q := by
  rw [ofFinite_eq, quarters_eq]
  push_cast
  ring

theorem contains_ofFinite (hm : 0 < m) (hr : (Basin.ofFinite m q).Contains r) :
    m - quartersBelow m q / 4 ≤ r / 2 ^ q ∧ r / 2 ^ q ≤ m + 1 / 2 ∧
      (Even m ∨ m - quartersBelow m q / 4 < r / 2 ^ q ∧ r / 2 ^ q < m + 1 / 2) := by
  have hpos : (0 : ℚ) < 2 ^ q := by positivity
  obtain ⟨hlow, hhigh, hends⟩ := hr
  rw [low_ofFinite hm, high_ofFinite] at hends
  rw [low_ofFinite hm] at hlow
  rw [high_ofFinite] at hhigh
  rw [le_div_iff₀ hpos, div_le_iff₀ hpos, lt_div_iff₀ hpos, div_lt_iff₀ hpos, Nat.even_iff]
  refine ⟨hlow, hhigh, hends.imp_left fun hclosed => ?_⟩
  rwa [ofFinite_eq, beq_iff_eq] at hclosed

/-- What is at least as great as a power of two, or has its neighbours at the same distance, rounds with the exponent
of the double. -/
theorem roundsTo_of_contains (h : IsDouble m q) (hm : 0 < m) (hr : (Basin.ofFinite m q).Contains r)
    (hfull : 2 ^ 52 * 2 ^ q ≤ r ∨ q = -1074) : RoundsTo r m q := by
  have hpos : (0 : ℚ) < 2 ^ q := by positivity
  obtain ⟨hlow, hhigh, hends⟩ := contains_ofFinite hm hr
  have hbelow : (quartersBelow m q : ℚ) ≤ 2 := by exact_mod_cast (quartersBelow_bounds m q).2
  have hfits : (m : ℚ) + 1 ≤ 2 ^ 53 := by exact_mod_cast h.fits
  refine ⟨h.least, hfull, ?_, abs_le.2 ⟨by linarith, by linarith⟩, fun hhalf => ?_⟩
  · rw [← div_lt_iff₀ hpos]
    linarith
  · refine hends.resolve_right fun hlt => ?_
    rcases abs_cases (r / 2 ^ q - m) with hcase | hcase <;> linarith [hlt.1, hlt.2]

/-- What rounds up to a power of two. -/
theorem roundsTo_below (hq : -1074 < q) (hr : (Basin.ofFinite (2 ^ 52) q).Contains r) (hlt : r < 2 ^ 52 * 2 ^ q) :
    RoundsTo r (2 ^ 53) (q - 1) := by
  have hpos : (0 : ℚ) < 2 ^ q := by positivity
  have hhalf : (2 : ℚ) ^ (q - 1) = 2 ^ q / 2 := zpow_sub_one₀ two_ne_zero q
  obtain ⟨hlow, -, -⟩ := contains_ofFinite (by norm_num) hr
  rw [quartersBelow, if_pos ⟨rfl, hq⟩, le_div_iff₀ hpos] at hlow
  push_cast at hlow
  refine ⟨by omega, .inl ?_, ?_, abs_le.2 ⟨?_, ?_⟩, fun _ => by decide⟩
  · rw [hhalf]
    linarith
  · rw [hhalf]
    linarith
  · rw [hhalf, neg_le_sub_iff_le_add, ← sub_le_iff_le_add, le_div_iff₀ (by positivity)]
    push_cast
    linarith
  · rw [hhalf, sub_le_iff_le_add, div_le_iff₀ (by positivity)]
    push_cast
    linarith

/-- **The reals in the basin of a double round to it.** -/
theorem rounds_of_contains (h : IsDouble m q) (hm : 0 < m) (hr : (Basin.ofFinite m q).Contains r) (negative : Bool) :
    Rounds (.finite negative m q) negative r := by
  have hkept : roundedParts negative m q = .finite negative m q := if_neg h.fits.ne
  by_cases hfull : 2 ^ 52 * 2 ^ q ≤ r ∨ q = -1074
  · exact ⟨m, q, roundsTo_of_contains h hm hr hfull, hkept.symm⟩
  · obtain ⟨hlt, hq⟩ := not_or.1 hfull
    have hq' : -1074 < q := lt_of_le_of_ne h.least (Ne.symm hq)
    have hpos : (0 : ℚ) < 2 ^ q := by positivity
    have hmin : m = 2 ^ 52 := by
      by_contra hne
      -- above the least mantissa the basin does not go below a power of two
      have hge : ((2 ^ 52 + 1 : ℕ) : ℚ) ≤ m := by
        have := h.full.resolve_right hq
        exact_mod_cast (by omega : 2 ^ 52 + 1 ≤ m)
      have hbelow : (quartersBelow m q : ℚ) ≤ 2 := by exact_mod_cast (quartersBelow_bounds m q).2
      obtain ⟨hlow, -, -⟩ := contains_ofFinite hm hr
      refine hlt ?_
      rw [← le_div_iff₀ hpos]
      push_cast at hge
      linarith
    subst hmin
    refine ⟨2 ^ 53, q - 1, roundsTo_below hq' hr (not_le.1 hlt), ?_⟩
    rw [roundedParts, if_pos rfl, sub_add_cancel]

/-! ## One double for each real -/

theorem RoundsTo.unique {k l : ℕ} {p : ℤ} (h : RoundsTo r k q) (h' : RoundsTo r l p) : k = l ∧ q = p := by
  have hle : ∀ {k l : ℕ} {q p : ℤ}, RoundsTo r k q → RoundsTo r l p → p ≤ q := by
    intro k l q p h h'
    by_contra hlt
    have hfull : (2 : ℚ) ^ 52 * 2 ^ p ≤ r := h'.full.resolve_right (by have := h.least; omega)
    have hpow : (2 : ℚ) ^ (q + 1) ≤ 2 ^ p := zpow_le_zpow_right₀ (by norm_num) (by omega)
    rw [zpow_add_one₀ two_ne_zero] at hpow
    have := h.fits
    linarith
  obtain rfl : q = p := le_antisymm (hle h' h) (hle h h')
  exact ⟨h.nearest.unique h'.nearest, rfl⟩

theorem Rounds.unique {b c : Binary} {negative : Bool} (h : Rounds b negative r) (h' : Rounds c negative r) : b = c := by
  obtain ⟨k, q, hk, rfl⟩ := h
  obtain ⟨l, p, hl, rfl⟩ := h'
  obtain ⟨rfl, rfl⟩ := hk.unique hl
  rfl

end Basin

/-! ## Seventeen digits -/

section Search

variable {m : ℕ} {q : ℤ}

/-- What the search finds. -/
def found (m : ℕ) (q : ℤ) : ℕ × ℤ :=
  (Basin.ofFinite m q).coarsest (decimalExponent (numerator m q) (denominator q)) 17

/-- The grid of seventeen digits is finer than the basin. -/
theorem fine_grid (h : IsDouble m q) (hm : 0 < m) : (10 : ℚ) ^
    (decimalExponent (numerator m q) (denominator q) - (16 : ℕ)) < (1 / 2 + quartersBelow m q / 4) * 2 ^ q := by
  have hpos : (0 : ℚ) < 2 ^ q := by positivity
  have hnum : 0 < numerator m q := Nat.mul_pos hm (Nat.pow_pos (by decide))
  obtain ⟨hle, -⟩ := decimalExponent_bounds hnum (denominator_pos q)
  rw [← value_eq_div] at hle
  rw [zpow_sub₀ (by norm_num), div_lt_iff₀ (by positivity)]
  refine hle.trans_lt ?_
  -- at a power of two, where the basin is smaller, the mantissa is the least one
  have hmantissa : (m : ℚ) < (1 / 2 + quartersBelow m q / 4) * 10 ^ 16 := by
    unfold quartersBelow
    split_ifs with hmin
    · rw [hmin.1]
      norm_num
    · have := h.fits
      norm_num
      omega
  calc (m * 2 ^ q : ℚ) < (1 / 2 + quartersBelow m q / 4) * 10 ^ 16 * 2 ^ q := mul_lt_mul_of_pos_right hmantissa hpos
    _ = (1 / 2 + quartersBelow m q / 4) * 2 ^ q * 10 ^ ((16 : ℕ) : ℤ) := by
      rw [zpow_natCast]
      ring

/-- **Seventeen digits are always enough.** -/
theorem contains_found (h : IsDouble m q) (hm : 0 < m) :
    (Basin.ofFinite m q).Contains ((found m q).1 * 10 ^ (found m q).2) := by
  have hunit : 0 < Nat.pow 2 (q - 2).toNat := Nat.pow_pos (by decide)
  have hbelow := (quartersBelow_bounds m q).1
  refine Basin.contains_coarsest (den_ofFinite_pos m q) (by decide : 16 < 17) ?_
  refine Basin.exists_gridPoint? (den_ofFinite_pos m q) ?_ ?_ ?_
  · rw [ofFinite_eq]
    exact Nat.mul_lt_mul_of_pos_right (by omega) hunit
  · rw [ofFinite_eq]
    exact Nat.mul_lt_mul_of_pos_right (by omega) hunit
  · rw [low_ofFinite hm, high_ofFinite]
    refine (fine_grid h hm).trans_eq ?_
    ring

theorem found_pos (h : IsDouble m q) (hm : 0 < m) : 0 < (found m q).1 := by
  by_contra hzero
  obtain ⟨hlow, -, -⟩ := contains_ofFinite hm (contains_found h hm)
  have hbelow : (quartersBelow m q : ℚ) ≤ 2 := by exact_mod_cast (quartersBelow_bounds m q).2
  have hone : (1 : ℚ) ≤ m := by exact_mod_cast hm
  rw [Nat.eq_zero_of_not_pos hzero, Nat.cast_zero, zero_mul, zero_div] at hlow
  linarith

/-- The greatest double is found below itself. -/
theorem found_greatest : found (2 ^ 53 - 1) 971 = (17976931348623157, 292) ∧ 17976931348623157 * 10 ^ 292 ≤ maxNat := by
  decide +kernel

theorem next_le_maxDouble (h : IsDouble m q) (htop : ¬(m = 2 ^ 53 - 1 ∧ q = 971)) :
    ((m : ℚ) + 1) * 2 ^ q ≤ maxDouble := by
  have hpos : (0 : ℚ) < 2 ^ (971 : ℤ) := by positivity
  have hfits : (m : ℚ) + 1 ≤ 2 ^ 53 := by exact_mod_cast h.fits
  unfold maxDouble
  rcases h.greatest.lt_or_eq with hq | rfl
  · have hpow : (2 : ℚ) ^ q ≤ 2 ^ ((971 : ℤ) - 1) := zpow_le_zpow_right₀ (by norm_num) (by omega)
    rw [zpow_sub_one₀ two_ne_zero] at hpow
    calc ((m : ℚ) + 1) * 2 ^ q ≤ 2 ^ 53 * (2 ^ (971 : ℤ) * 2⁻¹) := by gcongr
      _ ≤ (2 ^ 53 - 1) * 2 ^ (971 : ℤ) := by
        generalize (2 : ℚ) ^ (971 : ℤ) = unit at hpos ⊢
        linarith
  · have hlt : (m : ℚ) + 2 ≤ 2 ^ 53 := by
      have := h.fits
      exact_mod_cast (by omega : m + 2 ≤ 2 ^ 53)
    gcongr
    linarith

theorem found_le_maxDouble (h : IsDouble m q) (hm : 0 < m) : ((found m q).1 * 10 ^ (found m q).2 : ℚ) ≤ maxDouble := by
  by_cases htop : m = 2 ^ 53 - 1 ∧ q = 971
  · obtain ⟨rfl, rfl⟩ := htop
    rw [found_greatest.1, ← cast_maxNat]
    refine le_of_eq_of_le ?_ (Nat.cast_le.2 found_greatest.2)
    rw [Nat.cast_mul, Nat.cast_pow, zpow_ofNat, Nat.cast_ofNat (n := 10)]
  · obtain ⟨-, hhigh, -⟩ := contains_ofFinite hm (contains_found h hm)
    rw [div_le_iff₀ (by positivity)] at hhigh
    refine hhigh.trans (le_trans ?_ (next_le_maxDouble h htop))
    gcongr
    norm_num

/-- **The numeral that is found stands for the double**, with any exponent that fits its digits. -/
theorem toFloat_of_found {x : Float} {negative : Bool} (hx : Binary.ofFloat x = .finite negative m q) (hm : 0 < m)
    {d : ℕ} {e : ℤ} (h : (d * 10 ^ e : ℚ) = (found m q).1 * 10 ^ (found m q).2) :
    (Numeral.decimal negative d e).toFloat = x := by
  have hdouble := isDouble_of_finite hx
  have hrounds := rounds_toFloat negative d e (h ▸ found_le_maxDouble hdouble hm)
  have hparts := hrounds.unique (h ▸ rounds_of_contains hdouble hm (contains_found hdouble hm) negative)
  exact ofFloat_inj (hparts.trans hx.symm) (hparts ▸ nofun)

end Search

end Calculator.Number
