import Calculator.Proofs.RoundedArithmetic
import Mathlib.Data.Rat.Floor

/-!
# A half added to a double

The integer nearest to a magnitude lies below its sum with a half. As a sum of doubles this is rounded itself, and at
some doubles it reaches the next integer.

* `IsNearestAway` : the integer nearest to a number, of two the one farther from zero.
* `IsNearestAway.floor_add_half` : it lies below the sum with a half.
* `GoesPast` : the magnitudes whose sum with a half is rounded past an integer.
* `isCut_rounded` : the integer below the rounded sum.
-/

namespace Calculator

set_option autoImplicit false

open Calculator.Number

/-! ## Nearest integers -/

/-- `n` is the integer nearest to `x`, and of two the one farther from zero. -/
structure IsNearestAway (x : ℚ) (n : ℤ) : Prop where
  nearest : ∀ j : ℤ, |x - n| ≤ |x - j|
  away : ∀ j : ℤ, |x - j| = |x - n| → |j| ≤ |n|

namespace IsNearestAway

variable {x w : ℚ} {m n : ℤ}

theorem abs_unique (hm : IsNearestAway x m) (hn : IsNearestAway x n) : |m| = |n| := by
  have heq : |x - m| = |x - n| := (hm.nearest n).antisymm (hn.nearest m)
  exact (hn.away m heq).antisymm (hm.away n heq.symm)

protected theorem neg (h : IsNearestAway x n) : IsNearestAway (-x) (-n) := by
  have hdist (j : ℤ) : |-x - (-j : ℤ)| = |x - j| := by
    rw [Int.cast_neg, ← neg_sub', abs_neg]
  constructor
  · intro j
    have hj := hdist (-j)
    rw [neg_neg] at hj
    rw [hdist, hj]
    exact h.nearest (-j)
  · intro j hj
    have hj' := hdist (-j)
    rw [neg_neg] at hj'
    rw [abs_neg, ← abs_neg j]
    refine h.away (-j) ?_
    rw [← hj', hj, hdist]

theorem floor_add_half (hw : 0 ≤ w) : IsNearestAway w ⌊w + 1 / 2⌋ := by
  set n := ⌊w + 1 / 2⌋ with hn
  have hlow : (n : ℚ) ≤ w + 1 / 2 := Int.floor_le _
  have hhigh : w + 1 / 2 < n + 1 := Int.lt_floor_add_one _
  have hwithin : |w - n| ≤ 1 / 2 := abs_le.2 ⟨by linarith, by linarith⟩
  constructor
  · intro j
    rcases eq_or_ne n j with rfl | hj
    · rfl
    · have hone : (1 : ℚ) ≤ |(n : ℚ) - j| := by exact_mod_cast Int.one_le_abs (sub_ne_zero.2 hj)
      have hsum := abs_sub_le (n : ℚ) w j
      rw [abs_sub_comm (n : ℚ) w] at hsum
      linarith
  · intro j hj
    obtain ⟨hj1, hj2⟩ := abs_le.1 (hj.trans_le hwithin)
    have hle : j ≤ n := Int.le_floor.2 (by linarith)
    have hnonneg : 0 ≤ j := by
      have : (-1 : ℚ) < j := by linarith
      have : -1 < j := by exact_mod_cast this
      omega
    rwa [abs_of_nonneg hnonneg, abs_of_nonneg (hnonneg.trans hle)]

end IsNearestAway

/-! ## The rounded sum -/

/-- Magnitudes whose sum with a half is rounded past an integer: the double before a half, and the odd integers with
doubles only at integers around them. -/
def GoesPast (w : ℚ) : Prop := w = (2 ^ 53 - 1) * 2 ^ (-54 : ℤ) ∨ ∃ j : ℕ, Odd j ∧ 2 ^ 52 < j ∧ j < 2 ^ 53 ∧ w = j

section Sum

variable {m k : ℕ} {q p : ℤ}

theorem value_eq_natCast (m d : ℕ) : (m * 2 ^ (d : ℤ) : ℚ) = (m * 2 ^ d : ℕ) := by
  rw [zpow_natCast]
  push_cast
  rfl

/-- From here on doubles are so far apart that a half is lost. -/
theorem roundsTo_add_half_of_large (h : IsDouble m q) (hm : 2 ^ 52 ≤ m) (hq : 0 < q) :
    RoundsTo (m * 2 ^ q + 1 / 2) m q := by
  have hpow : (2 : ℚ) ≤ 2 ^ q := by
    calc (2 : ℚ) = 2 ^ (1 : ℤ) := (zpow_one 2).symm
      _ ≤ 2 ^ q := zpow_le_zpow_right₀ (by norm_num) (by omega)
  have hfull : (2 ^ 52 : ℚ) ≤ m := by exact_mod_cast hm
  have hfits : (m : ℚ) + 1 ≤ 2 ^ 53 := by exact_mod_cast h.fits
  refine ⟨h.least, .inl ?_, ?_, IsNearest.of_lt ?_⟩
  · nlinarith
  · nlinarith
  · rw [add_div, mul_div_cancel_right₀ _ (by positivity), add_sub_cancel_left, abs_of_pos (by positivity),
      div_lt_iff₀ (by positivity)]
    linarith

/-- Doubles from here on are integers, and the sum is half way between two. -/
theorem roundsTo_add_half_of_whole (hm : 2 ^ 52 ≤ m) (hfits : m < 2 ^ 53) : RoundsTo (m + 1 / 2) (m + m % 2) 0 := by
  have hfull : (2 ^ 52 : ℚ) ≤ m := by exact_mod_cast hm
  have hfits : (m : ℚ) + 1 ≤ 2 ^ 53 := by exact_mod_cast hfits
  refine ⟨by decide, .inl ?_, ?_, ?_⟩
  · rw [zpow_zero]
    linarith
  · rw [zpow_zero]
    linarith
  · rw [zpow_zero, div_one]
    exact IsNearest.of_half rfl

/-- The double before a half and a half are half way between one and the double before it. -/
theorem roundsTo_before_half : RoundsTo ((2 ^ 53 - 1) * 2 ^ (-54 : ℤ) + 1 / 2) (2 ^ 53) (-53) := by
  refine ⟨by decide, .inl (by norm_num), by norm_num, ?_⟩
  have h := IsNearest.of_half (n := 2 ^ 53 - 1) (x := ((2 ^ 53 - 1) * 2 ^ (-54 : ℤ) + 1 / 2) / 2 ^ (-53 : ℤ))
    (by norm_num)
  norm_num at h ⊢
  exact h

theorem floor_rounded_of_lt {r : ℚ} (hr : r ≤ 1 - 2 ^ (-53 : ℤ)) (h : RoundsTo r k p) :
    ⌊(k * 2 ^ p : ℚ)⌋ = 0 := by
  have htop : RoundsTo ((2 ^ 53 - 1 : ℕ) * 2 ^ (-53 : ℤ)) (2 ^ 53 - 1) (-53) :=
    roundsTo_self ⟨by norm_num, by norm_num, by norm_num, .inl (by norm_num)⟩
  have hle := h.mono htop (hr.trans (by norm_num))
  refine Int.floor_eq_zero_iff.2 ⟨by positivity, hle.trans_lt (by norm_num)⟩

theorem le_before_half (h : IsDouble m q) (hlt : (m * 2 ^ q : ℚ) < 1 / 2) :
    (m * 2 ^ q : ℚ) = (2 ^ 53 - 1) * 2 ^ (-54 : ℤ) ∨ (m * 2 ^ q : ℚ) ≤ 1 / 2 - 2 ^ (-53 : ℤ) := by
  have hq : q ≤ -54 := by
    by_contra hq
    have := h.exponent_lt (i := -1) (by omega) (hlt.trans_eq (by norm_num))
    omega
  rcases hq.lt_or_eq with hq | rfl
  · right
    calc (m * 2 ^ q : ℚ) ≤ 2 ^ (q + 53) := h.value_lt.le
      _ ≤ 2 ^ (-2 : ℤ) := zpow_le_zpow_right₀ one_le_two (by omega)
      _ ≤ 1 / 2 - 2 ^ (-53 : ℤ) := by norm_num
  · rcases (Nat.le_sub_one_of_lt h.fits).lt_or_eq with hm | rfl
    · right
      have hm' : (m : ℚ) ≤ 2 ^ 53 - 2 := by
        have hsucc : ((m + 1 : ℕ) : ℚ) ≤ (2 ^ 53 - 1 : ℕ) := Nat.cast_le.2 hm
        push_cast at hsucc
        linarith
      calc (m * 2 ^ (-54 : ℤ) : ℚ) ≤ (2 ^ 53 - 2) * 2 ^ (-54 : ℤ) := by gcongr
        _ = 1 / 2 - 2 ^ (-53 : ℤ) := by norm_num
    · left
      norm_num

/-- A sum that is carried to the next power of two is rounded, but lies just behind an integer. -/
theorem floor_rounded_of_carry (h : IsDouble m q) (hq : -53 ≤ q) (hhigh : (m * 2 ^ q : ℚ) < 2 ^ 52)
    (hcarry : (2 ^ 53 * 2 ^ q : ℚ) ≤ m * 2 ^ q + 1 / 2) (hk : RoundsTo (m * 2 ^ q + 1 / 2) k p) :
    ⌊(k * 2 ^ p : ℚ)⌋ = ⌊(m * 2 ^ q + 1 / 2 : ℚ)⌋ := by
  obtain ⟨e, he⟩ : ∃ e : ℕ, 53 + q = e := Int.eq_ofNat_of_zero_le (by omega)
  have hpower : ((2 ^ e : ℕ) : ℚ) = 2 ^ 53 * 2 ^ q := by
    rw [Nat.cast_pow, ← zpow_natCast, ← he, zpow_add₀ (by norm_num)]
    rfl
  have hdouble : IsDoubleValue (2 ^ e : ℕ) :=
    ⟨2 ^ 52, q + 1, by norm_num, by omega, by rw [hpower, zpow_add_one₀ two_ne_zero]; push_cast; ring⟩
  have hfits : (m : ℚ) < 2 ^ 53 := by exact_mod_cast h.fits
  have hlt : (m * 2 ^ q + 1 / 2 : ℚ) < (2 ^ e : ℕ) + 1 / 2 := by
    rw [hpower]
    gcongr
  have hp : p ≤ 0 := by
    rcases hk.full with hfull | rfl
    · by_contra hp
      have hpow : (2 : ℚ) ^ (1 : ℤ) ≤ 2 ^ p := zpow_le_zpow_right₀ (by norm_num) (by omega)
      rw [zpow_one] at hpow
      linarith
    · decide
  have hunit : (2 : ℚ) ^ p ≤ 1 := zpow_le_one_of_nonpos₀ (by norm_num) hp
  have hdist := abs_le.1 hk.abs_sub_le_half
  rw [← hpower] at hcarry
  have hback := hk.ge_of_isDoubleValue hdouble hcarry
  have hfloor {r : ℚ} (h1 : ((2 ^ e : ℕ) : ℚ) ≤ r) (h2 : r < (2 ^ e : ℕ) + 1) : ⌊r⌋ = (2 ^ e : ℕ) :=
    Int.floor_eq_iff.2 ⟨by exact_mod_cast h1, by exact_mod_cast h2⟩
  rw [hfloor hback (by linarith), hfloor hcarry (by linarith)]

/-- Where doubles have places the sum may be rounded, but to no other integer: it has no more places than before, or
lies just behind a power of two. -/
theorem floor_rounded_of_places (h : IsDouble m q) (hlow : 1 / 2 ≤ (m * 2 ^ q : ℚ)) (hhigh : (m * 2 ^ q : ℚ) < 2 ^ 52)
    (hk : RoundsTo (m * 2 ^ q + 1 / 2) k p) : ⌊(k * 2 ^ p : ℚ)⌋ = ⌊(m * 2 ^ q + 1 / 2 : ℚ)⌋ := by
  have hq := h.lt_exponent (i := -1) ((by norm_num : (2 ^ (-1 : ℤ) : ℚ) = 1 / 2).trans_le hlow)
  have hq' : q < 0 := by
    by_contra hq'
    have := h.exponent_lt (i := 52) (by omega) hhigh
    omega
  obtain ⟨d, hd⟩ : ∃ d : ℕ, -1 - q = d := Int.eq_ofNat_of_zero_le (by omega)
  have hhalf : (1 / 2 : ℚ) = 2 ^ d * 2 ^ q := by
    rw [← zpow_natCast, ← hd, ← zpow_add₀ two_ne_zero, sub_add_cancel, zpow_neg_one, one_div]
  have hvalue : (m * 2 ^ q + 1 / 2 : ℚ) = (m + 2 ^ d : ℕ) * 2 ^ q := by
    rw [hhalf]
    push_cast
    ring
  rcases Nat.lt_or_ge (m + 2 ^ d) (2 ^ 53) with hsum | hsum
  · rw [hk.eq_of_isDoubleValue ⟨_, q, hsum, h.least, hvalue⟩]
  · refine floor_rounded_of_carry h (by omega) hhigh ?_ hk
    have hsum' : (2 ^ 53 : ℚ) ≤ (m + 2 ^ d : ℕ) := by exact_mod_cast hsum
    rw [hvalue]
    gcongr

theorem not_goesPast {w : ℚ} (hne : w ≠ (2 ^ 53 - 1) * 2 ^ (-54 : ℤ)) (hw : w < 2 ^ 52 ∨ 2 ^ 53 ≤ w) :
    ¬GoesPast w := by
  rintro (heq | ⟨j, -, hj, hj', heq⟩)
  · exact hne heq
  · have hlow : (2 ^ 52 : ℚ) < j := by exact_mod_cast hj
    have hhigh : (j : ℚ) < 2 ^ 53 := by exact_mod_cast hj'
    rcases hw with hw | hw <;> linarith

theorem floor_natCast_add_half (n : ℕ) : ⌊(n + 1 / 2 : ℚ)⌋ = n :=
  Int.floor_eq_iff.2 ⟨by push_cast; linarith, by push_cast; linarith⟩

/-- The rounded sum is cut to the integer that the sum itself is cut to, or to the next one. -/
def IsCut (w r : ℚ) : Prop :=
  GoesPast w ∧ ⌊r⌋ = ⌊w + 1 / 2⌋ + 1 ∨ ¬GoesPast w ∧ ⌊r⌋ = ⌊w + 1 / 2⌋

theorem isCut_of_lt_half (h : IsDouble m q) (hhalf : (m * 2 ^ q : ℚ) < 1 / 2)
    (hk : RoundsTo (m * 2 ^ q + 1 / 2) k p) : IsCut (m * 2 ^ q) (k * 2 ^ p) := by
  rcases le_before_half h hhalf with heq | hle
  · rw [heq] at hk ⊢
    obtain ⟨rfl, rfl⟩ := hk.unique roundsTo_before_half
    refine .inl ⟨.inl rfl, ?_⟩
    norm_num
  · have hne : (m * 2 ^ q : ℚ) ≠ (2 ^ 53 - 1) * 2 ^ (-54 : ℤ) := (hle.trans_lt (by norm_num)).ne
    refine .inr ⟨not_goesPast hne (.inl (by linarith)), ?_⟩
    rw [floor_rounded_of_lt (by linarith) hk]
    exact (Int.floor_eq_zero_iff.2 ⟨by positivity, by linarith⟩).symm

theorem isCut_of_whole (hm : 2 ^ 52 ≤ m) (hfits : m < 2 ^ 53) (hk : RoundsTo (m + 1 / 2) k p) :
    IsCut m (k * 2 ^ p) := by
  obtain ⟨rfl, rfl⟩ := hk.unique (roundsTo_add_half_of_whole hm hfits)
  unfold IsCut
  rw [zpow_zero, mul_one, Int.floor_natCast, floor_natCast_add_half]
  rcases Nat.mod_two_eq_zero_or_one m with heven | hodd
  · refine .inr ⟨?_, by rw [heven, Nat.add_zero]⟩
    rintro (heq | ⟨j, hj, -, -, heq⟩)
    · have hone : (1 : ℚ) ≤ m := by exact_mod_cast Nat.one_le_two_pow.trans hm
      norm_num at heq
      linarith
    · rw [← Nat.cast_inj.1 heq, Nat.odd_iff] at hj
      omega
  · refine .inl ⟨.inr ⟨m, Nat.odd_iff.2 hodd, by omega, hfits, rfl⟩, ?_⟩
    rw [hodd, Nat.cast_add, Nat.cast_one]

theorem isCut_of_large (h : IsDouble m q) (hm : 2 ^ 52 ≤ m) (hq : 0 < q) (hk : RoundsTo (m * 2 ^ q + 1 / 2) k p) :
    IsCut (m * 2 ^ q) (k * 2 ^ p) := by
  obtain ⟨rfl, rfl⟩ := (roundsTo_add_half_of_large h hm hq).unique hk
  obtain ⟨d, rfl⟩ := Int.eq_ofNat_of_zero_le hq.le
  have hlarge : (2 : ℚ) ^ 53 ≤ m * 2 ^ (d : ℤ) := by
    have hm' : (2 ^ 52 : ℚ) ≤ m := by exact_mod_cast hm
    have hpow : (2 : ℚ) ^ (1 : ℤ) ≤ 2 ^ (d : ℤ) := zpow_le_zpow_right₀ (by norm_num) (by omega)
    calc (2 ^ 53 : ℚ) = 2 ^ 52 * 2 ^ (1 : ℤ) := by norm_num
      _ ≤ (m * 2 ^ (d : ℤ) : ℚ) := by gcongr
  have hne : (m * 2 ^ (d : ℤ) : ℚ) ≠ (2 ^ 53 - 1) * 2 ^ (-54 : ℤ) :=
    (lt_of_lt_of_le (by norm_num) hlarge).ne'
  refine .inr ⟨not_goesPast hne (.inr hlarge), ?_⟩
  rw [value_eq_natCast, floor_natCast_add_half, Int.floor_natCast]

/-- Only the magnitudes that go past it miss the integer below the sum. -/
theorem isCut_rounded (h : IsDouble m q) (hk : RoundsTo (m * 2 ^ q + 1 / 2) k p) : IsCut (m * 2 ^ q) (k * 2 ^ p) := by
  rcases lt_or_ge (m * 2 ^ q : ℚ) (1 / 2) with hhalf | hhalf
  · exact isCut_of_lt_half h hhalf hk
  rcases lt_or_ge (m * 2 ^ q : ℚ) (2 ^ 52) with hplaces | hplaces
  · have hne : (m * 2 ^ q : ℚ) ≠ (2 ^ 53 - 1) * 2 ^ (-54 : ℤ) := (lt_of_lt_of_le (by norm_num) hhalf).ne'
    exact .inr ⟨not_goesPast hne (.inl hplaces), floor_rounded_of_places h hhalf hplaces hk⟩
  have hq : 0 ≤ q := by
    have := h.lt_exponent (i := 52) hplaces
    omega
  have hfull := h.full.resolve_right (by omega)
  rcases hq.eq_or_lt with rfl | hq
  · rw [zpow_zero, mul_one] at hk ⊢
    exact isCut_of_whole hfull h.fits hk
  · exact isCut_of_large h hfull hq hk

end Sum

end Calculator
