import Calculator.Proofs.ReadBack
import Calculator.Proofs.Rereading
import Calculator.Proofs.RoundedArithmetic

/-!
# The value that is shown

What is shown of a double writes a decimal number. It is found in two steps: a magnitude close to an integer is taken
for the integer, and what it is taken for is rounded to digits.

* `writtenDecimal?` : the decimal number that a text writes, exactly.
* `snaps` : the double is taken for the integer next to it.
* `Taken`, `taken_mono` : what a magnitude is taken for; greater magnitudes are taken for no smaller numbers.
* `exists_shownValue` : the decimal number that is shown of a finite double.
-/

namespace Calculator

set_option autoImplicit false

open Calculator.Number
open Display (fraction magnitudeText isSnapped fractionLt plainFloor snapFloor snapTolerance)

/-! ## Decimal numbers -/

/-- The decimal number that a text writes, exactly. -/
def writtenDecimal? (t : Text) : Option ℚ :=
  match Numeral.read? t with
  | some (.decimal negative digits exponent) => some (signed negative (digits * 10 ^ exponent))
  | _ => none

theorem writtenDecimal?_signText (u : Spelling) (negative : Bool) :
    writtenDecimal? (signText negative u.text) = some (signed negative u.value) := by
  unfold writtenDecimal?
  cases negative with
  | false =>
    rw [signText, if_neg Bool.false_ne_true, u.read?_text]
    rfl
  | true =>
    rw [signText, if_pos rfl, u.read?_minus]
    rfl

/-! ## Integers -/

/-- Numbers closer than this to an integer are shown as the integer. -/
def snapLimit : ℚ := snapTolerance.1 / snapTolerance.2

def snapBottom : ℚ := snapFloor.1 / snapFloor.2

def snaps (x : Float) : Bool :=
  isSnapped (fraction x).1 (fraction x).2 (divNearest (fraction x).1 (fraction x).2)

theorem snapTolerance_eq : snapTolerance = (4533471823554859, 2 ^ 77) := by decide +kernel

theorem snapFloor_eq : snapFloor = (5764607523034235, 2 ^ 59) := by decide +kernel

theorem snapLimit_lt : snapLimit < 3 * 10 ^ (-8 : ℤ) := by
  rw [snapLimit, snapTolerance_eq]
  norm_num

theorem snapLimit_lt_snapBottom : snapLimit < snapBottom := by
  rw [snapLimit, snapBottom, snapTolerance_eq, snapFloor_eq]
  norm_num

theorem plainLimit_lt_snapBottom : plainLimit < snapBottom := by
  rw [plainLimit_eq, snapBottom, snapFloor_eq]
  norm_num

theorem snapBottom_lt_half : snapBottom < 1 / 2 := by
  rw [snapBottom, snapFloor_eq]
  norm_num

/-- The magnitude `x` is taken for the integer next to it, or for itself. -/
inductive Taken (x : ℚ) : ℚ → Prop where
  | integer {n : ℕ} (near : |x - n| < snapLimit) (far : snapBottom < x) : Taken x n
  | itself (h : ∀ n : ℕ, |x - n| < snapLimit → x ≤ snapBottom) : Taken x x

theorem isSnapped_iff {num den n : ℕ} (hden : 0 < den) :
    isSnapped num den n ↔ |(num / den : ℚ) - n| < snapLimit ∧ snapBottom < (num / den : ℚ) := by
  have hden' : (0 : ℚ) < den := by exact_mod_cast hden
  have htolerance : 0 < snapTolerance.2 := by decide +kernel
  have hfloor : 0 < snapFloor.2 := by decide +kernel
  have hdistance : ((num - n * den + (n * den - num) : ℕ) / den : ℚ) = |(num / den : ℚ) - n| := by
    rcases le_total num (n * den) with hle | hle
    · have hle' : (num : ℚ) ≤ n * den := by exact_mod_cast hle
      have hquotient : (num / den : ℚ) ≤ n := (div_le_iff₀ hden').2 hle'
      rw [abs_of_nonpos (by linarith), Nat.sub_eq_zero_of_le hle, zero_add, Nat.cast_sub hle, sub_div, Nat.cast_mul,
        mul_div_cancel_right₀ _ hden'.ne', neg_sub]
    · have hle' : (n * den : ℚ) ≤ num := by exact_mod_cast hle
      have hquotient : (n : ℚ) ≤ num / den := (le_div_iff₀ hden').2 hle'
      rw [abs_of_nonneg (by linarith), Nat.sub_eq_zero_of_le hle, add_zero, Nat.cast_sub hle, sub_div, Nat.cast_mul,
        mul_div_cancel_right₀ _ hden'.ne']
  rw [isSnapped, Bool.and_eq_true, fractionLt_iff hden htolerance, fractionLt_iff hfloor hden, hdistance]
  rfl

theorem taken_mono {x y w v : ℚ} (hx : Taken x w) (hy : Taken y v) (h : x ≤ y) : w ≤ v := by
  have hlimit := snapLimit_lt_snapBottom
  have hhalf := snapBottom_lt_half
  cases hx with
  | @integer n near far =>
    obtain ⟨hlow, hhigh⟩ := abs_lt.1 near
    cases hy with
    | @integer n' near' far' =>
      obtain ⟨hlow', hhigh'⟩ := abs_lt.1 near'
      have hlt : (n : ℚ) < n' + 1 := by linarith
      exact_mod_cast Nat.lt_succ_iff.1 (by exact_mod_cast hlt)
    | itself hy =>
      by_contra hlt
      have hlt := not_le.1 hlt
      have := hy n (abs_lt.2 ⟨by linarith, by linarith⟩)
      linarith
  | itself hx =>
    cases hy with
    | @integer n near far =>
      obtain ⟨hlow, hhigh⟩ := abs_lt.1 near
      by_contra hlt
      have hlt := not_le.1 hlt
      have hsmall := hx n (abs_lt.2 ⟨by linarith, by linarith⟩)
      have hn : (n : ℚ) < 1 := by linarith
      have hn : n = 0 := Nat.lt_one_iff.1 (by exact_mod_cast hn)
      rw [hn, Nat.cast_zero] at hhigh
      linarith
    | itself => exact h

/-! ## Zero -/

theorem taken_zero {w : ℚ} (h : Taken 0 w) : w = 0 := by
  have hbottom : 0 < snapBottom := plainLimit_pos.trans plainLimit_lt_snapBottom
  generalize hx : (0 : ℚ) = x at h
  cases h with
  | integer near far =>
    rw [← hx] at far
    exact absurd far hbottom.not_gt
  | itself => rfl

theorem taken_nonneg {x w : ℚ} (h : Taken x w) (hx : 0 ≤ x) : 0 ≤ w := by
  cases h with
  | integer => positivity
  | itself => exact hx

theorem Shown.nonneg {w r : ℚ} {t : Text} (h : Shown w t r) : 0 ≤ r := by
  cases h <;> positivity

theorem Shown.eq_zero {t : Text} {r : ℚ} (h : Shown 0 t r) : r = 0 := by
  generalize hw : (0 : ℚ) = w at h
  cases h with
  | scientific regime =>
    rw [← hw] at regime
    rcases regime with h | ⟨h, -⟩
    · norm_num at h
    · exact absurd h (lt_irrefl _)
  | whole hn hwhole => exact hwhole.symm
  | places low =>
    rw [← hw] at low
    exact absurd low plainLimit_pos.not_ge

/-! ## Doubles -/

section Doubles

variable {v : Float} {a : Bool} {m : ℕ} {q : ℤ}

theorem snaps_iff (h : Binary.ofFloat v = .finite a m q) :
    snaps v ↔ ∃ n : ℕ, |(m * 2 ^ q : ℚ) - n| < snapLimit ∧ snapBottom < (m * 2 ^ q : ℚ) := by
  have hfraction : fraction v = (numerator m q, denominator q) := by rw [fraction, h]
  have hden := denominator_pos q
  rw [snaps, hfraction, isSnapped_iff hden, value_eq_div]
  refine ⟨fun hsnaps => ⟨_, hsnaps⟩, fun ⟨n, hnear, hfar⟩ => ?_⟩
  have hhalf := snapLimit_lt_snapBottom.trans snapBottom_lt_half
  have hn : divNearest (numerator m q) (denominator q) = n :=
    (divNearest_eq_iff hden).2 (IsNearest.of_lt (hnear.trans hhalf))
  exact ⟨by rwa [hn], hfar⟩

theorem snaps_of_integer (h : Binary.ofFloat v = .finite a m q) {n : ℕ} (near : |(m * 2 ^ q : ℚ) - n| < snapLimit)
    (far : snapBottom < (m * 2 ^ q : ℚ)) : snaps v :=
  (snaps_iff h).2 ⟨n, near, far⟩

theorem not_snaps_of_itself (h : Binary.ofFloat v = .finite a m q)
    (hitself : ∀ n : ℕ, |(m * 2 ^ q : ℚ) - n| < snapLimit → (m * 2 ^ q : ℚ) ≤ snapBottom) : ¬snaps v := by
  intro hsnaps
  obtain ⟨n, near, far⟩ := (snaps_iff h).1 hsnaps
  exact far.not_ge (hitself n near)

/-- What is shown of a finite double: the digits of what its magnitude is taken for. -/
theorem exists_shownValue (h : Binary.ofFloat v = .finite a m q) : ∃ w t r, Taken (m * 2 ^ q) w ∧ IsDoubleValue w ∧
    Shown w t r ∧ Display.text v = signText (a && m != 0) t ∧ writtenDecimal? (Display.text v) = some (signed a r) := by
  have hdouble := isDouble_of_finite h
  have hden := denominator_pos q
  have htaken : ∃ w r, Taken (m * 2 ^ q) w ∧ IsDoubleValue w ∧
      Shown w (magnitudeText (numerator m q) (denominator q)) r := by
    unfold magnitudeText
    simp only
    split_ifs with hsnapped
    · obtain ⟨hnear, hfar⟩ := (isSnapped_iff hden).1 hsnapped
      obtain ⟨r, hr⟩ := exists_shown_digitsText (divNearest (numerator m q) (denominator q)) one_pos
      rw [Nat.cast_one, div_one] at hr
      rw [value_eq_div]
      exact ⟨_, r, .integer hnear hfar, isDoubleValue_divNearest hdouble.fits hdouble.least, hr⟩
    · obtain ⟨r, hr⟩ := exists_shown_digitsText (numerator m q) hden
      rw [← value_eq_div] at hr
      refine ⟨_, r, .itself fun n hnear => ?_, ⟨m, q, hdouble.fits, hdouble.least, rfl⟩, hr⟩
      by_contra hfar
      have hsnaps := (snaps_iff h).2 ⟨n, hnear, not_le.1 hfar⟩
      rw [snaps, fraction, h] at hsnaps
      exact hsnapped hsnaps
  obtain ⟨w, r, hw, hwdouble, hshown⟩ := htaken
  refine ⟨w, _, r, hw, hwdouble, hshown, text_eq h, ?_⟩
  obtain ⟨u, hu, hr⟩ := hshown.spells
  rw [text_eq h, ← hu, writtenDecimal?_signText, hr]
  rcases Nat.eq_zero_or_pos m with rfl | hm
  · rw [Nat.cast_zero, zero_mul] at hw
    obtain rfl := taken_zero hw
    rw [hshown.eq_zero, signed_zero, signed_zero]
  · have hne : (m != 0) = true := bne_iff_ne.2 hm.ne'
    rw [hne, Bool.and_true]

end Doubles

end Calculator
