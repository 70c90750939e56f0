import Calculator.Proofs.ReadBack
import Calculator.Proofs.Rereading

/-!
# Shown numbers as problems

What is shown of a number is computed again when the result is used as a problem. The digits that were rounded off may
have been those that told the number from an integer, or those that kept it from the other way of being shown.

* `isUnstable` : the text is such a case.
* `calculate_text_eq_iff` : all other texts are the results of themselves, and these are not.
* `calculate_text_below_ceiling` : numbers just below the first one with an exponent are such a case.
-/

namespace Calculator

set_option autoImplicit false

open Calculator.Number
open Display (magnitudeText isSnapped)

/-- The text is read as a number that is taken for the integer next to it. -/
def readsSnapped (t : Text) : Bool :=
  match (readFloat? t).map Binary.ofFloat with
  | some (.finite _ m q) => isSnapped (numerator m q) (denominator q) (divNearest (numerator m q) (denominator q))
  | _ => false

/-- Digits that were rounded to the first number with an exponent, or to the first one without, or so close to an
integer that they are taken for it. -/
def isUnstable (t : Text) : Bool :=
  let digits := (splitSign t).2
  digits = "100000000".toList || digits = "1E-8".toList || ('.' ∈ digits && 'E' ∉ digits && readsSnapped t)

/-! ## Signs -/

section Sign

variable {t t' : Text}

theorem signText_inj {negative : Bool} : signText negative t = signText negative t' ↔ t = t' := by
  cases negative with
  | false => exact Iff.rfl
  | true => exact List.cons_inj_right '-'

theorem sign_eq_of_pos {negative : Bool} {m k : ℕ} {q : ℤ} (h : 0 < m → (0 : ℚ) < k * 2 ^ q) :
    ((negative && m != 0) && k != 0) = (negative && m != 0) := by
  rcases Nat.eq_zero_or_pos m with rfl | hm
  · simp
  · have hk : k ≠ 0 := by
      rintro rfl
      simpa using h hm
    simp [hk]

theorem splitSign_signText (u : Spelling) (negative : Bool) :
    splitSign (signText negative u.text) = (negative, u.text) := by
  cases negative with
  | false =>
    obtain ⟨c, rest, htext, hc⟩ := u.exists_text_eq
    rw [signText, if_neg Bool.false_ne_true, htext]
    exact Spelling.splitSign_of_isDigit hc
  | true => rfl

theorem isUnstable_signText (u : Spelling) (negative : Bool) : isUnstable (signText negative u.text) =
    (u.text = "100000000".toList || u.text = "1E-8".toList ||
      ('.' ∈ u.text && 'E' ∉ u.text && readsSnapped (signText negative u.text))) := by
  rw [isUnstable, splitSign_signText]

theorem readsSnapped_eq {x : Float} {negative : Bool} {m : ℕ} {q : ℤ} (hread : readFloat? t = some x)
    (hparts : Binary.ofFloat x = .finite negative m q) :
    readsSnapped t = isSnapped (numerator m q) (denominator q) (divNearest (numerator m q) (denominator q)) := by
  rw [readsSnapped, hread, Option.map_some, hparts]

end Sign

/-! ## Digits -/

theorem Shown.mark_of_point {n : ℕ} {t : Text} {r : ℚ} (h : Shown n t r) (hpoint : '.' ∈ t) : 'E' ∈ t := by
  generalize hw : (n : ℚ) = w at h
  cases h with
  | scientific => exact List.mem_append_right _ (List.mem_cons_self ..)
  | whole => exact absurd (Spelling.isDigit_decimal _ hpoint) (by decide)
  | places _ _ hne => exact absurd hw.symm (hne n)

/-- The digits of a number that is shown as `t` are `t`, unless the number is taken for an integer and `t` is not. -/
theorem magnitudeText_eq_iff {num den : ℕ} (hden : 0 < den) {t : Text} {r : ℚ} (h : Shown (num / den) t r)
    (hkind : (∃ j : ℕ, (num / den : ℚ) = j) ∨ (num / den : ℚ) < plainLimit ∨ '.' ∈ t ∧ 'E' ∉ t) :
    magnitudeText num den = t ↔ ¬('.' ∈ t ∧ 'E' ∉ t ∧ isSnapped num den (divNearest num den)) := by
  unfold magnitudeText
  simp only
  split_ifs with hsnapped
  · obtain ⟨r', hr'⟩ := exists_shown_digitsText (divNearest num den) one_pos
    rw [Nat.cast_one, div_one] at hr'
    rcases hkind with ⟨j, hj⟩ | hsmall | ⟨hpoint, hmark⟩
    · have hself : divNearest num den = j := (divNearest_eq_iff hden).2 (hj ▸ IsNearest.of_lt (by simp))
      rw [hself] at hr' ⊢
      rw [hj] at h
      exact iff_of_true (hr'.unique h) fun hbad => hbad.2.1 (h.mark_of_point hbad.1)
    · exact absurd hsmall (of_isSnapped hden hsnapped).1.not_gt
    · refine iff_of_false (fun heq => ?_) fun hgood => hgood ⟨hpoint, hmark, hsnapped⟩
      rw [heq] at hr'
      exact hmark (hr'.mark_of_point hpoint)
  · obtain ⟨r', hr'⟩ := exists_shown_digitsText num hden
    exact iff_of_true (hr'.unique h) fun hbad => hsnapped hbad.2.2

/-- At the two ends of the numbers without an exponent the other way of being shown is taken. -/
theorem text_ne_of_end : ∀ negative : Bool, ∀ t ∈ ["100000000".toList, "1E-8".toList],
    (readFloat? (signText negative t)).map Display.text ≠ some (signText negative t) := by
  decide +kernel

/-! ## Results -/

variable {s : Setup} {v : Float}

/-- **What is shown of a number is the result of itself**, exactly if it is no unstable text. -/
theorem calculate_text_eq_iff (hs : 1 ≤ s.maxDepth) (hv : v.isFinite) (answer : Text) :
    calculate s answer (Display.text v) = Display.text v ↔ isUnstable (Display.text v) = false := by
  obtain ⟨negative, m, q, hparts⟩ := isFinite_iff.1 hv
  obtain ⟨w, r, hshown, hmax, hdouble, hpos⟩ := exists_shown (isDouble_of_finite hparts)
  obtain ⟨u, hu, rfl⟩ := hshown.spells
  have hrange := hshown.le_maxDouble hmax
  rw [text_eq hparts, ← hu]
  rw [← hu] at hshown
  set sign := negative && m != 0
  have hread := readFloat?_signText u sign
  rw [isUnstable_signText, calculate_signText hs u sign (isFinite_toFloat u sign hrange)]
  by_cases hend : u.text ∈ ["100000000".toList, "1E-8".toList]
  · refine iff_of_false (fun heq => text_ne_of_end sign u.text hend ?_) ?_
    · rw [hread, Option.map_some, heq]
    · simp only [List.mem_cons, List.not_mem_nil, or_false] at hend
      rcases hend with hend | hend <;> simp only [hend, decide_true, Bool.true_or, Bool.or_true, Bool.true_eq_false,
        not_false_eq_true]
  -- away from the two ends the number that is read is shown by the same digits, unless it is taken for an integer
  obtain ⟨k, p, m', p', hrounds, hparts', hvalue⟩ := ofFloat_toFloat u sign hrange
  simp only [List.mem_cons, List.not_mem_nil, or_false, not_or] at hend
  have hagain := hshown.reread hdouble hrounds hend.1 hend.2
  have hkind := hagain.whole_or_small_or_point hrounds
  rw [← hvalue] at hagain hkind
  have hkept : (sign && m' != 0) = sign := sign_eq_of_pos fun hm => hagain.pos_iff.2 (hshown.pos_iff.1 (hpos hm))
  rw [value_eq_div] at hagain hkind
  rw [text_eq hparts', hkept, signText_inj, magnitudeText_eq_iff (denominator_pos p') hagain hkind,
    readsSnapped_eq hread hparts', decide_eq_false hend.1, decide_eq_false hend.2]
  simp

/-- A graph is no obstacle. -/
theorem calculate_text_third : calculate ⟨.degrees, true, defaultMaxDepth⟩ [] (Display.text (-1.0 / 3.0)) =
    Display.text (-1.0 / 3.0) :=
  (calculate_text_eq_iff (by decide) (by decide +kernel) []).2 (by decide +kernel)

/-- Digits that were rounded to the first number with an exponent get the exponent only as a problem. -/
theorem calculate_text_below_ceiling : Display.text 99999999.99995 = "100000000".toList ∧
    calculate ⟨.radians, false, defaultMaxDepth⟩ [] "100000000".toList = "1E8".toList := by
  decide +kernel

end Calculator
