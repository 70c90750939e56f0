import Calculator.Calculation
import Calculator.Proofs.DecimalDouble
import Calculator.Proofs.Reading
import Calculator.Proofs.Sequence
import Calculator.Proofs.ShownNumber

/-!
# Reading what is shown

* `Shown.spells`, `Shown.le_maxDouble` : what is shown is written in plain form, and is in range.
* `exists_shown` : what is shown of a finite double shows a double, the integer next to it or itself.
* `tokensFrom_text`, `treeOf_text` : the tokens and the tree of a number in plain form; `tokensFrom_minus`,
  `treeOf_minus` : behind a minus.
* `calculate_signText`, `ofFloat_toFloat` : the result of a number in plain form shows the double nearest to it.
-/

namespace Calculator

set_option autoImplicit false

open Calculator.Number
open Display (magnitudeText isSnapped fractionLt plainFloor snapFloor snapTolerance)

/-! ## Size -/

/-- The greatest double, a whole number. -/
def maxNat : ℕ := (2 ^ 53 - 1) * 2 ^ 971

theorem cast_maxNat : (maxNat : ℚ) = maxDouble := by
  rw [maxNat, maxDouble, Nat.cast_mul, Nat.cast_pow, Nat.cast_sub (by decide), Nat.cast_pow, Nat.cast_one]
  rfl

theorem natCast_le_of_le_maxNat {n : ℕ} (h : n ≤ maxNat) : (n : ℚ) ≤ maxDouble := by
  rw [← cast_maxNat]
  exact Nat.cast_le.2 h

theorem maxNat_bounds : 1797693 * 10 ^ 302 ≤ maxNat ∧ 10 * maxNat < 17976932 * 10 ^ 302 := by
  decide +kernel

theorem maxDouble_bounds :
    1797693 * (10 : ℚ) ^ (302 : ℤ) ≤ maxDouble ∧ 10 * maxDouble < 17976932 * 10 ^ (302 : ℤ) := by
  have hlow : ((1797693 * 10 ^ 302 : ℕ) : ℚ) ≤ maxNat := Nat.cast_le.2 maxNat_bounds.1
  have hhigh : ((10 * maxNat : ℕ) : ℚ) < (17976932 * 10 ^ 302 : ℕ) := Nat.cast_lt.2 maxNat_bounds.2
  have hunit : ((10 ^ 302 : ℕ) : ℚ) = 10 ^ (302 : ℤ) := by
    rw [Nat.cast_pow]
    rfl
  rw [Nat.cast_mul, hunit] at hlow
  rw [Nat.cast_mul, Nat.cast_mul, hunit] at hhigh
  rw [← cast_maxNat]
  exact ⟨hlow, hhigh⟩

section Range

variable {w : ℚ} {c : ℕ} {e : ℤ}

/-- The last digits of the largest numbers in range. -/
theorem div_ten_pow_lt (hw : w ≤ maxDouble) : w / 10 ^ (302 : ℤ) < 1797693.2 := by
  have hmax := maxDouble_bounds.2
  rw [div_lt_iff₀ (by positivity)]
  linarith

theorem exponent_le_of_le_maxDouble (hw : w ≤ maxDouble) (he : (10 : ℚ) ^ e ≤ w) : e ≤ 308 := by
  by_contra hlt
  have hunit : (0 : ℚ) < 10 ^ (302 : ℤ) := by positivity
  have hpow : (10 : ℚ) ^ (302 + 7 : ℤ) ≤ 10 ^ e := zpow_le_zpow_right₀ (by norm_num) (by omega)
  have htop := div_ten_pow_lt hw
  rw [zpow_add₀ (by norm_num)] at hpow
  rw [div_lt_iff₀ hunit] at htop
  generalize (10 : ℚ) ^ (302 : ℤ) = unit at hpow htop hunit
  norm_num at hpow htop
  linarith

/-- With an exponent below the greatest one any seven digits are in range. -/
theorem digits_le_maxDouble (hc : c < 10 ^ 7) (he : e ≤ 307) : (c * 10 ^ (e - 6) : ℚ) ≤ maxDouble := by
  have hunit : (0 : ℚ) < 10 ^ (302 : ℤ) := by positivity
  have hc' : (c : ℚ) ≤ 10 ^ 7 := by exact_mod_cast hc.le
  have hpow : (10 : ℚ) ^ (e - 6) ≤ 10 ^ (302 - 1 : ℤ) := zpow_le_zpow_right₀ (by norm_num) (by omega)
  rw [zpow_sub_one₀ (by norm_num)] at hpow
  refine le_trans ?_ maxDouble_bounds.1
  generalize (10 : ℚ) ^ (302 : ℤ) = unit at hpow hunit
  calc (c * 10 ^ (e - 6) : ℚ) ≤ 10 ^ 7 * (unit * 10⁻¹) := by gcongr
    _ ≤ 1797693 * unit := by linarith

/-- A number in range is still in range when its digits are rounded. -/
theorem IsScientific.le_maxDouble (h : IsScientific w c e) (hw : w ≤ maxDouble) :
    (c * 10 ^ (e - 6) : ℚ) ≤ maxDouble := by
  have hmin := maxDouble_bounds.1
  have hunit : (0 : ℚ) < 10 ^ (302 : ℤ) := by positivity
  have htop := div_ten_pow_lt hw
  have hc := h.coefficient_bounds.2
  cases h with
  | kept low high near hne =>
    rcases (exponent_le_of_le_maxDouble hw low).lt_or_eq with he | rfl
    · exact digits_le_maxDouble hc (by omega)
    · change IsNearest (w / 10 ^ (302 : ℤ)) c at near
      have hlt : (c : ℚ) < 1797693 + 1 := by
        have := abs_le.1 near.within
        linarith
      have hle : (c : ℚ) ≤ 1797693 := by exact_mod_cast Nat.lt_succ_iff.1 (by exact_mod_cast hlt)
      exact (mul_le_mul_of_nonneg_right hle hunit.le).trans hmin
  | carried low high near =>
    have hexponent := exponent_le_of_le_maxDouble hw low
    rcases (show e ≤ 307 ∨ e = 308 ∨ e = 309 by omega) with he | rfl | rfl
    · exact digits_le_maxDouble hc he
    · refine le_trans ?_ hmin
      exact mul_le_mul_of_nonneg_right (by norm_num) hunit.le
    -- the greatest double does not round up to the next power of ten
    · change IsNearest (w / 10 ^ (302 : ℤ)) (10 ^ 7) at near
      have := abs_le.1 near.within
      generalize w / 10 ^ (302 : ℤ) = x at this htop
      norm_num at this htop
      linarith

end Range

namespace Shown

variable {w r : ℚ} {t : Text}

theorem spells (h : Shown w t r) : Spells t r := by
  cases h with
  | scientific regime h => exact spells_scientificDigits h.coefficient_bounds.1 h.coefficient_bounds.2 _
  | whole hn hw => exact spells_decimal _
  | places low high => exact spells_placesDigits (placesOf_pos (plainLimit_pos.le.trans low) high)

theorem le_maxDouble (h : Shown w t r) (hw : w ≤ maxDouble) : r ≤ maxDouble := by
  cases h with
  | scientific regime h => exact h.le_maxDouble hw
  | whole _ hwhole => exact hwhole ▸ hw
  | @places n low high hne near =>
    have hmax : (10 : ℚ) ^ 8 ≤ maxDouble := by
      have : ((10 ^ 8 : ℕ) : ℚ) ≤ maxDouble := natCast_le_maxDouble (by decide)
      exact_mod_cast this
    have hn : n ≤ 10 ^ 8 * 10 ^ placesOf w := by
      refine near.le_of_le ?_
      rw [Nat.cast_mul, Nat.cast_pow, Nat.cast_pow]
      exact mul_le_mul_of_nonneg_right high.le (by positivity)
    refine le_trans ?_ hmax
    rw [zpow_neg, zpow_natCast, ← div_eq_mul_inv, div_le_iff₀ (by positivity)]
    exact_mod_cast hn

end Shown

/-! ## What is shown of a double -/

theorem isDoubleValue_divNearest {m : ℕ} (hm : m < 2 ^ 53) {q : ℤ} (hq : -1074 ≤ q) :
    IsDoubleValue (divNearest (numerator m q) (denominator q)) := by
  rcases le_total 0 q with hle | hle
  · have hden : denominator q = 1 := by
      rw [denominator, show (-q).toNat = 0 by omega]
    have hself : divNearest (numerator m q) 1 = numerator m q := by
      simpa using divNearest_mul (numerator m q) one_pos
    exact ⟨m, q, hm, hq, by rw [value_eq_div, hden, hself, Nat.cast_one, div_one]⟩
  · have hnum : numerator m q = m := by
      rw [numerator, show q.toNat = 0 by omega]
      exact mul_one m
    have hbound : divNearest m (denominator q) ≤ m := by
      refine (isNearest_divNearest m (denominator_pos q)).le_of_le (div_le_self (Nat.cast_nonneg m) ?_)
      exact_mod_cast denominator_pos q
    exact ⟨divNearest m (denominator q), 0, hbound.trans_lt hm, by decide, by rw [hnum, zpow_zero, mul_one]⟩

/-- A number that is taken for an integer is above the lower end, and so is not taken for zero. -/
theorem of_isSnapped {num den n : ℕ} (hden : 0 < den) (h : isSnapped num den n) :
    plainLimit < (num / den : ℚ) ∧ n ≠ 0 := by
  obtain ⟨hnear, hfar⟩ := Bool.and_eq_true_iff.1 h
  have htolerance : 0 < snapTolerance.2 := by decide +kernel
  have hfloor : 0 < snapFloor.2 := by decide +kernel
  have hplain : 0 < plainFloor.2 := by decide +kernel
  have hfar' := (fractionLt_iff hfloor hden).1 hfar
  constructor
  · have hbelow := (fractionLt_iff hplain hfloor).1 (by decide +kernel : fractionLt plainFloor snapFloor)
    exact hbelow.trans hfar'
  · rintro rfl
    have habove := (fractionLt_iff htolerance hfloor).1 (by decide +kernel : fractionLt snapTolerance snapFloor)
    have hnear' := (fractionLt_iff hden htolerance).1 hnear
    rw [zero_mul, Nat.sub_zero, Nat.zero_sub, Nat.add_zero] at hnear'
    exact absurd (hnear'.trans habove) hfar'.not_gt

theorem value_le_maxDouble {m : ℕ} {q : ℤ} (h : IsDouble m q) : (m * 2 ^ q : ℚ) ≤ maxDouble := by
  have hm : (m : ℚ) ≤ 2 ^ 53 - 1 := by
    have : ((m + 1 : ℕ) : ℚ) ≤ (2 ^ 53 : ℕ) := Nat.cast_le.2 h.fits
    push_cast at this
    linarith
  exact mul_le_mul hm (zpow_le_zpow_right₀ (by norm_num) h.greatest) (by positivity) (by norm_num)

theorem divNearest_le_maxNat {m : ℕ} {q : ℤ} (h : IsDouble m q) :
    divNearest (numerator m q) (denominator q) ≤ maxNat := by
  refine (isNearest_divNearest _ (denominator_pos q)).le_of_le ?_
  rw [← value_eq_div, cast_maxNat]
  exact value_le_maxDouble h

theorem exists_shown {m : ℕ} {q : ℤ} (h : IsDouble m q) :
    ∃ w r, Shown w (magnitudeText (numerator m q) (denominator q)) r ∧ w ≤ maxDouble ∧ IsDoubleValue w ∧
      (0 < m → 0 < w) := by
  unfold magnitudeText
  simp only
  split_ifs with hsnapped
  · obtain ⟨r, hr⟩ := exists_shown_digitsText (divNearest (numerator m q) (denominator q)) one_pos
    rw [Nat.cast_one, div_one] at hr
    have hpos := Nat.pos_of_ne_zero (of_isSnapped (denominator_pos q) hsnapped).2
    refine ⟨_, r, hr, ?_, isDoubleValue_divNearest h.fits h.least, fun _ => Nat.cast_pos.2 hpos⟩
    rw [← cast_maxNat]
    exact Nat.cast_le.2 (divNearest_le_maxNat h)
  · obtain ⟨r, hr⟩ := exists_shown_digitsText (numerator m q) (denominator_pos q)
    rw [← value_eq_div] at hr
    exact ⟨_, r, hr, value_le_maxDouble h, ⟨m, q, h.fits, h.least, rfl⟩, fun hm => by positivity⟩

def signText (negative : Bool) (t : Text) : Text := if negative then '-' :: t else t

theorem text_eq {v : Float} {negative : Bool} {m : ℕ} {q : ℤ} (hv : Binary.ofFloat v = .finite negative m q) :
    Display.text v = signText (negative && m != 0) (magnitudeText (numerator m q) (denominator q)) := by
  unfold Display.text
  rw [hv]
  rfl

/-! ## Reading -/

section Reading

variable {s : Setup} {answer : Text} {u : Spelling} {negative : Bool}

theorem substituteAnswer_eq_self {t : Text} (h : 'a' ∉ t) : substituteAnswer answer t = t := by
  fun_induction substituteAnswer answer t with
  | case1 rest => exact absurd (List.mem_cons_self ..) h
  | case2 c rest _ ih => rw [ih fun hmem => h (List.mem_cons_of_mem _ hmem)]
  | case3 => rfl

/-- What a number in plain form is read as. -/
def Spelling.toFloat (u : Spelling) (negative : Bool) : Float := (Numeral.decimal negative u.digits u.scale).toFloat

theorem readFloat?_signText (u : Spelling) (negative : Bool) :
    readFloat? (signText negative u.text) = some (u.toFloat negative) := by
  cases negative with
  | false => exact congrArg (Option.map _) u.read?_text
  | true => exact congrArg (Option.map _) u.read?_minus

theorem literalTokens_text (u : Spelling) (previous : Option Expr) :
    literalTokens previous u.text = .ok (glue previous ++ [.number (u.toFloat false)]) := by
  have h : readFloat? u.text = some (u.toFloat false) := readFloat?_signText u false
  unfold literalTokens
  rw [h]

theorem tokensFrom_text (u : Spelling) (argument : Text → Except TokenError Expr) :
    tokensFrom u.text argument none (lexemes u.text) = .ok [.number (u.toFloat false)] := by
  rw [u.lexemes_text, tokensFrom, Lexeme.tokens, literalTokens_text]
  rfl

theorem tokensFrom_minus (u : Spelling) (argument : Text → Except TokenError Expr) :
    tokensFrom ('-' :: u.text) argument none (lexemes ('-' :: u.text)) =
      .ok [.bare .negate, .number (u.toFloat false)] := by
  rw [u.lexemes_minus, tokensFrom_cons_eq_ok]
  refine ⟨[.bare .negate], [.number (u.toFloat false)], rfl, ?_, rfl⟩
  rw [tokensFrom, Lexeme.tokens, literalTokens_text]
  rfl

theorem treeOf_of_tokens {t : Text} {D : Derivation .expression} (hs : 0 ≤ s.maxDepth)
    (htokens : ∀ argument, tokensFrom t argument none (lexemes t) = .ok D.tokens) (hfault : findFault D.tokens = none)
    (hnesting : D.nesting ≤ s.maxDepth.toNat) : s.treeOf t = .ok D.tree := by
  have hlevels : (s.maxDepth - 0 + 1).toNat = s.maxDepth.toNat + 1 := by omega
  rw [Setup.treeOf, treeOf_eq_treeWithin, hlevels, treeWithin_eq_ok]
  exact ⟨D.tokens, tokensWithin_succ_eq_ok.2 ⟨htokens _, fun _ => hfault⟩, treeOfTokens_tokens D hnesting⟩

theorem treeOf_text (hs : 0 ≤ s.maxDepth) (u : Spelling) : s.treeOf u.text = .ok (.number (u.toFloat false)) := by
  let D : Derivation .expression := .ofTerm (.ofFactor (.ofBase (.number (u.toFloat false))))
  exact treeOf_of_tokens (D := D) hs (tokensFrom_text u) rfl (Nat.zero_le _)

theorem treeOf_minus (hs : 1 ≤ s.maxDepth) (u : Spelling) :
    s.treeOf ('-' :: u.text) = .ok (.unary .negate (.number (u.toFloat false))) := by
  let D : Derivation .expression :=
    .ofTerm (.ofFactor (.ofBase (.signed .negate (.inl rfl) (.number (u.toFloat false)))))
  exact treeOf_of_tokens (D := D) (by omega) (tokensFrom_minus u) rfl (by show 1 ≤ _; omega)

theorem shownValue_of_evaluate {text : Text} {tree : Expr} {x : Float} (htree : tree.isFailure = false)
    (hvalue : tree.evaluate 0.0 s.angleMode = .ok (some x)) (hx : x.isFinite) :
    shownValue s text tree = Display.text x := by
  have hfinite : s.finiteValue? 0.0 tree = some x := by
    rw [Setup.finiteValue?, Setup.value?, hvalue]
    exact Option.filter_eq_some_iff.2 ⟨rfl, hx⟩
  rw [shownValue, htree, if_neg Bool.false_ne_true, hfinite]

/-- What a text gives, a mere repetition of the text included. -/
def shownText (s : Setup) (text : Text) : Text :=
  match s.treeOf text with
  | .error e => e.kind.text
  | .ok tree => shownValue s text tree

theorem calculate_eq (s : Setup) (answer problem : Text) : calculate s answer problem =
    if shownText s (substituteAnswer answer problem) = substituteAnswer answer problem ∧
        !isFiniteNumeral (substituteAnswer answer problem) then noResultText
      else shownText s (substituteAnswer answer problem) := rfl

theorem shownText_of_tree {text : Text} {tree : Expr} (h : s.treeOf text = .ok tree) :
    shownText s text = shownValue s text tree := by
  rw [shownText, h]

/-- The result of a number in plain form is the text of the double nearest to it. -/
theorem calculate_signText (hs : 1 ≤ s.maxDepth) (u : Spelling) (negative : Bool) (hu : (u.toFloat negative).isFinite) :
    calculate s answer (signText negative u.text) = Display.text (u.toFloat negative) := by
  have hanswer : 'a' ∉ signText negative u.text := by
    have hnot : 'a' ∉ u.text := fun h => absurd (u.mem_alphabet_text _ h) (by decide)
    cases negative with
    | false => exact hnot
    | true => exact List.not_mem_cons_of_ne_of_not_mem (by decide) hnot
  have hnumeral : isFiniteNumeral (signText negative u.text) := by
    rw [isFiniteNumeral, readFloat?_signText]
    exact hu
  have hshown : shownText s (signText negative u.text) = Display.text (u.toFloat negative) := by
    cases negative with
    | false => exact (shownText_of_tree (treeOf_text (by omega) u)).trans (shownValue_of_evaluate rfl rfl hu)
    | true => exact (shownText_of_tree (treeOf_minus hs u)).trans (shownValue_of_evaluate rfl rfl hu)
  rw [calculate_eq, substituteAnswer_eq_self hanswer, hshown, if_neg fun h => by simp [hnumeral] at h]

theorem ofFloat_toFloat (u : Spelling) (negative : Bool) (hu : u.value ≤ maxDouble) :
    ∃ k q m p, RoundsTo u.value k q ∧ Binary.ofFloat (u.toFloat negative) = .finite negative m p ∧
      (m * 2 ^ p : ℚ) = k * 2 ^ q := by
  obtain ⟨k, q, hrounds, hparts⟩ := rounds_toFloat negative u.digits u.scale hu
  obtain ⟨m, p, hmp, hvalue⟩ := roundedParts_eq negative k q
  exact ⟨k, q, m, p, hrounds, hparts.trans hmp, hvalue⟩

theorem isFinite_toFloat (u : Spelling) (negative : Bool) (hu : u.value ≤ maxDouble) :
    (u.toFloat negative).isFinite := by
  obtain ⟨k, q, m, p, -, hparts, -⟩ := ofFloat_toFloat u negative hu
  exact isFinite_iff.2 ⟨negative, m, p, hparts⟩

/-- The text of a finite double is a number in plain form that is in range, behind a minus if there is one. -/
theorem exists_signText {v : Float} (hv : v.isFinite) :
    ∃ (u : Spelling) (negative : Bool), Display.text v = signText negative u.text ∧ u.value ≤ maxDouble := by
  obtain ⟨negative, m, q, hparts⟩ := isFinite_iff.1 hv
  obtain ⟨w, r, hshown, hw, -⟩ := exists_shown (isDouble_of_finite hparts)
  obtain ⟨u, hu, hvalue⟩ := hshown.spells
  exact ⟨u, negative && m != 0, by rw [text_eq hparts, hu], hvalue ▸ hshown.le_maxDouble hw⟩

theorem isFiniteNumeral_text {v : Float} (hv : v.isFinite) : isFiniteNumeral (Display.text v) := by
  obtain ⟨u, negative, htext, hmax⟩ := exists_signText hv
  rw [htext, isFiniteNumeral, readFloat?_signText]
  exact isFinite_toFloat u negative hmax

end Reading

end Calculator
