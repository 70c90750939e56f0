import Calculator.Number.Numeral
import Calculator.Token.Lexeme
import Mathlib.Algebra.Order.Field.Rat
import Mathlib.Algebra.Order.Field.Power
import Mathlib.Tactic.IntervalCases
import Mathlib.Tactic.Ring

/-!
# Spelled numbers

The plain form in which numbers are shown: digits, then places behind a point, then an exponent behind a mark.

* `Spelling`, `Spelling.text`, `Spelling.value` : the form, how it is written and what it means.
* `read?_text`, `read?_minus` : a numeral that is written so is read as its value, with its sign.
* `lexemes_text`, `lexemes_minus` : as an expression it is one literal, and a minus in front of it is a sign.
-/

namespace Calculator

set_option autoImplicit false

open Calculator.Number
open Calculator.Text (decimal decimalInt isNumeralBlank trim dropTail lowerAscii)

/-- A number as it is written without a sign. -/
structure Spelling where
  whole : Text
  places : Text
  exponent : Option Int
  whole_ne_nil : whole ≠ []
  isDigit_whole : ∀ c ∈ whole, c.isDigit
  isDigit_places : ∀ c ∈ places, c.isDigit

namespace Spelling

def pointText : Text → Text
  | [] => []
  | c :: places => '.' :: c :: places

def markText : Option Int → Text
  | none => []
  | some e => 'E' :: decimalInt e

def text (s : Spelling) : Text := s.whole ++ (pointText s.places ++ markText s.exponent)

def digits (s : Spelling) : Nat := Nat.ofDigitChars 10 (s.whole ++ s.places) 0

/-- The exponent of the last digit. -/
def scale (s : Spelling) : Int := s.exponent.getD 0 - s.places.length

def value (s : Spelling) : ℚ := s.digits * 10 ^ s.scale

/-! ## Characters -/

/-- The characters of written numbers. -/
def alphabet : List Char := "0123456789.E-".toList

theorem mem_alphabet_of_isDigit {c : Char} (h : c.isDigit) : c ∈ alphabet := by
  simp only [Char.isDigit, Bool.and_eq_true, decide_eq_true_eq, ge_iff_le, UInt32.le_iff_toNat_le] at h
  have hc : c = Char.ofNat c.toNat := (Char.ofNat_toNat c).symm
  have hlow : 48 ≤ c.toNat := h.1
  have hhigh : c.toNat ≤ 57 := h.2
  rw [hc]
  generalize c.toNat = n at hlow hhigh
  interval_cases n <;> decide

theorem isDigit_decimal {n : Nat} : ∀ c ∈ decimal n, c.isDigit := fun _ h =>
  Nat.isDigit_of_mem_toDigits (by decide) (by decide) h

theorem mem_alphabet_decimalInt {e : Int} : ∀ c ∈ decimalInt e, c ∈ alphabet := by
  intro c hc
  cases e with
  | ofNat n => exact mem_alphabet_of_isDigit (isDigit_decimal c hc)
  | negSucc n =>
    rcases List.mem_cons.1 hc with rfl | hc
    · decide
    · exact mem_alphabet_of_isDigit (isDigit_decimal c hc)

theorem mem_alphabet_text (s : Spelling) : ∀ c ∈ s.text, c ∈ alphabet := by
  intro c hc
  rcases List.mem_append.1 hc with hc | hc
  · exact mem_alphabet_of_isDigit (s.isDigit_whole c hc)
  rcases List.mem_append.1 hc with hc | hc
  · have hplaces := s.isDigit_places
    cases hp : s.places with
    | nil =>
      rw [hp] at hc
      exact nomatch hc
    | cons d places =>
      rw [hp] at hc hplaces
      rcases List.mem_cons.1 hc with rfl | hc
      · decide
      · exact mem_alphabet_of_isDigit (hplaces c hc)
  · cases he : s.exponent with
    | none =>
      rw [he] at hc
      exact nomatch hc
    | some e =>
      rw [he] at hc
      rcases List.mem_cons.1 hc with rfl | hc
      · decide
      · exact mem_alphabet_decimalInt c hc

/-! ## Numerals -/

theorem trim_eq_self {p : Char → Bool} {t : Text} (h : ∀ c ∈ t, p c = false) : trim p t = t := by
  have hdrop : ∀ u : Text, (∀ c ∈ u, p c = false) → u.dropWhile p = u := by
    intro u hu
    cases u with
    | nil => rfl
    | cons c u => exact List.dropWhile_cons_of_neg (by simp [hu c (List.mem_cons_self ..)])
  rw [trim, dropTail, hdrop t h, hdrop _ fun c hc => h c (List.mem_reverse.1 hc), List.reverse_reverse]

theorem plain_eq_self {t : Text} (h : ∀ c ∈ t, c ∈ alphabet) : plain t = t := by
  have hplain : alphabet.all fun c => !isNumeralBlank c && plainDigit c == c := by decide
  have hall : ∀ c ∈ alphabet, isNumeralBlank c = false ∧ plainDigit c = c := by simpa using hplain
  rw [plain, trim_eq_self fun c hc => (hall c (h c hc)).1]
  exact (List.map_congr_left fun c hc => (hall c (h c hc)).2).trans (List.map_id' t)

theorem dropUnderscores?_eq_self {t : Text} (h : ∀ c ∈ t, c ∈ alphabet) (afterDigit : Bool) :
    dropUnderscores? afterDigit t = some t := by
  induction t generalizing afterDigit with
  | nil => rfl
  | cons c t ih =>
    have hc : c ≠ '_' := by
      rintro rfl
      exact absurd (h _ (List.mem_cons_self ..)) (by decide)
    rw [dropUnderscores?, ih fun d hd => h d (List.mem_cons_of_mem _ hd)]
    · rfl
    · exact hc

theorem exists_text_eq (s : Spelling) : ∃ c rest, s.text = c :: rest ∧ c.isDigit := by
  obtain ⟨c, rest, hwhole⟩ := List.exists_cons_of_ne_nil s.whole_ne_nil
  refine ⟨c, rest ++ (pointText s.places ++ markText s.exponent), ?_, ?_⟩
  · rw [text, hwhole]
    rfl
  · exact s.isDigit_whole c (hwhole ▸ List.mem_cons_self ..)

theorem splitSign_of_isDigit {c : Char} {rest : Text} (h : c.isDigit) : splitSign (c :: rest) = (false, c :: rest) := by
  unfold splitSign
  split
  · rename_i heq
    obtain ⟨rfl, -⟩ := List.cons.inj heq
    exact absurd h (by decide)
  · rename_i heq
    obtain ⟨rfl, -⟩ := List.cons.inj heq
    exact absurd h (by decide)
  · rfl

theorem word?_of_isDigit {c : Char} {rest : Text} (h : c.isDigit) (negative : Bool) :
    word? negative (c :: rest) = none := by
  have hword : alphabet.all fun d => d.toLower ∉ ['i', 'n'] := by decide
  have hall : ∀ d ∈ alphabet, d.toLower ∉ ['i', 'n'] := fun d hd => of_decide_eq_true (List.all_eq_true.1 hword d hd)
  have hc := hall c (mem_alphabet_of_isDigit h)
  have hne (d : Char) (word : Text) (hd : d ∈ ['i', 'n']) : lowerAscii (c :: rest) ≠ d :: word := by
    intro heq
    exact hc ((List.cons.inj heq).1 ▸ hd)
  rw [word?, if_neg, if_neg]
  · exact hne 'n' "an".toList (by decide)
  · exact not_or.2 ⟨hne 'i' "nf".toList (by decide), hne 'i' "nfinity".toList (by decide)⟩

theorem read?_eq {t : Text} (h : ∀ c ∈ t, c ∈ alphabet) : Numeral.read? t =
    (word? (splitSign t).1 (splitSign t).2).or (unsigned? (splitSign t).1 (splitSign t).2) := by
  rw [Numeral.read?, plain_eq_self h, dropUnderscores?_eq_self h]
  rfl

theorem ofDigitChars_decimal (n : Nat) : Nat.ofDigitChars 10 (decimal n) 0 = n := Nat.ofDigitChars_ten_toDigits

theorem exponent?_markText (e : Option Int) : exponent? (markText e) = some (e.getD 0) := by
  cases e with
  | none => rfl
  | some e =>
    have hall (n : Nat) : (decimal n).all Char.isDigit := List.all_eq_true.2 isDigit_decimal
    have hne (n : Nat) : decimal n ≠ [] := Nat.toDigits_ne_nil
    rw [markText, exponent?, if_pos (.inr rfl)]
    cases e with
    | ofNat n =>
      obtain ⟨c, rest, hn⟩ := List.exists_cons_of_ne_nil (hne n)
      have hsplit : splitSign (decimalInt (.ofNat n)) = (false, decimal n) := by
        show splitSign (decimal n) = _
        rw [hn]
        exact splitSign_of_isDigit (isDigit_decimal c (hn ▸ List.mem_cons_self ..))
      rw [hsplit]
      simp only
      rw [if_pos ⟨hne n, hall n⟩, ofDigitChars_decimal]
      rfl
    | negSucc n =>
      have hsplit : splitSign (decimalInt (.negSucc n)) = (true, decimal (n + 1)) := rfl
      rw [hsplit]
      simp only
      rw [if_pos ⟨hne _, hall _⟩, ofDigitChars_decimal]
      rfl

theorem unsigned?_text (s : Spelling) (negative : Bool) :
    unsigned? negative s.text = some (.decimal negative s.digits s.scale) := by
  have hmark : (markText s.exponent).takeWhile Char.isDigit = [] ∧
      (markText s.exponent).dropWhile Char.isDigit = markText s.exponent := by
    cases s.exponent <;> exact ⟨rfl, rfl⟩
  have hpoint : (pointText s.places ++ markText s.exponent).takeWhile Char.isDigit = [] ∧
      (pointText s.places ++ markText s.exponent).dropWhile Char.isDigit =
        pointText s.places ++ markText s.exponent := by
    cases s.places with
    | nil => exact hmark
    | cons => exact ⟨rfl, rfl⟩
  have hwhole : s.text.takeWhile Char.isDigit = s.whole := by
    rw [text, List.takeWhile_append_of_pos s.isDigit_whole, hpoint.1, List.append_nil]
  have hrest : s.text.dropWhile Char.isDigit = pointText s.places ++ markText s.exponent := by
    rw [text, List.dropWhile_append_of_pos s.isDigit_whole, hpoint.2]
  have hread : unsigned? negative s.text = (exponent? (markText s.exponent)).map fun e =>
      .decimal negative (Nat.ofDigitChars 10 (s.whole ++ s.places) 0) (e - s.places.length) := by
    have hne : ¬(s.whole = [] ∧ s.places = []) := fun h => s.whole_ne_nil h.1
    have hdigits := s.isDigit_places
    unfold unsigned?
    simp only [hwhole, hrest]
    cases hp : s.places with
    | nil =>
      rw [hp] at hne
      cases s.exponent <;> exact if_neg hne
    | cons c places =>
      rw [hp] at hne hdigits
      have hcons : pointText (c :: places) ++ markText s.exponent = '.' :: (c :: places ++ markText s.exponent) := rfl
      simp only [hcons]
      rw [List.takeWhile_append_of_pos hdigits, List.dropWhile_append_of_pos hdigits, hmark.1, hmark.2, List.append_nil,
        if_neg hne]
  rw [hread, exponent?_markText]
  rfl

theorem read?_text (s : Spelling) : Numeral.read? s.text = some (.decimal false s.digits s.scale) := by
  obtain ⟨c, rest, htext, hc⟩ := s.exists_text_eq
  have hread := s.unsigned?_text false
  rw [read?_eq s.mem_alphabet_text]
  rw [htext] at hread ⊢
  rw [splitSign_of_isDigit hc, word?_of_isDigit hc, Option.none_or, hread]

theorem read?_minus (s : Spelling) : Numeral.read? ('-' :: s.text) = some (.decimal true s.digits s.scale) := by
  obtain ⟨c, rest, htext, hc⟩ := s.exists_text_eq
  have hread := s.unsigned?_text true
  rw [read?_eq (List.forall_mem_cons.2 ⟨by decide, s.mem_alphabet_text⟩)]
  show (word? true s.text).or (unsigned? true s.text) = _
  rw [htext] at hread ⊢
  rw [word?_of_isDigit hc, Option.none_or, hread]

/-! ## Expressions -/

theorem isLiteralChar_of_isDigit {c : Char} (h : c.isDigit) : isLiteralChar c := by
  simp [isLiteralChar, h]

theorem takeLiteral_append_of_literal {t u : Text} (ht : ∀ c ∈ t, isLiteralChar c)
    (hu : ∀ afterMark, takeLiteral afterMark u = (u, [])) (afterMark : Bool) :
    takeLiteral afterMark (t ++ u) = (t ++ u, []) := by
  induction t generalizing afterMark with
  | nil => exact hu afterMark
  | cons c t ih =>
    have hc : isLiteralChar c := ht c (List.mem_cons_self ..)
    rw [List.cons_append, takeLiteral, hc, Bool.true_or, if_pos rfl, ih fun d hd => ht d (List.mem_cons_of_mem _ hd)]

theorem takeLiteral_of_literal {t : Text} (ht : ∀ c ∈ t, isLiteralChar c) (afterMark : Bool) :
    takeLiteral afterMark t = (t, []) := by
  have := takeLiteral_append_of_literal ht (u := []) (fun _ => rfl) afterMark
  rwa [List.append_nil] at this

theorem takeLiteral_markText (e : Option Int) (afterMark : Bool) :
    takeLiteral afterMark (markText e) = (markText e, []) := by
  have hdigits (n : Nat) : ∀ c ∈ decimal n, isLiteralChar c := fun c hc =>
    isLiteralChar_of_isDigit (isDigit_decimal c hc)
  cases e with
  | none => rfl
  | some e =>
    cases e with
    | ofNat n =>
      refine takeLiteral_of_literal (fun c hc => ?_) afterMark
      rcases List.mem_cons.1 hc with rfl | hc
      · decide
      · exact hdigits n c hc
    | negSucc n =>
      show takeLiteral afterMark ('E' :: '-' :: decimal (n + 1)) = _
      rw [takeLiteral, if_pos (by rfl), takeLiteral, if_pos (by decide), takeLiteral_of_literal (hdigits _)]
      rfl

theorem takeLiteral_text (s : Spelling) (afterMark : Bool) : takeLiteral afterMark s.text = (s.text, []) := by
  have hpoint : ∀ c ∈ pointText s.places, isLiteralChar c := by
    have hdigits := s.isDigit_places
    cases hp : s.places with
    | nil => exact fun c hc => nomatch hc
    | cons d places =>
      rw [hp] at hdigits
      exact List.forall_mem_cons.2 ⟨by decide, fun c hc => isLiteralChar_of_isDigit (hdigits c hc)⟩
  refine takeLiteral_append_of_literal (fun c hc => isLiteralChar_of_isDigit (s.isDigit_whole c hc)) (fun b => ?_) _
  exact takeLiteral_append_of_literal hpoint (takeLiteral_markText s.exponent) b

theorem lexemes_text (s : Spelling) : lexemes s.text = [.literal s.text] := by
  obtain ⟨c, rest, htext, hdigit⟩ := s.exists_text_eq
  have hc := isLiteralChar_of_isDigit hdigit
  have htake : takeLiteral (c == 'E') rest = (rest, []) := by
    have := s.takeLiteral_text false
    rw [htext, takeLiteral, hc, Bool.true_or, if_pos rfl] at this
    obtain ⟨hrun, hafter⟩ := Prod.mk.inj this
    exact Prod.ext (List.cons.inj hrun).2 hafter
  rw [htext, lexemes, if_pos hc, htake]
  show .literal (c :: rest) :: lexemes [] = _
  rw [lexemes]

theorem lexemes_minus (s : Spelling) : lexemes ('-' :: s.text) = [.sign .subtract, .literal s.text] := by
  rw [lexemes, if_neg (by decide), if_neg (by decide), if_neg (by decide), ← s.lexemes_text]
  rfl

end Spelling

end Calculator
