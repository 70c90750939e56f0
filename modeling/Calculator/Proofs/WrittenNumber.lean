import Calculator.Json.Reader
import Calculator.Json.Writer
import Calculator.Proofs.ShortestText

/-!
# Numbers in JSON

* `EndsNumber` : what may follow a number.
* `readNumber_parts` : the parts of a number are told apart.
* `readValue_decimalInt` : a written whole number is read back.
* `float_cases`, `readNumber_shortestText`, `readValue_writtenFloat` : so is a written double, also one that is written
  as a word.
-/

namespace Calculator.Json

set_option autoImplicit false

open Float.Model (UnpackedFloat)
open Calculator.Number
open Calculator.Text (decimal decimalInt zeroFill)
open Spelling (pointText signedMark isDigit_decimal ofDigitChars_decimal)

/-! ## Runs of digits -/

/-- No number goes on with `rest`. -/
def EndsNumber (rest : Text) : Prop := ∀ c ∈ rest.head?, ¬c.isDigit ∧ c ≠ '.' ∧ c ≠ 'e' ∧ c ≠ 'E'

def EndsDigits (rest : Text) : Prop := ∀ c ∈ rest.head?, ¬c.isDigit

theorem EndsNumber.endsDigits {rest : Text} (h : EndsNumber rest) : EndsDigits rest := fun c hc => (h c hc).1

theorem takeWhile_digits {t rest : Text} (ht : ∀ c ∈ t, c.isDigit) (hrest : EndsDigits rest) :
    (t ++ rest).takeWhile Char.isDigit = t := by
  rw [List.takeWhile_append_of_pos ht]
  cases rest with
  | nil => exact List.append_nil t
  | cons c rest => rw [List.takeWhile_cons_of_neg (hrest c rfl), List.append_nil]

/-- The digits before the point, of which a leading zero is alone. -/
theorem wholeRun_append {t rest : Text} (hne : t ≠ []) (ht : ∀ c ∈ t, c.isDigit)
    (hzero : t.head? = some '0' → t = ['0']) (hrest : EndsDigits rest) : wholeRun (t ++ rest) = t := by
  unfold wholeRun
  split
  · rename_i heq
    refine (hzero ?_).symm
    rw [← List.head?_append_of_ne_nil _ hne, heq]
    rfl
  · exact takeWhile_digits ht hrest

theorem splitMinus_of_isDigit {c : Char} (h : c.isDigit) (t : Text) : splitMinus (c :: t) = (false, c :: t) := by
  unfold splitMinus
  split
  · rename_i heq
    rw [(List.cons.inj heq).1] at h
    exact absurd h (by decide)
  · rfl

/-! ## The parts of a number -/

theorem readExponent_of_ends {rest : Text} (h : EndsNumber rest) : readExponent rest = (none, rest) := by
  cases rest with
  | nil => rfl
  | cons c rest =>
    obtain ⟨-, -, hsmall, hlarge⟩ := h c rfl
    rw [readExponent]
    exact if_neg fun hmark => hmark.1.elim hsmall hlarge

theorem readExponent_signedMark (e : Option ℤ) {rest : Text} (h : EndsNumber rest) :
    readExponent (signedMark e ++ rest) = (e, rest) := by
  cases e with
  | none => exact readExponent_of_ends h
  | some e =>
    have hdigits : ∀ c ∈ zeroFill 2 (decimal e.natAbs), c.isDigit := isDigit_zeroFill isDigit_decimal
    have hne : zeroFill 2 (decimal e.natAbs) ≠ [] := List.append_ne_nil_of_right_ne_nil _ Nat.toDigits_ne_nil
    have hsplit : splitSign (exponentText e ++ rest) = (decide (e < 0), zeroFill 2 (decimal e.natAbs) ++ rest) := by
      unfold exponentText
      by_cases he : e < 0
      · rw [if_pos he, decide_eq_true he]
        rfl
      · rw [if_neg he, decide_eq_false he]
        rfl
    have hvalue : (if e < 0 then -(e.natAbs : ℤ) else e.natAbs) = e := by
      split <;> omega
    show readExponent ('e' :: (exponentText e ++ rest)) = _
    rw [readExponent, hsplit]
    simp only [takeWhile_digits hdigits h.endsDigits, true_or, hne, ne_eq, not_false_eq_true, and_self, if_true,
      ofDigitChars_zeroFill, decide_eq_true_eq, hvalue, List.drop_left]

/-- What follows the digits before the point is no digit. -/
theorem endsDigits_signedMark (e : Option ℤ) {rest : Text} (h : EndsNumber rest) :
    EndsDigits (signedMark e ++ rest) := by
  cases e with
  | none => exact h.endsDigits
  | some e =>
    intro c hc
    obtain rfl : 'e' = c := Option.some.inj hc
    decide

theorem endsDigits_pointText (places : Text) (e : Option ℤ) {rest : Text} (h : EndsNumber rest) :
    EndsDigits (pointText places ++ (signedMark e ++ rest)) := by
  cases places with
  | nil => exact endsDigits_signedMark e h
  | cons d places =>
    intro c hc
    obtain rfl : '.' = c := Option.some.inj hc
    decide

theorem placesRun_pointText (places : Text) (hplaces : ∀ c ∈ places, c.isDigit) (e : Option ℤ) {rest : Text}
    (h : EndsNumber rest) : placesRun (pointText places ++ (signedMark e ++ rest)) = places := by
  cases places with
  | nil =>
    cases e with
    | some e => rfl
    | none =>
      show placesRun rest = []
      unfold placesRun
      split
      · exact absurd rfl (h _ rfl).2.1
      · rfl
  | cons d places => exact takeWhile_digits hplaces (endsDigits_signedMark e h)

/-- Behind the places, or where there are none. -/
theorem drop_places (places : Text) (u : Text) : (if places.isEmpty then pointText places ++ u
    else (pointText places ++ u).drop (places.length + 1)) = u := by
  cases places with
  | nil => rfl
  | cons d places => exact List.drop_left

/-- The parts of a number are told apart, whatever ends it. -/
theorem readNumber_parts (s : Spelling) (hzero : s.whole.head? = some '0' → s.whole = ['0']) (negative : Bool)
    {rest : Text} (h : EndsNumber rest) : readNumber (signText negative s.shortText ++ rest) =
      if s.places.isEmpty && s.exponent.isNone then
        if maxIntDigits < s.whole.length then .error .intTooLong
        else .ok (.int (if negative then -(Nat.ofDigitChars 10 s.whole 0 : ℤ) else Nat.ofDigitChars 10 s.whole 0), rest)
      else .ok (.float (s.toFloat negative), rest) := by
  have hbody : s.shortText ++ rest = s.whole ++ (pointText s.places ++ (signedMark s.exponent ++ rest)) := by
    rw [Spelling.shortText, List.append_assoc, List.append_assoc]
  have hsplit : splitMinus (signText negative s.shortText ++ rest) = (negative, s.shortText ++ rest) := by
    cases negative with
    | true => rfl
    | false =>
      obtain ⟨c, whole, hcons⟩ := List.exists_cons_of_ne_nil s.whole_ne_nil
      show splitMinus (s.shortText ++ rest) = _
      rw [hbody, hcons]
      exact splitMinus_of_isDigit (s.isDigit_whole c (hcons ▸ List.mem_cons_self ..)) _
  have hwhole := wholeRun_append s.whole_ne_nil s.isDigit_whole hzero (endsDigits_pointText s.places s.exponent h)
  have hplaces := placesRun_pointText s.places s.isDigit_places s.exponent h
  have hempty : s.whole.isEmpty = false := by simpa using s.whole_ne_nil
  unfold readNumber
  rw [hsplit]
  dsimp only
  rw [hbody, hwhole, hempty, if_neg Bool.false_ne_true, List.drop_left, hplaces, drop_places,
    readExponent_signedMark _ h]
  rfl

/-! ## Whole numbers -/

theorem head?_decimal_eq_zero {n : ℕ} (h : (decimal n).head? = some '0') : decimal n = ['0'] := by
  rcases Nat.eq_zero_or_pos n with rfl | hn
  · rfl
  · exact absurd h (head?_decimal hn)

/-- A whole number without places and exponent. -/
def wholeSpelling (n : ℕ) : Spelling := ⟨decimal n, [], none, Nat.toDigits_ne_nil, isDigit_decimal, nofun⟩

theorem decimalInt_eq (n : ℤ) : decimalInt n = signText (decide (n < 0)) (wholeSpelling n.natAbs).shortText := by
  have htext (n : ℕ) : (wholeSpelling n).shortText = decimal n := List.append_nil _
  rw [htext]
  cases n with
  | ofNat n => rfl
  | negSucc n =>
    rw [decide_eq_true (Int.negSucc_lt_zero n)]
    rfl

/-! ## Doubles -/

theorem eq_of_unpack_nan {x : Float} (h : x.toModel.unpack = .notANumber) : x = 0.0 / 0.0 := by
  obtain ⟨⟨bits, valid⟩⟩ := x
  have hbits : bits.toBitVec = UnpackedFloat.packedNaN .binary64 := by
    change UnpackedFloat.unpack .binary64 bits.toBitVec = _ at h
    unfold UnpackedFloat.unpack at h
    by_cases htop : @UnpackedFloat.unpackExponent .binary64 bits.toBitVec = -1#_
    · by_cases hzero : @UnpackedFloat.unpackMantissa .binary64 bits.toBitVec = 0#_
      · rw [if_pos htop, if_pos hzero] at h
        exact nomatch h
      · exact valid.eq_packedNaN htop hzero
    · rw [if_neg htop] at h
      by_cases hbottom : @UnpackedFloat.unpackExponent .binary64 bits.toBitVec = 0#_
      · rw [if_pos hbottom] at h
        by_cases hzero : @UnpackedFloat.unpackMantissa .binary64 bits.toBitVec = 0#_
        · rw [dif_pos hzero] at h
          exact nomatch h
        · rw [dif_neg hzero] at h
          exact nomatch h
      · rw [if_neg hbottom] at h
        exact nomatch h
  obtain rfl : bits = (0.0 / 0.0 : Float).toModel.toBits := UInt64.eq_of_toBitVec_eq (hbits.trans (by decide +kernel))
  rfl

theorem ofFloat_infinity : Binary.ofFloat (1.0 / 0.0) = .infinite false := by decide +kernel

theorem ofFloat_minus_infinity : Binary.ofFloat (-(1.0 / 0.0)) = .infinite true := by decide +kernel

/-- A double is one of the three that are written in words, or finite. -/
theorem float_cases (x : Float) : x = 0.0 / 0.0 ∨ x = 1.0 / 0.0 ∨ x = -(1.0 / 0.0) ∨
    ∃ negative m q, Binary.ofFloat x = .finite negative m q := by
  cases hu : Binary.ofFloat x with
  | nan =>
    rw [ofFloat_eq_ofUnpacked] at hu
    refine .inl (eq_of_unpack_nan ?_)
    cases hx : x.toModel.unpack with
    | notANumber => rfl
    | _ =>
      rw [hx] at hu
      exact nomatch hu
  | infinite negative =>
    cases negative with
    | false => exact .inr (.inl (ofFloat_inj (hu.trans ofFloat_infinity.symm) (hu ▸ nofun)))
    | true => exact .inr (.inr (.inl (ofFloat_inj (hu.trans ofFloat_minus_infinity.symm) (hu ▸ nofun))))
  | finite negative m q => exact .inr (.inr (.inr ⟨negative, m, q, rfl⟩))

theorem writtenFloat_of_finite {x : Float} {negative : Bool} {m : ℕ} {q : ℤ}
    (hx : Binary.ofFloat x = .finite negative m q) : writtenFloat x = shortestText x := by
  have h := ofFloat_eq_ofUnpacked x
  have hnan : x.isNaN = false := by
    show x.toModel.unpack.isNaN = false
    cases hu : x.toModel.unpack with
    | notANumber =>
      rw [hx, hu] at h
      exact nomatch h
    | _ => rfl
  have hinf : x.isInf = false := by
    show x.toModel.unpack.isInf = false
    cases hu : x.toModel.unpack with
    | infinity s =>
      rw [hx, hu] at h
      exact nomatch h
    | _ => rfl
  rw [writtenFloat, hnan, hinf]
  rfl

theorem readNumber_shortestText {x : Float} {negative : Bool} {m : ℕ} {q : ℤ}
    (hx : Binary.ofFloat x = .finite negative m q) {rest : Text} (h : EndsNumber rest) :
    readNumber (shortestText x ++ rest) = .ok (.float x, rest) := by
  obtain ⟨s, hform, htext, hvalue⟩ := exists_shortestText hx
  have hfraction : (s.places.isEmpty && s.exponent.isNone) = false := by
    rw [Bool.and_eq_false_iff, List.isEmpty_eq_false_iff, Option.isNone_eq_false_iff, Option.isSome_iff_ne_none]
    exact hform.fraction
  rw [htext, readNumber_parts s hform.leading negative h, hfraction, if_neg Bool.false_ne_true, hvalue]

/-! ## Values -/

/-- No text, array or object begins with the character. -/
def BeginsScalar (c : Char) : Prop := c ≠ '"' ∧ c ≠ '\x7b' ∧ c ≠ '['

instance (c : Char) : Decidable (BeginsScalar c) := inferInstanceAs (Decidable (_ ∧ _ ∧ _))

theorem readValue_scalar {c : Char} (h : BeginsScalar c) (t : Text) (steps : ℕ) : readValue (steps + 1) (c :: t) =
    match readWord? (c :: t) with
    | some r => .ok r
    | none => readNumber (c :: t) := by
  obtain ⟨htext, hobject, harray⟩ := h
  unfold readValue
  split
  · rename_i heq
    exact absurd (List.cons.inj heq).1 htext
  · rename_i heq
    exact absurd (List.cons.inj heq).1 hobject
  · rename_i heq
    exact absurd (List.cons.inj heq).1 harray
  · rfl

theorem ne_of_isDigit {c d : Char} (h : c.isDigit) (hd : d.isDigit = false) : d ≠ c := by
  rintro rfl
  rw [hd] at h
  exact nomatch h

theorem beginsScalar_of_isDigit {c : Char} (h : c.isDigit) : BeginsScalar c :=
  ⟨(ne_of_isDigit h rfl).symm, (ne_of_isDigit h rfl).symm, (ne_of_isDigit h rfl).symm⟩

/-- No word begins with a digit, behind a minus sign or without one. -/
theorem readWord?_of_isDigit {c : Char} (h : c.isDigit) (t : Text) :
    readWord? (c :: t) = none ∧ readWord? ('-' :: c :: t) = none := by
  have hn := ne_of_isDigit h (d := 'n') rfl
  have ht := ne_of_isDigit h (d := 't') rfl
  have hf := ne_of_isDigit h (d := 'f') rfl
  have hN := ne_of_isDigit h (d := 'N') rfl
  have hI := ne_of_isDigit h (d := 'I') rfl
  have hm := ne_of_isDigit h (d := '-') rfl
  simp [readWord?, words, Text.afterPrefix?, hn, ht, hf, hN, hI, hm]

/-- A number in digits is no word, text, array or object. -/
theorem readValue_signText (s : Spelling) (negative : Bool) (rest : Text) (steps : ℕ) :
    readValue (steps + 1) (signText negative s.shortText ++ rest) =
      readNumber (signText negative s.shortText ++ rest) := by
  obtain ⟨c, whole, hcons⟩ := List.exists_cons_of_ne_nil s.whole_ne_nil
  have hc := s.isDigit_whole c (hcons ▸ List.mem_cons_self ..)
  obtain ⟨t, ht⟩ : ∃ t, s.shortText ++ rest = c :: t := ⟨_, by rw [Spelling.shortText, hcons]; rfl⟩
  have hword := readWord?_of_isDigit hc t
  cases negative with
  | false =>
    show readValue (steps + 1) (s.shortText ++ rest) = readNumber (s.shortText ++ rest)
    rw [ht, readValue_scalar (beginsScalar_of_isDigit hc), hword.1]
  | true =>
    show readValue (steps + 1) ('-' :: (s.shortText ++ rest)) = readNumber ('-' :: (s.shortText ++ rest))
    rw [ht, readValue_scalar (by decide), hword.2]

/-- **A whole number is read back**, if it is not too long. -/
theorem readValue_decimalInt {n : ℤ} (hn : (decimal n.natAbs).length ≤ maxIntDigits) {rest : Text}
    (h : EndsNumber rest) (steps : ℕ) : readValue (steps + 1) (decimalInt n ++ rest) = .ok (.int n, rest) := by
  have hvalue : (if n < 0 then -(n.natAbs : ℤ) else n.natAbs) = n := by
    split <;> omega
  rw [decimalInt_eq, readValue_signText, readNumber_parts _ head?_decimal_eq_zero _ h]
  show (if maxIntDigits < (decimal n.natAbs).length then _ else Except.ok (Json.int
    (if decide (n < 0) = true then -(Nat.ofDigitChars 10 (decimal n.natAbs) 0 : ℤ)
      else Nat.ofDigitChars 10 (decimal n.natAbs) 0), rest)) = _
  rw [if_neg (by omega)]
  simp only [ofDigitChars_decimal, decide_eq_true_eq, hvalue]

/-- **A double is read back**, also one that is no number. -/
theorem readValue_writtenFloat (x : Float) {rest : Text} (h : EndsNumber rest) (steps : ℕ) :
    readValue (steps + 1) (writtenFloat x ++ rest) = .ok (.float x, rest) := by
  rcases float_cases x with rfl | rfl | rfl | ⟨negative, m, q, hx⟩
  · show readValue (steps + 1) ('N' :: ("aN".toList ++ rest)) = _
    rw [readValue_scalar (by decide)]
    rfl
  · show readValue (steps + 1) ('I' :: ("nfinity".toList ++ rest)) = _
    rw [readValue_scalar (by decide)]
    rfl
  · show readValue (steps + 1) ('-' :: ("Infinity".toList ++ rest)) = _
    rw [readValue_scalar (by decide)]
    rfl
  · obtain ⟨s, -, htext, -⟩ := exists_shortestText hx
    rw [writtenFloat_of_finite hx, htext, readValue_signText, ← htext, readNumber_shortestText hx h]

end Calculator.Json
