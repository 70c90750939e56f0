import Calculator.Display
import Calculator.Proofs.Guards
import Calculator.Proofs.ReadBack

/-!
# Conversions that may fail

A text that is no number has no value, a number may have too many digits for the places left, a list may be too short,
a whole number too large for a double. Here tokens are made, and results are shown, by steps that fail in such a case.
None of them does.

* `Failure` : what ends the reading of a text.
* `attemptTokenize`, `attemptTree` : the tokens and the tree of a text. The faults of the text are the only failures
  (`attemptTokenize_eq`).
* `Display.attempt` : a double as it is shown. Finite ones are always shown (`attempt_eq_text`).
* `ofWhole`, `attemptRoundPlaces` : doubles of limited size, rounded numbers among them.
-/

namespace Calculator

set_option autoImplicit false

open Calculator.Number
open Calculator.Text (decimal)

/-! ## Numbers -/

def convert (t : Text) : Except Abort Float :=
  match readFloat? t with
  | some v => .ok v
  | none => .error (.unexpected .domain)

def ofWhole (n : Nat) : Except Abort Float :=
  if (Float.ofNat n).isFinite then .ok (Float.ofNat n) else .error (.unexpected .overflow)

/-- A double rounded to places, if the result is not too large. -/
def attemptRoundPlaces (places : Nat) (x : Float) : Except Abort Float :=
  if x.isFinite && !(roundPlaces places x).isFinite then .error (.unexpected .overflow)
  else .ok (roundPlaces places x)

/-- The text writes a finite number; it is converted only if it writes a number. -/
def attemptIsFiniteNumeral (t : Text) : Except Abort Bool :=
  if isNumeral t then do return (← convert t).isFinite else .ok false

theorem exists_convert {t : Text} (h : isNumeral t) : ∃ v, readFloat? t = some v ∧ convert t = .ok v := by
  obtain ⟨n, hn⟩ := Option.isSome_iff_exists.1 h
  have hv : readFloat? t = some n.toFloat := congrArg (Option.map _) hn
  exact ⟨n.toFloat, hv, by rw [convert, hv]⟩

theorem readFloat?_of_not_isNumeral {t : Text} (h : ¬isNumeral t) : readFloat? t = none := by
  rw [isNumeral, Option.not_isSome_iff_eq_none] at h
  exact congrArg (Option.map _) h

theorem attemptIsFiniteNumeral_eq (t : Text) : attemptIsFiniteNumeral t = .ok (isFiniteNumeral t) := by
  unfold attemptIsFiniteNumeral isFiniteNumeral
  split
  · rename_i h
    obtain ⟨v, hv, hconvert⟩ := exists_convert h
    rw [hconvert, hv]
    rfl
  · rename_i h
    rw [readFloat?_of_not_isNumeral h]
    rfl

theorem isFinite_of_rounds {x : Float} {negative : Bool} {r : ℚ} (h : Rounds (Binary.ofFloat x) negative r) :
    x.isFinite := by
  obtain ⟨k, q, -, hparts⟩ := h
  obtain ⟨m, p, hmp, -⟩ := roundedParts_eq negative k q
  exact isFinite_iff.2 ⟨negative, m, p, hparts.trans hmp⟩

theorem isFinite_ofNat {n : ℕ} (h : n ≤ maxNat) : (Float.ofNat n).isFinite :=
  isFinite_of_rounds (rounds_float_ofNat (natCast_le_of_le_maxNat h))

theorem ofWhole_eq {n : ℕ} (h : n ≤ maxNat) : ofWhole n = .ok (Float.ofNat n) := if_pos (isFinite_ofNat h)

/-- The greatest double is whole, and so nothing is rounded beyond it. -/
theorem places_le_maxDouble (places : ℕ) {m : ℕ} {q : ℤ} (h : IsDouble m q) :
    (divNearest (numerator m q * Nat.pow 10 places) (denominator q) * 10 ^ (-places : ℤ) : ℚ) ≤ maxDouble := by
  set n := divNearest (numerator m q * Nat.pow 10 places) (denominator q) with hn
  have hle : n ≤ maxNat * 10 ^ places := by
    refine (isNearest_divNearest _ (denominator_pos q)).le_of_le ?_
    have hvalue : (numerator m q / denominator q : ℚ) ≤ maxNat := by
      rw [← value_eq_div, cast_maxNat]
      exact value_le_maxDouble h
    rw [Nat.cast_mul, Nat.cast_mul, mul_div_right_comm]
    exact mul_le_mul_of_nonneg_right hvalue (Nat.cast_nonneg _)
  have hle' : (n : ℚ) ≤ (maxNat * 10 ^ places : ℕ) := Nat.cast_le.2 hle
  rw [Nat.cast_mul, Nat.cast_pow, Nat.cast_ofNat] at hle'
  rw [zpow_neg, zpow_natCast, ← div_eq_mul_inv, div_le_iff₀ (by positivity), ← cast_maxNat]
  exact hle'

theorem rounds_roundPlaces (places : ℕ) {x : Float} {a : Bool} {m : ℕ} {q : ℤ} (hx : Binary.ofFloat x = .finite a m q) :
    Rounds (Binary.ofFloat (roundPlaces places x)) a
      (divNearest (numerator m q * Nat.pow 10 places) (denominator q) * 10 ^ (-places : ℤ)) := by
  have hplaces := rounds_ofScientific_neg (places_le_maxDouble places (isDouble_of_finite hx))
  unfold roundPlaces
  rw [hx]
  cases a
  · exact hplaces
  · show Rounds (Binary.ofFloat (-ofPlaces places _)) _ _
    rw [ofFloat_neg]
    exact hplaces.opposite

theorem isFinite_roundPlaces (places : ℕ) {x : Float} (h : x.isFinite) : (roundPlaces places x).isFinite := by
  obtain ⟨negative, m, q, hx⟩ := isFinite_iff.1 h
  exact isFinite_of_rounds (rounds_roundPlaces places hx)

theorem attemptRoundPlaces_eq (places : ℕ) (x : Float) :
    attemptRoundPlaces places x = .ok (roundPlaces places x) := by
  refine if_neg fun h => ?_
  obtain ⟨hx, hround⟩ := Bool.and_eq_true_iff.1 h
  rw [isFinite_roundPlaces places hx] at hround
  exact nomatch hround

/-! ## Tokens -/

/-- What ends the reading of a text. -/
inductive Failure where
  /-- A fault of the text, which is reported. -/
  | parsing (e : TokenError)
  | abort (a : Abort)
deriving DecidableEq, Repr

/-- The tokens of a literal, which is converted only where it writes a number. -/
def attemptLiteral (text : Text) (previous : Option Expr) (literal : Text) : Except Failure (List Expr) :=
  if isNumeral literal then do return glue previous ++ [.number (← (convert literal).mapError .abort)]
  else
    match literal with
    | ['E'] => .ok [.bare .scientific]
    | 'E' :: exponent =>
      if isNumeral exponent then do return [.bare .scientific, .number (← (convert exponent).mapError .abort)]
      else .error (.parsing ⟨.badLiteral literal, text⟩)
    | _ => .error (.parsing ⟨.badLiteral literal, text⟩)

/-- A call of two arguments or of one, taken from the front of the list. -/
def attemptCall (f : NamedFunction) (trees : List Expr) : Except Abort Expr :=
  if f.arity = 2 then
    match trees with
    | a :: b :: _ => .ok (.call₂ f a b)
    | _ => .error .missing
  else
    match trees with
    | a :: _ => .ok (.call f a)
    | [] => .error .missing

def Lexeme.attemptTokens (text : Text) (argument : Text → Except Failure Expr) (previous : Option Expr) :
    Lexeme → Except Failure (List Expr)
  | literal t => attemptLiteral text previous t
  | call f arguments => do
    let trees ← arguments.mapM argument
    return glue previous ++ [← (attemptCall f trees).mapError .abort]
  | sign op => .ok (signTokens previous op)
  | fault k => .error (.parsing ⟨k, text⟩)

def attemptTokensFrom (text : Text) (argument : Text → Except Failure Expr) :
    (previous : Option Expr) → List Lexeme → Except Failure (List Expr)
  | _, [] => .ok []
  | previous, l :: ls => do
    let ts ← l.attemptTokens text argument previous
    return ts ++ (← attemptTokensFrom text argument (ts.getLast?.or previous) ls)

def attemptTokensWithin (strict : Bool) (limit : Int) : (levels : Nat) → Text → Except Failure (List Expr)
  | 0, text => .error (.parsing ⟨.tooDeep limit, text⟩)
  | levels + 1, text => do
    let argument (a : Text) := return treeOfTokens limit (← attemptTokensWithin strict limit levels a)
    (inOrder strict text (← attemptTokensFrom text argument none (lexemes text))).mapError .parsing

/-- The tokens of a text that stands inside `depth` calls, of which `limit` may be open. -/
def attemptTokenize (strict : Bool) (limit depth : Int) (text : Text) : Except Failure (List Expr) :=
  attemptTokensWithin strict limit (limit - depth + 1).toNat text

def attemptTree (strict : Bool) (limit : Int) (text : Text) : Except Failure Expr :=
  return treeOfTokens limit (← attemptTokenize strict limit 0 text)

section Tokens

variable {text : Text} {argument : Text → Except TokenError Expr} {attempt : Text → Except Failure Expr}

/-- A text that writes no number and no power of ten is the same fault on both sides. -/
theorem attemptLiteral_eq_of_ne {previous : Option Expr} {literal : Text} (h : ¬ isNumeral literal)
    (hmark : ∀ exponent, literal ≠ 'E' :: exponent) : attemptLiteral text previous literal =
      (literalTokens previous literal).mapError fun k => .parsing ⟨k, text⟩ := by
  have hattempt : attemptLiteral text previous literal = .error (.parsing ⟨.badLiteral literal, text⟩) := by
    unfold attemptLiteral
    rw [if_neg h]
    split
    · exact absurd rfl (hmark [])
    · exact absurd rfl (hmark _)
    · rfl
  have htokens : literalTokens previous literal = .error (.badLiteral literal) := by
    unfold literalTokens
    rw [readFloat?_of_not_isNumeral h]
    dsimp only
    split
    · exact absurd rfl (hmark [])
    · exact absurd rfl (hmark _)
    · rfl
  rw [hattempt, htokens]
  rfl

theorem attemptLiteral_eq (previous : Option Expr) (literal : Text) : attemptLiteral text previous literal =
    (literalTokens previous literal).mapError fun k => .parsing ⟨k, text⟩ := by
  by_cases h : isNumeral literal
  · obtain ⟨v, hv, hconvert⟩ := exists_convert h
    unfold attemptLiteral literalTokens
    rw [if_pos h, hv, hconvert]
    rfl
  · by_cases hmark : ∃ exponent, literal = 'E' :: exponent
    · obtain ⟨exponent, rfl⟩ := hmark
      unfold attemptLiteral literalTokens
      rw [if_neg h, readFloat?_of_not_isNumeral h]
      cases exponent with
      | nil => rfl
      | cons c exponent =>
        by_cases he : isNumeral (c :: exponent)
        · obtain ⟨v, hv, hconvert⟩ := exists_convert he
          simp only [if_pos he, hv, hconvert]
          rfl
        · simp only [if_neg he, readFloat?_of_not_isNumeral he]
          rfl
    · exact attemptLiteral_eq_of_ne h fun exponent hliteral => hmark ⟨exponent, hliteral⟩

theorem attemptCall_eq {f : NamedFunction} {trees : List Expr} (h : trees.length = f.arity) :
    attemptCall f trees = .ok (callToken f trees) := by
  have harity : f.arity = 1 ∨ f.arity = 2 := by cases f <;> decide
  rcases harity with hf | hf
  · obtain ⟨a, rfl⟩ := List.length_eq_one_iff.1 (h.trans hf)
    exact if_neg (by omega)
  · obtain ⟨a, b, rfl⟩ := List.length_eq_two.1 (h.trans hf)
    exact if_pos hf

theorem attemptTokens_eq (ha : ∀ a, attempt a = (argument a).mapError .parsing) (previous : Option Expr) {l : Lexeme}
    (hl : l.IsSound) : l.attemptTokens text attempt previous =
      (l.tokens text argument previous).mapError .parsing := by
  cases l with
  | literal t =>
    refine (attemptLiteral_eq previous t).trans ?_
    rw [Lexeme.tokens]
    cases literalTokens previous t <;> rfl
  | call f arguments =>
    have hmap : arguments.mapM attempt = (arguments.mapM argument).mapError .parsing := by
      rw [funext ha]
      exact mapM_mapError ..
    rw [Lexeme.attemptTokens, Lexeme.tokens, hmap]
    cases htrees : arguments.mapM argument with
    | error e => rfl
    | ok trees =>
      have hlength : trees.length = f.arity := (mapM_eq_ok.1 htrees).length_eq.symm.trans hl
      show (do return glue previous ++ [← (attemptCall f trees).mapError Failure.abort]) = _
      rw [attemptCall_eq hlength]
      rfl
  | sign op => rfl
  | fault k => rfl

theorem attemptTokensFrom_eq (ha : ∀ a, attempt a = (argument a).mapError .parsing) (previous : Option Expr)
    {ls : List Lexeme} (hls : ∀ l ∈ ls, l.IsSound) : attemptTokensFrom text attempt previous ls =
      (tokensFrom text argument previous ls).mapError .parsing := by
  induction ls generalizing previous with
  | nil => rfl
  | cons l ls ih =>
    rw [attemptTokensFrom, tokensFrom, attemptTokens_eq ha previous (hls l (List.mem_cons_self ..)), mapError_bind]
    refine bind_congr fun ts => ?_
    rw [ih _ fun l hl => hls l (List.mem_cons_of_mem _ hl), mapError_bind]
    rfl

theorem attemptTokensWithin_eq (strict : Bool) (limit : Int) (levels : ℕ) (text : Text) :
    attemptTokensWithin strict limit levels text = (tokensWithin strict limit levels text).mapError .parsing := by
  induction levels generalizing text with
  | zero => rfl
  | succ levels ih =>
    have hargument (a : Text) : (do return treeOfTokens limit (← attemptTokensWithin strict limit levels a)) =
        (treeWithin strict limit levels a).mapError Failure.parsing := by
      rw [ih, treeWithin, mapError_bind]
      rfl
    rw [attemptTokensWithin, tokensWithin, mapError_bind,
      attemptTokensFrom_eq hargument none fun l => isSound_of_mem_lexemes]
    rfl

theorem attemptTokenize_eq (strict : Bool) (limit depth : Int) (text : Text) :
    attemptTokenize strict limit depth text = (tokenize strict limit depth text).mapError .parsing :=
  attemptTokensWithin_eq ..

theorem attemptTree_eq (strict : Bool) (limit : Int) (text : Text) :
    attemptTree strict limit text = (treeOf strict limit text).mapError .parsing := by
  rw [attemptTree, treeOf, attemptTokenize_eq, mapError_bind]
  rfl

end Tokens

/-! ## Results -/

namespace Display

/-- Digits without an exponent; there have to be places left for the decimals. -/
def attemptPlain (num den : Nat) : Except Abort Text :=
  let whole := decimal (num / den)
  if num % den = 0 then .ok whole
  else if significantDigits < whole.length then .error (.unexpected .domain)
  else .ok (trimZeros (fixedText (significantDigits - whole.length) num den))

def attemptDigits (num den : Nat) : Except Abort Text :=
  if plainCeiling * den ≤ num || (num != 0 && fractionLt (num, den) plainFloor) then .ok (scientificText num den)
  else attemptPlain num den

/-- The digits of a fraction. An integer taken for it becomes a double first. -/
def attemptMagnitude (num den : Nat) : Except Abort Text :=
  let n := divNearest num den
  if isSnapped num den n then do
    let _ ← ofWhole n
    attemptDigits n 1
  else attemptDigits num den

def attempt (x : Float) : Except Abort Text :=
  match Binary.ofFloat x with
  | .nan => .ok "nan".toList
  | .infinite negative => .ok (if negative then "-inf".toList else "inf".toList)
  | .finite negative m q => do
    let digits ← attemptMagnitude (numerator m q) (denominator q)
    return if negative && m != 0 then '-' :: digits else digits

/-- Below the numbers with an exponent there are places left. -/
theorem attemptDigits_eq (num : ℕ) {den : ℕ} (hden : 0 < den) : attemptDigits num den = .ok (digitsText num den) := by
  unfold attemptDigits digitsText
  split
  · rfl
  · rename_i hplain
    have hnum : num < plainCeiling * den := by
      by_contra hle
      exact hplain (Bool.or_eq_true_iff.2 (.inl (decide_eq_true (not_lt.1 hle))))
    have hwhole : (decimal (num / den)).length ≤ 8 :=
      (Nat.length_toDigits_le_iff (by decide) (by decide)).2 ((Nat.div_lt_iff_lt_mul hden).2 hnum)
    unfold attemptPlain plainText
    dsimp only
    split
    · rfl
    · rw [if_neg]
      exact not_lt.2 (hwhole.trans (by decide))

theorem attempt_eq_text (x : Float) : attempt x = .ok (text x) := by
  unfold attempt text
  cases hx : Binary.ofFloat x with
  | nan => rfl
  | infinite negative => rfl
  | finite negative m q =>
    have hmagnitude : attemptMagnitude (numerator m q) (denominator q) =
        .ok (magnitudeText (numerator m q) (denominator q)) := by
      unfold attemptMagnitude magnitudeText
      dsimp only
      split
      · rw [ofWhole_eq (divNearest_le_maxNat (isDouble_of_finite hx))]
        exact attemptDigits_eq _ one_pos
      · exact attemptDigits_eq _ (denominator_pos q)
    dsimp only
    rw [hmagnitude]
    rfl

end Display

end Calculator
