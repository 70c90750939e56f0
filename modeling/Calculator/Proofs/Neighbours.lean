import Calculator.Proofs.Concatenation
import Calculator.Proofs.Understanding

/-!
# Which tokens are neighbours

A piece of a text looks at the token in front of it: behind a value it puts the sign of a product where it begins with a
value itself, and a minus is an operator only behind an operand. So neither two values nor a hidden sign stand in the
tokens of a text, whatever its pieces are and in whatever order they come.

* `MayFollow` : what a token needs in front of it.
* `SetApart` : every token of a sequence may follow the one in front of it.
* `setApart_tokens`, `setApart_tokensFrom` : the tokens of one piece, and of all.
* `tokens_set_apart` : the tokens of a text and of the arguments in it.
-/

namespace Calculator

set_option autoImplicit false

/-- The token `t` may stand behind the token `previous`, or at the beginning if there is none: no value begins behind a
value, and a minus between operands stands behind an operand. -/
structure MayFollow (previous : Option Expr) (t : Expr) : Prop where
  startsValue_eq_false : previous.any Expr.isValue → t.startsValue = false
  signs_eq_false : t = .bare .subtract → signs previous = false

/-- Behind the token `previous`, every token may follow the one in front of it. -/
def SetApart : (previous : Option Expr) → List Expr → Prop
  | _, [] => True
  | previous, t :: ts => MayFollow previous t ∧ SetApart (some t) ts

section Pieces

variable {text : Text} {argument : Text → Except TokenError Expr} {previous : Option Expr} {l : Lexeme}
  {ls : List Lexeme} {t u : Expr} {ts us : List Expr}

theorem setApart_append (ts us : List Expr) :
    SetApart previous (ts ++ us) ↔ SetApart previous ts ∧ SetApart (ts.getLast?.or previous) us := by
  induction ts generalizing previous with
  | nil => simp [SetApart]
  | cons t ts ih =>
    have hlast : (t :: ts).getLast?.or previous = ts.getLast?.or (some t) := by
      rw [List.getLast?_cons]
      cases ts.getLast? <;> rfl
    rw [List.cons_append, SetApart, SetApart, ih, hlast, and_assoc]

theorem mayFollow_of_no_value (h : previous.any Expr.isValue = false) (ht : t ≠ .bare .subtract) :
    MayFollow previous t := by
  constructor
  · intro hvalue
    simp [h] at hvalue
  · intro hsubtract
    exact absurd hsubtract ht

theorem mayFollow_of_not_startsValue (h : t.startsValue = false) (ht : t ≠ .bare .subtract) : MayFollow previous t :=
  ⟨fun _ => h, fun hsubtract => absurd hsubtract ht⟩

/-- Behind the sign of a product there may stand what could not follow the value in front of it. -/
theorem setApart_glue (ht : t ≠ .bare .subtract) : SetApart previous (glue previous ++ [t]) := by
  unfold glue
  split
  · have hmultiply : MayFollow previous (.bare .multiply) := mayFollow_of_not_startsValue rfl (by simp)
    exact ⟨hmultiply, mayFollow_of_no_value rfl ht, trivial⟩
  · rename_i hvalue
    exact ⟨mayFollow_of_no_value (by simpa using hvalue) ht, trivial⟩

theorem setApart_literalTokens {literal : Text} (h : literalTokens previous literal = .ok ts) :
    SetApart previous ts := by
  have hmark : MayFollow previous (.bare .scientific) := mayFollow_of_not_startsValue rfl (by simp)
  obtain ⟨v, -, rfl⟩ | rfl | ⟨exponent, v, -, -, rfl⟩ := literalTokens_cases h
  · exact setApart_glue (by simp)
  · exact ⟨hmark, trivial⟩
  · exact ⟨hmark, mayFollow_of_no_value rfl (by simp), trivial⟩

theorem setApart_signTokens (op : Operator) : SetApart previous (signTokens previous op) := by
  by_cases hsubtract : op = .subtract
  · subst hsubtract
    rw [signTokens_subtract]
    split
    · exact ⟨mayFollow_of_not_startsValue rfl (by simp), trivial⟩
    · rename_i hsigns
      refine ⟨⟨fun _ => rfl, fun _ => ?_⟩, trivial⟩
      simpa using hsigns
  · unfold signTokens
    split
    · exact setApart_glue (by simpa using hsubtract)
    · rename_i hstarts
      rw [if_neg (by simp [hsubtract])]
      exact ⟨mayFollow_of_not_startsValue (by simpa [Expr.startsValue] using hstarts) (by simpa using hsubtract), trivial⟩

theorem setApart_tokens (h : l.tokens text argument previous = .ok ts) : SetApart previous ts := by
  cases l with
  | literal t => exact setApart_literalTokens (mapError_eq_ok.1 h)
  | call f arguments =>
    obtain ⟨trees, -, rfl⟩ := tokens_call_eq_ok.1 h
    exact setApart_glue (callToken_ne_bare f trees _)
  | sign op =>
    obtain rfl := Except.ok.inj h
    exact setApart_signTokens op
  | fault k => exact nomatch h

theorem setApart_tokensFrom (h : tokensFrom text argument previous ls = .ok ts) : SetApart previous ts := by
  induction ls generalizing previous ts with
  | nil =>
    obtain rfl := Except.ok.inj h
    trivial
  | cons l ls ih =>
    obtain ⟨us, vs, hus, hvs, rfl⟩ := tokensFrom_cons_eq_ok.1 h
    exact (setApart_append us vs).2 ⟨setApart_tokens hus, ih hvs⟩

theorem mayFollow_of_neighbours {left right : List Expr} (h : SetApart none (left ++ t :: u :: right)) :
    MayFollow (some t) u := by
  obtain ⟨-, -, hu, -⟩ := (setApart_append left (t :: u :: right)).1 h
  exact hu

end Pieces

/-! ## Texts -/

section Texts

variable {strict : Bool} {limit depth : Int} {text part : Text} {n : Nat} {ts : List Expr}

theorem setApart_tokenize (h : tokenize strict limit depth text = .ok ts) : SetApart none ts := by
  obtain ⟨levels, -, hts⟩ := exists_level h
  exact setApart_tokensFrom (tokensWithin_succ_eq_ok.1 hts).1

theorem PartOf.exists_tokens (hpart : PartOf text n part) (h : (tokenize strict limit depth text).isOk) :
    ∃ ts, tokenize strict limit (depth + n) part = .ok ts := by
  induction hpart with
  | whole =>
    cases hts : tokenize strict limit depth text with
    | error e => simp [hts, Except.isOk, Except.toBool] at h
    | ok ts => exact ⟨ts, by simpa using hts⟩
  | @argument n part a f arguments _ hc ha ih =>
    obtain ⟨ts, hts⟩ := ih
    obtain ⟨us, -, hus, -⟩ := exists_tokens_of_argument hts hc ha
    rw [Int.add_assoc] at hus
    exact ⟨us, hus⟩

/-- **No two values meet in the tokens of a text, and no minus hides a sign.** -/
theorem tokens_set_apart (h : (tokenize strict limit depth text).isOk) (hpart : PartOf text n part) :
    ∃ ts, tokenize strict limit (depth + n) part = .ok ts ∧
      (∀ left t u right, ts = left ++ t :: u :: right → t.isValue → u.startsValue = false) ∧
      ts.head? ≠ some (.bare .subtract) ∧
      ∀ left t right, ts = left ++ t :: .bare .subtract :: right →
        t.operator?.any Operator.precedesSign = false := by
  obtain ⟨ts, hts⟩ := hpart.exists_tokens h
  have hapart := setApart_tokenize hts
  refine ⟨ts, hts, ?_, ?_, ?_⟩
  · rintro left t u right rfl hvalue
    have hu : MayFollow (some t) u := mayFollow_of_neighbours hapart
    exact hu.startsValue_eq_false hvalue
  · intro hhead
    obtain ⟨right, rfl⟩ := List.head?_eq_some_iff.1 hhead
    have hsigns := hapart.1.signs_eq_false rfl
    simp [signs] at hsigns
  · rintro left t right rfl
    have hminus : MayFollow (some t) (.bare .subtract) := mayFollow_of_neighbours hapart
    simpa [signs] using hminus.signs_eq_false rfl

/-- A sign inside an argument, and a product with the call. -/
theorem tokens_set_apart_call :
    (tokenize true 1 0 "2sin(-πx) - 3".toList).isOk ∧ PartOf "2sin(-πx) - 3".toList 1 "-πx".toList ∧
      ∃ ts, tokenize true 1 (0 + (1 : Nat)) "-πx".toList = .ok ts ∧
        (∀ left t u right, ts = left ++ t :: u :: right → t.isValue → u.startsValue = false) ∧
        ts.head? ≠ some (.bare .subtract) ∧
        ∀ left t right, ts = left ++ t :: .bare .subtract :: right →
          t.operator?.any Operator.precedesSign = false := by
  have hok : (tokenize true 1 0 "2sin(-πx) - 3".toList).isOk := by decide +kernel
  have hcall : .call .sin ["-πx".toList] ∈ lexemes "2sin(-πx) - 3".toList := by decide +kernel
  have hpart : PartOf "2sin(-πx) - 3".toList 1 "-πx".toList := .argument .whole hcall (List.mem_singleton_self _)
  exact ⟨hok, hpart, tokens_set_apart hok hpart⟩

end Texts

end Calculator
