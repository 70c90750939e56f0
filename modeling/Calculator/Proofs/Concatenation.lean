import Calculator.Proofs.Lexemes
import Calculator.Proofs.Sequence

/-!
# The tokens of a joined text

A piece of a text sees nothing of the text before it but the last token, and of that token only whether a value ends
there and whether a minus behind it is a sign. So the tokens of a joined text are those of its parts, with the sign of a
product between them, or with a minus at the cut that is an operator now.

* `signs`, `context` : what a piece sees of the token before it (`tokensFrom_congr_context`).
* `joint`, `asOperator`, `behind` : what another token in front makes of the tokens of a text (`tokensFrom_behind`).
* `tokensFrom_append` : the pieces of two texts, one after the other.
* `tokensFrom_mapError` : the text itself is in no token, and only in the error of a fault.
* `tokenize_append` : the tokens of a joined text.
-/

namespace Calculator

set_option autoImplicit false

open Calculator.Text (isBlank)

/-- A value begins with this token. -/
def Expr.startsValue : Expr → Bool
  | number _ | call .. | call₂ .. => true
  | bare op => op.startsValue
  | _ => false

/-- A minus behind the token `previous` is the sign of a number. -/
def signs (previous : Option Expr) : Bool := previous.all fun t => t.operator?.any Operator.precedesSign

/-- What a piece sees of the token before it: whether a value ends there, and whether a minus is a sign. -/
def context (previous : Option Expr) : Bool × Bool := (previous.any Expr.isValue, signs previous)

/-- The sign of a product between the token `previous` and the tokens `right`, if two values meet there. -/
def joint (previous : Option Expr) (right : List Expr) : List Expr :=
  if previous.any Expr.isValue && right.head?.any Expr.startsValue then [.bare .multiply] else []

/-- The sign at the beginning of the tokens made an operator. -/
def asOperator : List Expr → List Expr
  | .bare .negate :: ts => .bare .subtract :: ts
  | ts => ts

/-- The tokens `right` of a text behind the token `previous`; the text begins with a minus if `minus`. -/
def behind (previous : Option Expr) (minus : Bool) (right : List Expr) : List Expr :=
  joint previous right ++ if minus && !signs previous then asOperator right else right

/-! ## What a piece sees -/

section Pieces

variable {text : Text} {argument : Text → Except TokenError Expr} {previous previous' : Option Expr} {l : Lexeme}
  {ls : List Lexeme} {ts us : List Expr}

theorem context_asOperator (ts : List Expr) : context (asOperator ts).getLast? = context ts.getLast? := by
  unfold asOperator
  split
  · rename_i ts
    cases ts with
    | nil => rfl
    | cons t ts => simp
  · rfl

theorem glue_congr_context (h : context previous = context previous') : glue previous = glue previous' := by
  unfold glue
  rw [(Prod.mk.inj h).1]

theorem tokens_congr_context (h : context previous = context previous') :
    l.tokens text argument previous = l.tokens text argument previous' := by
  have hglue := glue_congr_context h
  have hsigns := (Prod.mk.inj h).2
  unfold signs at hsigns
  cases l with
  | literal t => simp only [Lexeme.tokens, literalTokens, hglue]
  | call f arguments => simp only [Lexeme.tokens, hglue]
  | sign op => simp only [Lexeme.tokens, signTokens, hglue, hsigns]
  | fault k => rfl

theorem tokensFrom_congr_context (h : context previous = context previous') :
    tokensFrom text argument previous ls = tokensFrom text argument previous' ls := by
  induction ls generalizing previous previous' with
  | nil => rfl
  | cons l ls ih =>
    have hls : ∀ us : List Expr, tokensFrom text argument (us.getLast?.or previous) ls =
        tokensFrom text argument (us.getLast?.or previous') ls := by
      intro us
      refine ih ?_
      cases us.getLast? with
      | none => exact h
      | some t => rfl
    rw [tokensFrom, tokensFrom, tokens_congr_context h]
    simp only [hls]

theorem tokensFrom_append (h : tokensFrom text argument previous ls = .ok ts) (ms : List Lexeme) :
    tokensFrom text argument previous (ls ++ ms) =
      (tokensFrom text argument (ts.getLast?.or previous) ms).map (ts ++ ·) := by
  induction ls generalizing previous ts with
  | nil =>
    obtain rfl := Except.ok.inj h
    show tokensFrom text argument previous ms = (tokensFrom text argument previous ms).map id
    cases tokensFrom text argument previous ms <;> rfl
  | cons l ls ih =>
    obtain ⟨us, vs, hus, hvs, rfl⟩ := tokensFrom_cons_eq_ok.1 h
    rw [List.cons_append, tokensFrom, hus, List.getLast?_append, Option.or_assoc]
    show (tokensFrom text argument _ (ls ++ ms) >>= fun ws => _) = _
    rw [ih hvs]
    cases tokensFrom text argument (vs.getLast?.or (us.getLast?.or previous)) ms with
    | error e => rfl
    | ok ws => exact congrArg Except.ok (List.append_assoc ..).symm

/-! ## A text behind a token -/

theorem joint_cons_of_startsValue {t : Expr} (h : t.startsValue) (ts : List Expr) :
    joint previous (t :: ts) = glue previous := by
  unfold joint glue
  rw [List.head?_cons, Option.any_some, h, Bool.and_true]

theorem joint_cons_of_not_startsValue {t : Expr} (h : t.startsValue = false) (ts : List Expr) :
    joint previous (t :: ts) = [] := by
  unfold joint
  rw [List.head?_cons, Option.any_some, h, Bool.and_false]
  rfl

theorem behind_of_startsValue {t : Expr} (h : t.startsValue) (ts : List Expr) :
    behind previous false (t :: ts) = glue previous ++ t :: ts := by
  rw [← joint_cons_of_startsValue h ts]
  rfl

theorem behind_of_not_startsValue {t : Expr} (h : t.startsValue = false) (ts : List Expr) :
    behind previous false (t :: ts) = t :: ts := by
  show joint previous (t :: ts) ++ t :: ts = t :: ts
  rw [joint_cons_of_not_startsValue h]
  rfl

theorem behind_nil (minus : Bool) : behind previous minus [] = [] := by
  unfold behind joint
  simp [asOperator]

theorem asOperator_append (hts : ts ≠ []) (us : List Expr) : asOperator (ts ++ us) = asOperator ts ++ us := by
  obtain ⟨t, ts, rfl⟩ := List.exists_cons_of_ne_nil hts
  by_cases ht : t = .bare .negate
  · subst ht
    rfl
  · rw [List.cons_append, asOperator, asOperator]
    · rfl
    · rintro us ⟨⟩
      exact ht rfl
    · rintro us ⟨⟩
      exact ht rfl

theorem asOperator_ne_nil (hts : ts ≠ []) : asOperator ts ≠ [] := by
  unfold asOperator
  split
  · exact List.cons_ne_nil _ _
  · exact hts

theorem behind_append (hts : ts ≠ []) (minus : Bool) (us : List Expr) :
    behind previous minus (ts ++ us) = behind previous minus ts ++ us := by
  unfold behind joint
  rw [List.head?_append_of_ne_nil _ hts, asOperator_append hts, List.append_assoc]
  split <;> split <;> rfl

theorem context_behind (hts : ts ≠ []) (minus : Bool) :
    context ((behind previous minus ts).getLast?.or previous') = context ts.getLast? := by
  have hlast : ∀ us : List Expr, us ≠ [] → (joint previous ts ++ us).getLast?.or previous' = us.getLast? := by
    intro us hus
    rw [List.getLast?_append, List.getLast?_eq_some_getLast hus]
    rfl
  unfold behind
  split
  · rw [hlast _ (asOperator_ne_nil hts), context_asOperator]
  · rw [hlast _ hts]

theorem literalTokens_behind (t : Text) :
    literalTokens previous t = (literalTokens none t).map (behind previous false) := by
  unfold literalTokens
  split
  · exact congrArg Except.ok (behind_of_startsValue rfl []).symm
  · split
    · exact congrArg Except.ok (behind_of_not_startsValue rfl []).symm
    · split
      · exact congrArg Except.ok (behind_of_not_startsValue rfl _).symm
      · rfl
    · rfl

theorem signTokens_subtract :
    signTokens previous .subtract = if signs previous then [.bare .negate] else [.bare .subtract] := by
  rw [signTokens, if_neg (by decide)]
  exact if_congr (and_iff_right rfl) rfl rfl

theorem signTokens_behind (op : Operator) :
    signTokens previous op = behind previous (op = .subtract) (signTokens none op) := by
  cases op with
  | subtract =>
    show signTokens previous .subtract = joint previous [.bare .negate] ++ if !signs previous then _ else _
    rw [signTokens_subtract, joint_cons_of_not_startsValue rfl]
    cases signs previous <;> rfl
  | opening | squareRoot | pi | euler | freeVariable => exact (behind_of_startsValue rfl []).symm
  | _ => exact (behind_of_not_startsValue rfl []).symm

theorem startsValue_callToken {f : NamedFunction} {trees : List Expr} (h : trees.length = f.arity) :
    (callToken f trees).startsValue := by
  match trees with
  | [a] => rfl
  | [a, b] => rfl
  | [] => cases f <;> exact nomatch h
  | a :: b :: c :: trees => cases f <;> exact nomatch h

theorem literalTokens_ne_nil {t : Text} (h : literalTokens previous t = .ok ts) : ts ≠ [] := by
  obtain ⟨v, -, rfl⟩ | rfl | ⟨exponent, v, -, -, rfl⟩ := literalTokens_cases h
  · exact List.append_ne_nil_of_right_ne_nil _ (List.cons_ne_nil _ _)
  · exact List.cons_ne_nil _ _
  · exact List.cons_ne_nil _ _

theorem signTokens_ne_nil (op : Operator) : signTokens previous op ≠ [] := by
  unfold signTokens
  split
  · simp
  · split <;> simp

theorem tokens_ne_nil (h : l.tokens text argument previous = .ok ts) : ts ≠ [] := by
  cases l with
  | literal t => exact literalTokens_ne_nil (mapError_eq_ok.1 h)
  | call f arguments =>
    obtain ⟨trees, -, rfl⟩ := tokens_call_eq_ok.1 h
    simp
  | sign op =>
    obtain rfl := Except.ok.inj h
    exact signTokens_ne_nil op
  | fault k => exact nomatch h

theorem tokens_behind (hl : ∀ f arguments, l = .call f arguments → arguments.length = f.arity) :
    l.tokens text argument previous = (l.tokens text argument none).map (behind previous (l = .sign .subtract)) := by
  cases l with
  | literal t =>
    show (literalTokens previous t).mapError _ = ((literalTokens none t).mapError _).map (behind previous false)
    rw [literalTokens_behind]
    cases literalTokens none t <;> rfl
  | call f arguments =>
    show (arguments.mapM argument >>= fun trees => _) = (arguments.mapM argument >>= fun trees => _).map _
    cases htrees : arguments.mapM argument with
    | error e => rfl
    | ok trees =>
      have hlength : trees.length = f.arity := by
        rw [← hl f arguments rfl]
        exact (mapM_eq_ok.1 htrees).length_eq.symm
      exact congrArg Except.ok (behind_of_startsValue (startsValue_callToken hlength) []).symm
  | sign op =>
    show Except.ok (signTokens previous op) = .ok (behind previous _ (signTokens none op))
    rw [signTokens_behind]
    simp
  | fault k => rfl

/-- Only the first piece sees the token in front; behind it all pieces see what they see without that token. -/
theorem tokensFrom_behind (hls : ∀ f arguments, .call f arguments ∈ ls → arguments.length = f.arity) :
    tokensFrom text argument previous ls =
      (tokensFrom text argument none ls).map (behind previous (ls.head? = some (.sign .subtract))) := by
  cases ls with
  | nil => exact congrArg Except.ok (behind_nil false).symm
  | cons l ls =>
    rw [tokensFrom, tokensFrom, tokens_behind fun f arguments h => hls f arguments (h ▸ List.mem_cons_self ..)]
    cases hl : l.tokens text argument none with
    | error e => rfl
    | ok us =>
      have hus := tokens_ne_nil hl
      show (tokensFrom text argument ((behind previous _ us).getLast?.or previous) ls >>= fun vs => _) =
        (tokensFrom text argument (us.getLast?.or none) ls >>= fun vs => _).map _
      rw [Option.or_none, tokensFrom_congr_context (context_behind hus _)]
      cases tokensFrom text argument us.getLast? ls with
      | error e => rfl
      | ok vs =>
        simp only [List.head?_cons, Option.some_inj]
        exact congrArg Except.ok (behind_append hus _ vs).symm

end Pieces

/-! ## Texts -/

section Texts

variable {text : Text} {argument : Text → Except TokenError Expr} {previous : Option Expr} {ls : List Lexeme}
  {ts : List Expr}

theorem not_fault_of_tokensFrom (h : tokensFrom text argument previous ls = .ok ts) (k : LexicalFault) :
    .fault k ∉ ls := by
  induction ls generalizing previous ts with
  | nil => exact List.not_mem_nil
  | cons l ls ih =>
    obtain ⟨us, vs, hus, hvs, -⟩ := tokensFrom_cons_eq_ok.1 h
    intro hk
    rcases List.mem_cons.1 hk with rfl | hk
    · exact nomatch hus
    · exact ih hvs hk

/-- Of the text itself only the error knows. -/
theorem tokens_mapError (text text' : Text) (l : Lexeme) : (l.tokens text argument previous).mapError TokenError.fault =
    (l.tokens text' argument previous).mapError TokenError.fault := by
  cases l with
  | literal t =>
    show ((literalTokens previous t).mapError _).mapError _ = ((literalTokens previous t).mapError _).mapError _
    cases literalTokens previous t <;> rfl
  | _ => rfl

theorem tokensFrom_mapError (text text' : Text) : (tokensFrom text argument previous ls).mapError TokenError.fault =
    (tokensFrom text' argument previous ls).mapError TokenError.fault := by
  induction ls generalizing previous with
  | nil => rfl
  | cons l ls ih =>
    rw [tokensFrom, tokensFrom, mapError_bind, mapError_bind, tokens_mapError text text']
    refine congrArg _ (funext fun us => ?_)
    rw [mapError_bind, mapError_bind, ih]

theorem tokensWithin_tolerant (limit : Int) (levels : Nat) (text : Text) : tokensWithin false limit (levels + 1) text =
    tokensFrom text (treeWithin false limit levels) none (lexemes text) := by
  rw [tokensWithin_succ]
  cases tokensFrom text (treeWithin false limit levels) none (lexemes text) <;> rfl

/-- The tokens of a joined text, or the fault of its second part. -/
theorem tokensWithin_append {limit : Int} {levels : Nat} {a b : Text} {left : List Expr}
    (ha : tokensWithin false limit levels a = .ok left) (hb : ∀ c ∈ b.head?, isLiteralChar c = false)
    (hm : b.head? = some '-' → a.getLast? ≠ some 'E') :
    (tokensWithin false limit levels (a ++ b)).mapError TokenError.fault =
      ((tokensWithin false limit levels b).mapError TokenError.fault).map
        fun right => left ++ behind left.getLast? ((b.dropWhile isBlank).head? = some '-') right := by
  cases levels with
  | zero => exact nomatch ha
  | succ levels =>
    rw [tokensWithin_tolerant] at ha
    have hleft : tokensFrom (a ++ b) (treeWithin false limit levels) none (lexemes a) = .ok left :=
      mapError_eq_ok.1 ((tokensFrom_mapError (a ++ b) a).trans (congrArg _ ha))
    rw [tokensWithin_tolerant, tokensWithin_tolerant, lexemes_append (not_fault_of_tokensFrom ha) hb hm,
      tokensFrom_append hleft, Option.or_none, tokensFrom_behind fun f arguments h => length_arguments h,
      tokensFrom_mapError b (a ++ b)]
    simp only [head?_lexemes]
    cases tokensFrom (a ++ b) (treeWithin false limit levels) none (lexemes b) <;> rfl

theorem head?_of_minus {limit : Int} {levels : Nat} {right : List Expr}
    (h : tokensWithin false limit levels text = .ok right) (hm : (text.dropWhile isBlank).head? = some '-') :
    right.head? = some (.bare .negate) := by
  cases levels with
  | zero => exact nomatch h
  | succ levels =>
    rw [tokensWithin_tolerant] at h
    obtain ⟨ls, hls⟩ := List.head?_eq_some_iff.1 ((head?_lexemes text).2 hm)
    rw [hls] at h
    obtain ⟨us, vs, hus, -, rfl⟩ := tokensFrom_cons_eq_ok.1 h
    obtain rfl := Except.ok.inj hus
    rfl

end Texts

/-- **The tokens of a joined text.** A fault of the second part is a fault of the whole. -/
theorem tokenize_append {limit depth : Int} {a b : Text} {left : List Expr}
    (ha : tokenize false limit depth a = .ok left) (hb : ∀ c ∈ b.head?, isLiteralChar c = false)
    (hm : (b.dropWhile isBlank).head? = some '-' → a.getLast? ≠ some 'E') :
    (∀ e, tokenize false limit depth b = .error e →
      ∃ e', tokenize false limit depth (a ++ b) = .error e' ∧ e'.kind = e.kind ∧ e'.code = e.code) ∧
    ∀ right, tokenize false limit depth b = .ok right →
      ((b.dropWhile isBlank).head? = some '-' → right.head? = some (.bare .negate)) ∧
      tokenize false limit depth (a ++ b) = .ok (left ++ (joint left.getLast? right ++
        if (b.dropWhile isBlank).head? = some '-' ∧ ¬signs left.getLast? then asOperator right else right)) := by
  have hjoined := tokensWithin_append ha hb fun hd => hm <| by
    obtain ⟨rest, rfl⟩ := List.head?_eq_some_iff.1 hd
    rfl
  refine ⟨fun e he => ?_, fun right hright => ⟨head?_of_minus hright, ?_⟩⟩
  · rw [show tokensWithin false limit _ b = .error e from he] at hjoined
    obtain ⟨e', he', hfault⟩ := mapError_eq_error.1 hjoined
    exact ⟨e', he', congrArg LexicalFault.kind hfault, congrArg LexicalFault.code hfault⟩
  · rw [show tokensWithin false limit _ b = .ok right from hright] at hjoined
    refine (mapError_eq_ok.1 hjoined).trans ?_
    simp [behind]

/-- A minus behind a value is no sign. -/
theorem tokenize_x_minus_e : tokenize false 0 0 ['x', ' ', '-', 'e'] =
    .ok [.bare .freeVariable, .bare .subtract, .bare .euler] := by
  have ha : lexemes ['x'] = [.sign .freeVariable] := by
    rw [lexemes_sign (by decide) (by decide) (by decide) rfl, lexemes]
  have hb : lexemes [' ', '-', 'e'] = [.sign .subtract, .sign .euler] := by
    rw [lexemes, if_neg (by decide), if_neg (by decide), if_pos (by decide),
      lexemes_sign (by decide) (by decide) (by decide) rfl, lexemes_sign (by decide) (by decide) (by decide) rfl, lexemes]
  have hleft : tokenize false 0 0 ['x'] = .ok [.bare .freeVariable] := by
    show tokensWithin false 0 1 ['x'] = _
    rw [tokensWithin_tolerant, ha]
    rfl
  have hright : tokenize false 0 0 [' ', '-', 'e'] = .ok [.bare .negate, .bare .euler] := by
    show tokensWithin false 0 1 [' ', '-', 'e'] = _
    rw [tokensWithin_tolerant, hb]
    rfl
  refine ((tokenize_append hleft ?_ ?_).2 _ hright).2
  · rintro c ⟨⟩
    rfl
  · intro _
    decide

end Calculator
