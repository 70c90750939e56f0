import Calculator.Proofs.AnswerPieces
import Calculator.Proofs.Concatenation
import Calculator.Proofs.LiteralValue
import Calculator.Proofs.Strictness
import Calculator.Proofs.Understanding

/-!
# The value of a text with an answer in it

In parentheses an answer is one number, or a minus and one number: the tokens of a text with the answer in it are those of
the text with the free variable, a number in each place of the variable. What derives the first derives the second, so the
tree of the text is the tree with the variable, the number in each of its places, and has the value that it has there.

* `Expr.fill`, `fillToken` : a number in every place of the free variable.
* `evaluate_fill` : the value of a filled tree.
* `exists_derivation_of_filled` : filled tokens derive as the tokens with the variable do.
* `exists_tokens_of_filled` : the tokens of a filled text.
* `evaluate_answer` : a text with the answer in it has the value of the text with the free variable.
-/

namespace Calculator

set_option autoImplicit false

open Calculator.Number (readFloat?)

/-! ## Trees -/

/-- A number as a tree, behind a minus if it is negative. -/
def signedNumber (negative : Bool) (w : Float) : Expr := if negative then .unary .negate (.number w) else .number w

def signedTokens (negative : Bool) (w : Float) : List Expr :=
  if negative then [.bare .negate, .number w] else [.number w]

namespace Expr

/-- The tree with the answer in every place of the free variable. -/
def fill : (e answer : Expr) → Expr
  | name _, answer => answer
  | bare op, answer => if op = .freeVariable then answer else bare op
  | unary op e, answer => unary op (e.fill answer)
  | binary l op r, answer => binary (l.fill answer) op (r.fill answer)
  | call f e, answer => call f (e.fill answer)
  | call₂ f a b, answer => call₂ f (a.fill answer) (b.fill answer)
  | e, _ => e

/-- A filled tree has the value of the tree at the value of the answer. -/
theorem evaluate_fill {answer : Expr} {x v : Float} {mode : AngleMode} (h : answer.evaluate x mode = .ok (some v))
    (e : Expr) : (e.fill answer).evaluate x mode = e.evaluate v mode := by
  induction e with
  | name t => exact h
  | bare op =>
    rw [fill]
    split
    · rename_i hop
      subst hop
      exact h
    · cases op <;> first | rfl | exact absurd rfl ‹_›
  | unary op e ih => rw [fill, evaluate_unary, evaluate_unary, ih]
  | binary l op r ihl ihr => rw [fill, evaluate_binary, evaluate_binary, ihl, ihr]
  | call f e ih => rw [fill, evaluate_call, evaluate_call, ih]
  | call₂ f a b iha ihb => rw [fill, evaluate_call₂, evaluate_call₂, iha, ihb]
  | _ => rfl

end Expr

theorem evaluate_signedNumber (negative : Bool) (u : Spelling) (x : Float) (mode : AngleMode) :
    (signedNumber negative (u.toFloat false)).evaluate x mode = .ok (some (u.toFloat negative)) := by
  cases negative <;> rfl

/-! ## Derivations -/

section Derivations

variable (negative : Bool) (w : Float)

/-- The tokens that stand for a token where the answer stands for the free variable. -/
def fillToken : Expr → List Expr
  | .bare .freeVariable => signedTokens negative w
  | .call f e => [.call f (e.fill (signedNumber negative w))]
  | .call₂ f a b => [.call₂ f (a.fill (signedNumber negative w)) (b.fill (signedNumber negative w))]
  | t => [t]

/-- In front of a free variable there is an opening parenthesis. -/
def VariableOpened (t u : Expr) : Prop := u = .bare .freeVariable → t = .bare .opening

theorem fillToken_ne_nil (t : Expr) : fillToken negative w t ≠ [] := by
  unfold fillToken
  split
  · cases negative <;> exact List.cons_ne_nil _ _
  all_goals exact List.cons_ne_nil _ _

variable {negative w} {ts us vs : List Expr} {t : Expr} {op : Operator}

theorem fillToken_bare (h : op ≠ .freeVariable) : fillToken negative w (.bare op) = [.bare op] := by
  cases op <;> first | rfl | exact absurd rfl h

theorem flatMap_fillToken_eq_nil : ts.flatMap (fillToken negative w) = [] ↔ ts = [] := by
  constructor
  · intro h
    cases ts with
    | nil => rfl
    | cons t ts => exact absurd (List.append_eq_nil_iff.1 h).1 (fillToken_ne_nil negative w t)
  · rintro rfl
    rfl

/-- An operator comes from itself, or it is the sign of the answer. -/
theorem bare_mem_fillToken (h : .bare op ∈ fillToken negative w t) :
    t = .bare op ∧ op ≠ .freeVariable ∨ t = .bare .freeVariable ∧ negative = true ∧ op = .negate := by
  unfold fillToken at h
  split at h
  · cases negative with
    | false => exact nomatch List.mem_singleton.1 h
    | true =>
      refine .inr ⟨rfl, rfl, ?_⟩
      rcases List.mem_cons.1 h with h | h
      · exact Expr.bare.inj h
      · exact nomatch List.mem_singleton.1 h
  · exact nomatch List.mem_singleton.1 h
  · exact nomatch List.mem_singleton.1 h
  · rename_i hvariable _ _
    obtain rfl := List.mem_singleton.1 h
    exact .inl ⟨rfl, fun hop => hvariable (congrArg Expr.bare hop)⟩

/-- The tokens around an operator that no answer has in it. -/
theorem exists_split (hnegate : op ≠ .negate) (h : ts.flatMap (fillToken negative w) = us ++ .bare op :: vs) :
    ∃ ts₁ ts₂, ts = ts₁ ++ .bare op :: ts₂ ∧ ts₁.flatMap (fillToken negative w) = us ∧
      ts₂.flatMap (fillToken negative w) = vs := by
  induction ts generalizing us with
  | nil => simp at h
  | cons t ts ih =>
    rw [List.flatMap_cons, List.append_eq_append_iff] at h
    rcases h with ⟨ws, rfl, h⟩ | ⟨ws, hus, h⟩
    · obtain ⟨ts₁, ts₂, rfl, hts₁, hts₂⟩ := ih h
      exact ⟨t :: ts₁, ts₂, rfl, by rw [List.flatMap_cons, hts₁], hts₂⟩
    · cases ws with
      | nil =>
        have hrest : ts.flatMap (fillToken negative w) = [] ++ .bare op :: vs := h.symm
        obtain ⟨ts₁, ts₂, rfl, hts₁, hts₂⟩ := ih hrest
        obtain rfl := flatMap_fillToken_eq_nil.1 hts₁
        exact ⟨[t], ts₂, rfl, by rw [List.flatMap_singleton, hus, List.append_nil], hts₂⟩
      | cons s ws =>
        obtain ⟨rfl, hvs⟩ := List.cons.inj h
        have hmem : .bare op ∈ fillToken negative w t := hus ▸ List.mem_append_right us (List.mem_cons_self ..)
        rcases bare_mem_fillToken hmem with ⟨rfl, hop⟩ | ⟨-, -, hop⟩
        · rw [fillToken_bare hop] at hus
          obtain ⟨rfl, hws⟩ | ⟨-, hws⟩ := List.singleton_eq_append_iff.1 hus
          · obtain rfl := (List.cons.inj hws).2
            exact ⟨[], ts, rfl, rfl, hvs.symm⟩
          · exact nomatch hws
        · exact absurd hop hnegate

theorem eq_cons_of_bare (hnegate : op ≠ .negate) (h : ts.flatMap (fillToken negative w) = .bare op :: vs) :
    ∃ ts', ts = .bare op :: ts' ∧ ts'.flatMap (fillToken negative w) = vs := by
  have hsplit : ts.flatMap (fillToken negative w) = [] ++ .bare op :: vs := h
  obtain ⟨ts₁, ts₂, rfl, hts₁, hts₂⟩ := exists_split hnegate hsplit
  obtain rfl := flatMap_fillToken_eq_nil.1 hts₁
  exact ⟨ts₂, rfl, hts₂⟩

theorem eq_singleton {s : Expr} (h : ts.flatMap (fillToken negative w) = [s]) :
    ∃ t, ts = [t] ∧ fillToken negative w t = [s] := by
  cases ts with
  | nil => exact nomatch h
  | cons t ts =>
    rcases List.append_eq_singleton_iff.1 h with ⟨ht, -⟩ | ⟨ht, hts⟩
    · exact absurd ht (fillToken_ne_nil negative w t)
    · obtain rfl := flatMap_fillToken_eq_nil.1 hts
      exact ⟨t, rfl, ht⟩

/-- A minus comes from itself, or it is the sign of the answer. -/
theorem eq_cons_of_negate (h : ts.flatMap (fillToken negative w) = .bare .negate :: vs) :
    (∃ ts', ts = .bare .negate :: ts' ∧ ts'.flatMap (fillToken negative w) = vs) ∨
      ∃ ts', ts = .bare .freeVariable :: ts' ∧ negative = true ∧
        vs = .number w :: ts'.flatMap (fillToken negative w) := by
  cases ts with
  | nil => exact nomatch h
  | cons t ts =>
    rw [List.flatMap_cons] at h
    have hmem : .bare .negate ∈ fillToken negative w t := by
      obtain ⟨s, us, ht⟩ := List.exists_cons_of_ne_nil (fillToken_ne_nil negative w t)
      rw [ht] at h ⊢
      exact (List.cons.inj h).1 ▸ List.mem_cons_self ..
    rcases bare_mem_fillToken hmem with ⟨rfl, hop⟩ | ⟨rfl, rfl, -⟩
    · exact .inl ⟨ts, rfl, (List.cons.inj h).2⟩
    · exact .inr ⟨ts, rfl, rfl, (List.cons.inj h).2.symm⟩

theorem fillToken_cases {s : Expr} (h : fillToken negative w t = [s]) :
    (t = .bare .freeVariable ∧ negative = false ∧ s = .number w) ∨
      (∃ f e, t = .call f e ∧ s = .call f (e.fill (signedNumber negative w))) ∨
      (∃ f a b, t = .call₂ f a b ∧
        s = .call₂ f (a.fill (signedNumber negative w)) (b.fill (signedNumber negative w))) ∨
      t = s ∧ s ≠ .bare .freeVariable ∧ (∀ f e, s ≠ .call f e) ∧ ∀ f a b, s ≠ .call₂ f a b := by
  unfold fillToken at h
  split at h
  · cases negative with
    | false => exact .inl ⟨rfl, rfl, (List.singleton_inj.1 h).symm⟩
    | true => exact nomatch (List.cons.inj h).2
  · exact .inr (.inl ⟨_, _, rfl, (List.singleton_inj.1 h).symm⟩)
  · exact .inr (.inr (.inl ⟨_, _, _, rfl, (List.singleton_inj.1 h).symm⟩))
  · rename_i hvariable hcall hcall₂
    obtain rfl := List.singleton_inj.1 h
    exact .inr (.inr (.inr ⟨rfl, hvariable, hcall, hcall₂⟩))

/-- A base that begins with a number is the number. -/
theorem eq_number_of_tokens (D : Derivation .base) (h : D.tokens = .number w :: us) : D = .number w ∧ us = [] := by
  cases D with
  | number v =>
    obtain ⟨hv, hus⟩ := List.cons.inj h
    exact ⟨congrArg _ (Expr.number.inj hv), hus.symm⟩
  | _ => exact nomatch (List.cons.inj h).1

/-- Filled tokens derive as the tokens with the free variable do. -/
theorem exists_derivation_of_filled {level : Level} (D' : Derivation level) (hchain : ts.IsChain VariableOpened)
    (h : ts.flatMap (fillToken negative w) = D'.tokens) :
    ∃ D : Derivation level, D.tokens = ts ∧ D.tree.fill (signedNumber negative w) = D'.tree ∧
      D.nesting ≤ D'.nesting := by
  induction D' generalizing ts with
  | ofTerm D' ih =>
    obtain ⟨D, hD, htree, hn⟩ := ih hchain h
    exact ⟨.ofTerm D, hD, htree, hn⟩
  | ofFactor D' ih =>
    obtain ⟨D, hD, htree, hn⟩ := ih hchain h
    exact ⟨.ofFactor D, hD, htree, hn⟩
  | ofBase D' ih =>
    obtain ⟨D, hD, htree, hn⟩ := ih hchain h
    exact ⟨.ofBase D, hD, htree, hn⟩
  | sum l' op hop r' ihl ihr =>
    have hnegate : op ≠ .negate := by rcases hop with rfl | rfl <;> decide
    obtain ⟨ts₁, ts₂, rfl, h₁, h₂⟩ := exists_split hnegate h
    obtain ⟨l, rfl, hl, hnl⟩ := ihl hchain.left_of_append h₁
    obtain ⟨r, rfl, hr, hnr⟩ := ihr hchain.right_of_append.tail h₂
    exact ⟨.sum l op hop r, rfl, by rw [Derivation.tree, Expr.fill, hl, hr]; rfl, max_le_max hnl hnr⟩
  | product l' op hop r' ihl ihr =>
    have hnegate : op ≠ .negate := by rcases hop with rfl | rfl <;> decide
    obtain ⟨ts₁, ts₂, rfl, h₁, h₂⟩ := exists_split hnegate h
    obtain ⟨l, rfl, hl, hnl⟩ := ihl hchain.left_of_append h₁
    obtain ⟨r, rfl, hr, hnr⟩ := ihr hchain.right_of_append.tail h₂
    exact ⟨.product l op hop r, rfl, by rw [Derivation.tree, Expr.fill, hl, hr]; rfl, max_le_max hnl hnr⟩
  | power l' r' ihl ihr =>
    obtain ⟨ts₁, ts₂, rfl, h₁, h₂⟩ := exists_split (by decide) h
    obtain ⟨l, rfl, hl, hnl⟩ := ihl hchain.left_of_append h₁
    obtain ⟨r, rfl, hr, hnr⟩ := ihr hchain.right_of_append.tail h₂
    exact ⟨.power l r, rfl, by rw [Derivation.tree, Expr.fill, hl, hr]; rfl, max_le_max hnl (Nat.succ_le_succ hnr)⟩
  | parentheses D' ih =>
    obtain ⟨ts', rfl, hts'⟩ := eq_cons_of_bare (by decide) h
    obtain ⟨ts₁, ts₂, rfl, h₁, h₂⟩ := exists_split (by decide) hts'
    obtain rfl := flatMap_fillToken_eq_nil.1 h₂
    obtain ⟨D, rfl, htree, hn⟩ := ih hchain.tail.left_of_append h₁
    exact ⟨.parentheses D, rfl, htree, Nat.succ_le_succ hn⟩
  | signed op hop D' ih =>
    rcases hop with rfl | rfl
    · rcases eq_cons_of_negate h with ⟨ts', rfl, hts'⟩ | ⟨ts', rfl, rfl, hts'⟩
      · obtain ⟨D, rfl, htree, hn⟩ := ih hchain.tail hts'
        exact ⟨.signed .negate (.inl rfl) D, rfl, by rw [Derivation.tree, Expr.fill, htree]; rfl, Nat.succ_le_succ hn⟩
      · obtain ⟨rfl, hnil⟩ := eq_number_of_tokens D' hts'
        obtain rfl := flatMap_fillToken_eq_nil.1 hnil
        exact ⟨.freeVariable, rfl, rfl, Nat.zero_le _⟩
    · obtain ⟨ts', rfl, hts'⟩ := eq_cons_of_bare (by decide) h
      obtain ⟨D, rfl, htree, hn⟩ := ih hchain.tail hts'
      exact ⟨.signed .squareRoot (.inr rfl) D, rfl, by rw [Derivation.tree, Expr.fill, htree]; rfl, Nat.succ_le_succ hn⟩
  | call f e' =>
    obtain ⟨t, rfl, ht⟩ := eq_singleton h
    obtain ⟨-, -, hs⟩ | ⟨g, e, rfl, hs⟩ | ⟨g, a, b, -, hs⟩ | ⟨-, -, hs, -⟩ := fillToken_cases ht
    · cases hs
    · exact ⟨.call g e, rfl, hs.symm, le_rfl⟩
    · cases hs
    · exact absurd rfl (hs f e')
  | call₂ f a' b' =>
    obtain ⟨t, rfl, ht⟩ := eq_singleton h
    obtain ⟨-, -, hs⟩ | ⟨g, e, -, hs⟩ | ⟨g, a, b, rfl, hs⟩ | ⟨-, -, -, hs⟩ := fillToken_cases ht
    · cases hs
    · cases hs
    · exact ⟨.call₂ g a b, rfl, hs.symm, le_rfl⟩
    · exact absurd rfl (hs f a' b')
  | number v =>
    obtain ⟨t, rfl, ht⟩ := eq_singleton h
    obtain ⟨rfl, rfl, hs⟩ | ⟨g, e, -, hs⟩ | ⟨g, a, b, -, hs⟩ | ⟨rfl, -⟩ := fillToken_cases ht
    · exact ⟨.freeVariable, rfl, hs.symm, le_rfl⟩
    · cases hs
    · cases hs
    · exact ⟨.number v, rfl, rfl, le_rfl⟩
  | constant op hop =>
    obtain ⟨ts', rfl, hts'⟩ := eq_cons_of_bare (by rcases hop with rfl | rfl <;> decide) h
    obtain rfl := flatMap_fillToken_eq_nil.1 hts'
    refine ⟨.constant op hop, rfl, ?_, le_rfl⟩
    rcases hop with rfl | rfl <;> rfl
  | freeVariable =>
    obtain ⟨t, rfl, ht⟩ := eq_singleton h
    obtain ⟨-, -, hs⟩ | ⟨g, e, -, hs⟩ | ⟨g, a, b, -, hs⟩ | ⟨-, hs, -⟩ := fillToken_cases ht
    · cases hs
    · cases hs
    · cases hs
    · exact absurd rfl hs
  | powerOfTen v =>
    obtain ⟨ts', rfl, hts'⟩ := eq_cons_of_bare (by decide) h
    obtain ⟨t, rfl, ht⟩ := eq_singleton hts'
    obtain ⟨rfl, -, -⟩ | ⟨g, e, -, hs⟩ | ⟨g, a, b, -, hs⟩ | ⟨rfl, -⟩ := fillToken_cases ht
    -- The mark of a power of ten is no parenthesis: the exponent is no free variable.
    · cases (List.isChain_cons_cons.1 hchain).1 rfl
    · cases hs
    · cases hs
    · exact ⟨.powerOfTen v, rfl, rfl, le_rfl⟩

end Derivations

/-! ## Tokens -/

section Tokens

variable {negative : Bool} {w : Float} {u : Spelling} {text text' : Text}
  {argument argument' : Text → Except TokenError Expr} {previous previous' : Option Expr} {l : Lexeme}
  {ls : List Lexeme} {us us' vs ts' : List Expr}

theorem isFilling_signText (u : Spelling) (negative : Bool) : (signText negative u.text).IsFilling := by
  have hplain : ∀ c ∈ u.text, c ∉ listSigns := by
    have hall : Spelling.alphabet.all fun c => c ∉ listSigns := by decide
    intro c hc
    exact of_decide_eq_true (List.all_eq_true.1 hall c (u.mem_alphabet_text c hc))
  cases negative with
  | false =>
    obtain ⟨c, rest, htext, -⟩ := u.exists_text_eq
    refine ⟨?_, hplain, fun k hk => ?_⟩
    · rw [signText, if_neg Bool.false_ne_true, htext]
      exact List.cons_ne_nil _ _
    · rw [signText, if_neg Bool.false_ne_true, u.lexemes_text] at hk
      exact nomatch List.mem_singleton.1 hk
  | true =>
    refine ⟨List.cons_ne_nil _ _, List.forall_mem_cons.2 ⟨by decide, hplain⟩, fun k hk => ?_⟩
    rw [signText, if_pos rfl, u.lexemes_minus] at hk
    simp at hk

/-- At the beginning, and behind an opening parenthesis, no value ends and a minus is a sign. -/
theorem opened_variable (h : ∀ t ∈ previous, t = .bare .opening) :
    context previous = (false, true) ∧ (previous.toList ++ [Expr.bare .freeVariable]).IsChain VariableOpened := by
  cases previous with
  | none => exact ⟨rfl, List.isChain_singleton _⟩
  | some t =>
    obtain rfl := h t rfl
    exact ⟨rfl, List.isChain_cons_cons.2 ⟨fun _ => rfl, List.isChain_singleton _⟩⟩

theorem tokensFrom_answer (h : context previous = (false, true)) :
    tokensFrom text argument previous (lexemes (signText negative u.text)) =
      .ok (signedTokens negative (u.toFloat false)) := by
  have hglue : glue previous = [] := glue_congr_context (h.trans (rfl : _ = context none))
  cases negative with
  | false =>
    rw [signText, if_neg Bool.false_ne_true, u.lexemes_text, tokensFrom, Lexeme.tokens, literalTokens_text, hglue]
    rfl
  | true =>
    rw [signText, if_pos rfl, u.lexemes_minus, tokensFrom_cons_eq_ok]
    refine ⟨[.bare .negate], [.number (u.toFloat false)], ?_, ?_, rfl⟩
    · rw [Lexeme.tokens, signTokens_subtract, (Prod.mk.inj h).2, if_pos rfl]
    · rw [tokensFrom, Lexeme.tokens, literalTokens_text]
      rfl

theorem isChain_of_ne (h : ∀ t ∈ us, t ≠ .bare .freeVariable) (previous : Option Expr) :
    (previous.toList ++ us).IsChain VariableOpened := by
  induction us generalizing previous with
  | nil => cases previous with
    | none => exact List.isChain_nil
    | some t => exact List.isChain_singleton t
  | cons t us ih =>
    have hus := ih (fun s hs => h s (List.mem_cons_of_mem _ hs)) (some t)
    cases previous with
    | none => exact hus
    | some s => exact List.isChain_cons_cons.2 ⟨fun ht => absurd ht (h t (List.mem_cons_self ..)), hus⟩

theorem isChain_append (hne : us ≠ []) (hus : (previous.toList ++ us).IsChain VariableOpened)
    (hvs : ((us.getLast?.or previous).toList ++ vs).IsChain VariableOpened) :
    (previous.toList ++ (us ++ vs)).IsChain VariableOpened := by
  obtain ⟨us, t, rfl⟩ := (List.eq_nil_or_concat' us).resolve_left hne
  rw [List.getLast?_concat] at hvs
  rw [List.append_assoc, ← List.append_assoc]
  rw [← List.append_assoc] at hus
  exact List.isChain_split.2 ⟨hus, hvs⟩

theorem context_fill (hne : us ≠ []) :
    context ((us.flatMap (fillToken negative w)).getLast?.or previous') = context (us.getLast?.or previous) := by
  obtain ⟨us, t, rfl⟩ := (List.eq_nil_or_concat' us).resolve_left hne
  rw [List.flatMap_append, List.flatMap_singleton, List.getLast?_concat, List.getLast?_append]
  unfold fillToken
  split
  · cases negative <;> rfl
  all_goals rfl

/-- Tokens that stand for themselves. -/
def Kept (negative : Bool) (w : Float) (us : List Expr) : Prop :=
  ∀ t ∈ us, fillToken negative w t = [t] ∧ t ≠ .bare .freeVariable

theorem kept_operator {op : Operator} (h : op ≠ .freeVariable) :
    fillToken negative w (.bare op) = [.bare op] ∧ Expr.bare op ≠ .bare .freeVariable :=
  ⟨fillToken_bare h, fun heq => h (Expr.bare.inj heq)⟩

theorem kept_glue (previous : Option Expr) : Kept negative w (glue previous) := by
  intro t ht
  rw [eq_of_mem_glue t ht]
  exact kept_operator (by decide)

theorem kept_literalTokens {literal : Text} (h : literalTokens previous literal = .ok us) : Kept negative w us := by
  have hnumber (v : Float) : fillToken negative w (.number v) = [.number v] ∧ Expr.number v ≠ .bare .freeVariable :=
    ⟨rfl, fun heq => nomatch heq⟩
  have hmark : fillToken negative w (.bare .scientific) = [.bare .scientific] ∧
      Expr.bare .scientific ≠ .bare .freeVariable := kept_operator (by decide)
  obtain ⟨v, -, rfl⟩ | rfl | ⟨exponent, v, -, -, rfl⟩ := literalTokens_cases h
  · exact List.forall_mem_append.2 ⟨kept_glue previous, List.forall_mem_singleton.2 (hnumber v)⟩
  · exact List.forall_mem_singleton.2 hmark
  · exact List.forall_mem_cons.2 ⟨hmark, List.forall_mem_singleton.2 (hnumber v)⟩

theorem kept_signTokens {op : Operator} (h : op ≠ .freeVariable) : Kept negative w (signTokens previous op) := by
  unfold signTokens
  split_ifs
  · exact List.forall_mem_append.2 ⟨kept_glue previous, List.forall_mem_singleton.2 (kept_operator h)⟩
  · exact List.forall_mem_singleton.2 (kept_operator (by decide))
  · exact List.forall_mem_singleton.2 (kept_operator h)

theorem Kept.flatMap_eq (h : Kept negative w us) : us.flatMap (fillToken negative w) = us :=
  (List.flatMap_congr fun t ht => (h t ht).1).trans (List.flatMap_singleton' us)

theorem Kept.isChain (h : Kept negative w us) (previous : Option Expr) :
    (previous.toList ++ us).IsChain VariableOpened := isChain_of_ne (fun t ht => (h t ht).2) previous

theorem fillToken_callToken (f : NamedFunction) (trees : List Expr) : fillToken negative w (callToken f trees) =
    [callToken f (trees.map fun e => e.fill (signedNumber negative w))] := by
  match trees with
  | [] | [_] | [_, _] | _ :: _ :: _ :: _ => rfl

/-- The intact trees of filled texts are the trees of the texts, filled. -/
def FillsTrees (negative : Bool) (u : Spelling) (argument argument' : Text → Except TokenError Expr) : Prop :=
  ∀ a e', Enclosed a → argument' (Text.fill (signText negative u.text) a) = .ok e' → e'.intact →
    ∃ e, argument a = .ok e ∧ e.fill (signedNumber negative (u.toFloat false)) = e'

theorem exists_trees_of_filled (hfills : FillsTrees negative u argument argument') {arguments : List Text}
    {trees' : List Expr} (henclosed : ∀ a ∈ arguments, Enclosed a)
    (h : (arguments.map (Text.fill (signText negative u.text))).mapM argument' = .ok trees')
    (hi : ∀ e ∈ trees', e.intact) : ∃ trees, arguments.mapM argument = .ok trees ∧
      (trees.map fun e => e.fill (signedNumber negative (u.toFloat false))) = trees' := by
  induction arguments generalizing trees' with
  | nil =>
    obtain rfl := Except.ok.inj h
    exact ⟨[], rfl, rfl⟩
  | cons a arguments ih =>
    obtain ⟨ha, harguments⟩ := List.forall_mem_cons.1 henclosed
    obtain ⟨⟩ | ⟨he', htrees'⟩ := mapM_eq_ok.1 h
    rename_i e' trees'
    obtain ⟨hie, hitrees⟩ := List.forall_mem_cons.1 hi
    obtain ⟨e, he, rfl⟩ := hfills a e' ha he' hie
    obtain ⟨trees, htrees, rfl⟩ := ih harguments (mapM_eq_ok.2 htrees') hitrees
    exact ⟨e :: trees, mapM_eq_ok.2 (.cons he (mapM_eq_ok.1 htrees)), rfl⟩

theorem exists_tokens_of_filled_piece (hfills : FillsTrees negative u argument argument')
    (hprevious : l = .sign .freeVariable → ∀ t ∈ previous, t = .bare .opening)
    (henclosed : ∀ f arguments, l = .call f arguments → ∀ a ∈ arguments, Enclosed a)
    (hcontext : context previous' = context previous)
    (h : tokensFrom text' argument' previous' (Lexeme.fill (signText negative u.text) l) = .ok us')
    (hi : ∀ t ∈ us', t.intact) : ∃ us, l.tokens text argument previous = .ok us ∧
      us.flatMap (fillToken negative (u.toFloat false)) = us' ∧
      (previous.toList ++ us).IsChain VariableOpened := by
  cases l with
  | literal s =>
    have htokens := mapError_eq_ok.1 (tokensFrom_singleton_eq_ok.1 h)
    have hkept : Kept negative (u.toFloat false) us' := kept_literalTokens htokens
    refine ⟨us', ?_, hkept.flatMap_eq, hkept.isChain previous⟩
    rw [tokens_congr_context hcontext.symm]
    exact mapError_eq_ok.2 htokens
  | call f arguments =>
    obtain ⟨trees', htrees', rfl⟩ := tokens_call_eq_ok.1 (tokensFrom_singleton_eq_ok.1 h)
    have hcall := hi _ (List.mem_append_right _ (List.mem_singleton_self _))
    obtain ⟨trees, htrees, rfl⟩ :=
      exists_trees_of_filled hfills (henclosed f arguments rfl) htrees' (intact_of_callToken hcall)
    have hglue := glue_congr_context hcontext
    have hkept : Kept negative (u.toFloat false) (glue previous) := kept_glue previous
    refine ⟨_, tokens_call_eq_ok.2 ⟨trees, htrees, rfl⟩, ?_, isChain_of_ne (List.forall_mem_append.2 ⟨?_, ?_⟩) previous⟩
    · rw [List.flatMap_append, hkept.flatMap_eq, List.flatMap_singleton, fillToken_callToken, hglue]
    · exact fun t ht => (hkept t ht).2
    · exact List.forall_mem_singleton.2 (callToken_ne_bare f trees _)
  | sign op =>
    by_cases hop : op = .freeVariable
    · subst hop
      obtain ⟨hopening, hchain⟩ := opened_variable (hprevious rfl)
      obtain rfl := Except.ok.inj ((tokensFrom_answer (hcontext.trans hopening)).symm.trans h)
      refine ⟨[.bare .freeVariable], ?_, List.append_nil _, hchain⟩
      have hglue : glue previous = [] := glue_congr_context (hopening.trans (rfl : _ = context none))
      rw [Lexeme.tokens, signTokens, hglue]
      rfl
    · have hfill : Lexeme.fill (signText negative u.text) (.sign op) = [.sign op] := by
        cases op <;> first | rfl | exact absurd rfl hop
      rw [hfill] at h
      obtain rfl := Except.ok.inj (tokensFrom_singleton_eq_ok.1 h)
      have hkept : Kept negative (u.toFloat false) (signTokens previous' op) := kept_signTokens hop
      refine ⟨_, ?_, hkept.flatMap_eq, hkept.isChain previous⟩
      exact tokens_congr_context hcontext.symm
  | fault k =>
    cases k <;> exact absurd (List.mem_singleton_self _) (not_fault_of_tokensFrom h _)

/-- **The tokens of a filled text are those of the text, filled.** The induction goes along the pieces of the text; what
carries it is that the token in front of a piece ends a value, and makes a minus a sign, in both texts alike. -/
theorem exists_tokens_of_filled (hfills : FillsTrees negative u argument argument') (hls : ls.IsChain OpenedAt)
    (hprevious : ls.head? = some (.sign .freeVariable) → ∀ t ∈ previous, t = .bare .opening)
    (henclosed : ∀ f arguments, .call f arguments ∈ ls → ∀ a ∈ arguments, Enclosed a)
    (hcontext : context previous' = context previous)
    (h : tokensFrom text' argument' previous' (ls.flatMap (Lexeme.fill (signText negative u.text))) = .ok ts')
    (hi : ∀ t ∈ ts', t.intact) : ∃ ts, tokensFrom text argument previous ls = .ok ts ∧
      ts.flatMap (fillToken negative (u.toFloat false)) = ts' ∧
      (previous.toList ++ ts).IsChain VariableOpened := by
  induction ls generalizing previous previous' ts' with
  | nil =>
    obtain rfl := Except.ok.inj h
    exact ⟨[], rfl, rfl, isChain_of_ne (fun t ht => absurd ht List.not_mem_nil) previous⟩
  | cons l ls ih =>
    obtain ⟨us', vs', hus', hvs', rfl⟩ := tokensFrom_append_eq_ok.1 h
    obtain ⟨hius, hivs⟩ := List.forall_mem_append.1 hi
    obtain ⟨us, hus, rfl, hchain⟩ := exists_tokens_of_filled_piece hfills (fun hl => hprevious (congrArg some hl))
      (fun f arguments hl => henclosed f arguments (hl ▸ List.mem_cons_self ..)) hcontext hus' hius
    have hne := tokens_ne_nil hus
    have hopened : ls.head? = some (.sign .freeVariable) → ∀ t ∈ us.getLast?.or previous, t = .bare .opening := by
      intro hhead t ht
      obtain rfl := (List.isChain_cons.1 hls).1 _ hhead rfl
      obtain rfl := Except.ok.inj hus
      have htokens : signTokens previous .opening = glue previous ++ [.bare .opening] := rfl
      rw [htokens, List.getLast?_concat] at ht
      exact (Option.some.inj ht).symm
    obtain ⟨vs, hvs, rfl, hrest⟩ := ih hls.tail hopened
      (fun f arguments hl => henclosed f arguments (List.mem_cons_of_mem _ hl)) (context_fill hne) hvs' hivs
    exact ⟨us ++ vs, tokensFrom_cons_eq_ok.2 ⟨us, vs, hus, hvs, rfl⟩, List.flatMap_append ..,
      isChain_append hne hchain hrest⟩

end Tokens

/-! ## Texts -/

section Texts

variable {s : Setup} {p : Text} {a x : Float} {e : Expr}

/-- The intact tree of a filled text is that of the text, filled: calls of any depth included. -/
theorem fillsTrees_treeWithin (negative : Bool) (u : Spelling) (strict : Bool) (limit : Int) (levels : ℕ) :
    FillsTrees negative u (treeWithin strict limit levels) (treeWithin strict limit levels) := by
  induction levels with
  | zero => exact fun a e' _ h => nomatch h
  | succ levels ih =>
    intro a e' ha h hi
    obtain ⟨D', rfl, hn', hintact, htokens'⟩ := exists_derivation_of_text h hi
    rw [lexemes_fill (isFilling_signText u negative) ha] at htokens'
    have hopened : (lexemes a).head? = some (.sign .freeVariable) → ∀ t ∈ (none : Option Expr), t = .bare .opening :=
      fun _ t ht => nomatch ht
    obtain ⟨ts, hts, hfill, hchain⟩ := exists_tokens_of_filled ih (isChain_lexemes ha) hopened
      (fun f arguments => enclosed_argument ha) rfl htokens' hintact
    obtain ⟨D, rfl, htree, hn⟩ := exists_derivation_of_filled D' hchain hfill
    refine ⟨D.tree, treeWithin_eq_ok.2 ⟨D.tokens, ?_, treeOfTokens_tokens D (hn.trans hn')⟩, htree⟩
    exact tokensWithin_succ_eq_ok.2 ⟨hts, fun _ => findFault_tokens D⟩

/-- **A text with an answer in it has the value of the text with the free variable, at the answer.** Every `ans` stands in
parentheses; the answer is what is shown of a finite double, read again. -/
theorem evaluate_answer (hp : 'x' ∉ p) (hans : AnswersEnclosed p) (ha : a.isFinite)
    (h : s.treeOf (substituteAnswer (Display.text a) p) = .ok e) (hi : e.intact) :
    ∃ v e', readFloat? (Display.text a) = some v ∧ s.treeOf (substituteAnswer ['x'] p) = .ok e' ∧
      ∀ x, e.evaluate x s.angleMode = e'.evaluate v s.angleMode := by
  obtain ⟨u, negative, htext, -⟩ := exists_signText ha
  rw [htext, ← fill_substituteAnswer hp, Setup.treeOf, treeOf_eq_treeWithin] at h
  obtain ⟨e', he', rfl⟩ := fillsTrees_treeWithin negative u _ _ _ _ _ (enclosed_substituteAnswer hans hp) h hi
  refine ⟨u.toFloat negative, e', ?_, treeOf_eq_treeWithin.trans he', fun x => ?_⟩
  · rw [htext, readFloat?_signText]
  · exact Expr.evaluate_fill (evaluate_signedNumber negative u x s.angleMode) e'

/-- A small answer has a minus in its exponent, and one in front. -/
theorem evaluate_small_answer :
    let s : Setup := ⟨.radians, false, 64⟩
    ∃ e v e', s.treeOf (substituteAnswer (Display.text (-1e-10)) "2(ans)+sin(ans)".toList) = .ok e ∧ e.intact ∧
      readFloat? (Display.text (-1e-10)) = some v ∧ s.treeOf "2(x)+sin(x)".toList = .ok e' ∧
      ∀ x, e.evaluate x .radians = e'.evaluate v .radians := by
  intro s
  have hany : (s.treeOf (substituteAnswer (Display.text (-1e-10)) "2(ans)+sin(ans)".toList)).toOption.any
      Expr.intact := by decide +kernel
  obtain ⟨e, he, hintact⟩ := exists_ok_of_any hany
  obtain ⟨v, e', hv, he', hvalue⟩ := evaluate_answer (by decide) (by decide) (by decide +kernel) he hintact
  exact ⟨e, v, e', he, hintact, hv, he', hvalue⟩

end Texts

end Calculator
