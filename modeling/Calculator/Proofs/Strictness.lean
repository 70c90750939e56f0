import Calculator.Proofs.Understanding

/-!
# Strict and tolerant reading

Strict reading checks the order of the tokens, of a text and of each argument by itself. The check refuses nothing that
derives from the grammar, so that both readings understand the same texts.

* `findFault_tokens` : what derives from the grammar is in order.
* `tolerant_of_strict` : a text with tokens in strict mode has the same ones without the check.
* `strict_of_tolerant` : so it is the other way round, if the tree of the tokens has no failure.
* `value_strict_iff` : the values are the same in both modes.
-/

namespace Calculator

set_option autoImplicit false

/-! ## The order of derived tokens -/

theorem findFaultFrom_arithmetic {op : Operator} (hop : op.isArithmetic) (pending : Nat) {previous : Option Operator}
    (h : lacksOperand previous = false) (ts : List Expr) :
    findFaultFrom pending previous (.bare op :: ts) = findFaultFrom pending (some op) ts := by
  rw [findFaultFrom]
  cases op with
  | add | subtract | multiply | divide => simp [Expr.operator?, h]
  | _ => exact nomatch hop

theorem findFaultFrom_closing (pending : Nat) {previous : Option Operator} (h : lacksOperand previous = false)
    (ts : List Expr) :
    findFaultFrom (pending + 1) previous (.bare .closing :: ts) = findFaultFrom pending (some .closing) ts := by
  have hne : previous ≠ some .opening := by rintro rfl; exact nomatch h
  rw [findFaultFrom]
  simp [Expr.operator?, hne]

/-- What derives from a level begins with no operator of a sum or a product and with no closing parenthesis, ends with
an operand, and closes the parentheses it opens. -/
theorem findFaultFrom_tokens {level : Level} (D : Derivation level) (pending : Nat) (previous : Option Operator)
    (ts : List Expr) : ∃ last, lacksOperand last = false ∧
      findFaultFrom pending previous (D.tokens ++ ts) = findFaultFrom pending last ts := by
  induction D generalizing pending previous ts with
  | ofTerm _ ih | ofFactor _ ih | ofBase _ ih => exact ih pending previous ts
  | sum l op hop r ihl ihr | product l op hop r ihl ihr =>
    obtain ⟨last, hlast, hl⟩ := ihl pending previous (.bare op :: (r.tokens ++ ts))
    obtain ⟨last', hlast', hr⟩ := ihr pending (some op) ts
    refine ⟨last', hlast', ?_⟩
    rw [Derivation.tokens, List.append_assoc, List.cons_append, hl, ← hr]
    exact findFaultFrom_arithmetic (by rcases hop with rfl | rfl <;> rfl) pending hlast _
  | power b e ihb ihe =>
    obtain ⟨last, hlast, hb⟩ := ihb pending previous (.bare .power :: (e.tokens ++ ts))
    obtain ⟨last', hlast', he⟩ := ihe pending (some .power) ts
    refine ⟨last', hlast', ?_⟩
    rw [Derivation.tokens, List.append_assoc, List.cons_append, hb, ← he]
    rfl
  | parentheses inner ih =>
    obtain ⟨last, hlast, hi⟩ := ih (pending + 1) (some .opening) (.bare .closing :: ts)
    refine ⟨some .closing, rfl, ?_⟩
    rw [Derivation.tokens, List.cons_append, List.append_assoc]
    exact hi.trans (findFaultFrom_closing pending hlast ts)
  | signed op hop operand ih =>
    obtain ⟨last, hlast, ho⟩ := ih pending (some op) ts
    refine ⟨last, hlast, ?_⟩
    rw [← ho]
    rcases hop with rfl | rfl <;> rfl
  | constant op hop => exact ⟨some op, by rcases hop with rfl | rfl <;> rfl, by rcases hop with rfl | rfl <;> rfl⟩
  | freeVariable => exact ⟨some .freeVariable, rfl, rfl⟩
  | _ => exact ⟨none, rfl, rfl⟩

theorem findFault_tokens (D : Derivation .expression) : findFault D.tokens = none := by
  obtain ⟨last, -, h⟩ := findFaultFrom_tokens D 0 none []
  rw [List.append_nil] at h
  exact h

/-! ## The two modes -/

section Modes

variable {limit : Int} {levels : Nat} {text : Text} {ts : List Expr}

theorem tolerant_of_strict (h : tokensWithin true limit levels text = .ok ts) :
    tokensWithin false limit levels text = .ok ts := by
  induction levels generalizing text ts with
  | zero => exact nomatch h
  | succ levels ih =>
    refine tokensWithin_succ_eq_ok.2 ⟨?_, nofun⟩
    refine tokensFrom_congr (tokensWithin_succ_eq_ok.1 h).1 fun f arguments trees htrees _ => ?_
    refine mapM_eq_ok.2 (forall₂_mono (mapM_eq_ok.1 htrees) fun a _ e _ hae => ?_)
    obtain ⟨us, hus, rfl⟩ := treeWithin_eq_ok.1 hae
    exact treeWithin_eq_ok.2 ⟨us, ih hus, rfl⟩

theorem strict_of_tolerant (h : tokensWithin false limit levels text = .ok ts) (hi : (treeOfTokens limit ts).intact) :
    tokensWithin true limit levels text = .ok ts := by
  induction levels generalizing text ts with
  | zero => exact nomatch h
  | succ levels ih =>
    obtain ⟨D, hD, -, -⟩ := exists_derivation (Expr.readable_of_intact hi)
    refine tokensWithin_succ_eq_ok.2 ⟨?_, fun _ => hD ▸ findFault_tokens D⟩
    refine tokensFrom_congr (tokensWithin_succ_eq_ok.1 h).1 fun f arguments trees htrees hmem => ?_
    refine mapM_eq_ok.2 (forall₂_mono (mapM_eq_ok.1 htrees) fun a _ e he hae => ?_)
    -- The tree of an argument is part of a token, and the tokens of an intact tree are intact.
    have hintact := intact_of_callToken ((intact_token_of_tree hi).2 _ hmem) e he
    obtain ⟨us, hus, rfl⟩ := treeWithin_eq_ok.1 hae
    exact treeWithin_eq_ok.2 ⟨us, ih hus hintact, rfl⟩

theorem treeOf_strict_iff {e : Expr} (hi : e.intact) : treeOf true limit text = .ok e ↔ treeOf false limit text = .ok e := by
  rw [treeOf_eq_treeWithin, treeOf_eq_treeWithin, treeWithin_eq_ok, treeWithin_eq_ok]
  constructor
  · rintro ⟨ts, hts, rfl⟩
    exact ⟨ts, tolerant_of_strict hts, rfl⟩
  · rintro ⟨ts, hts, rfl⟩
    exact ⟨ts, strict_of_tolerant hts hi, rfl⟩

end Modes

/-- **The values are the same in both modes.** The check refuses no text whose tree has no failure. -/
theorem value_strict_iff (s : Setup) (x : Float) (text : Text) :
    (∀ v, { s with graphing := true }.evaluate x text = .ok (.ok (some v)) ↔
      { s with graphing := false }.evaluate x text = .ok (.ok (some v))) ∧
    ∀ e, treeOf false s.maxDepth text = .ok e → e.intact → treeOf true s.maxDepth text = .ok e := by
  refine ⟨fun v => ?_, fun e he hi => (treeOf_strict_iff hi).2 he⟩
  rw [Setup.evaluate_eq_ok, Setup.evaluate_eq_ok]
  constructor
  · rintro ⟨e, he, hv⟩
    exact ⟨e, (treeOf_strict_iff (Expr.intact_of_evaluate hv)).2 he, hv⟩
  · rintro ⟨e, he, hv⟩
    exact ⟨e, (treeOf_strict_iff (Expr.intact_of_evaluate hv)).1 he, hv⟩

end Calculator
