import Calculator.Proofs.Calls
import Calculator.Proofs.Concatenation

/-!
# The nesting limit is exact

A text that has tokens under some limit has them under another one, unless its calls are nested deeper than that: the
limit is part of no token that the pieces around it see, and so a changed limit makes nothing else fail.

* `Expr.shape` : what the pieces behind a token, and the check of the order, see of it.
* `tokensFrom_shapes` : the tokens keep their shapes when the arguments of the calls get other trees.
* `argument_of_tokensFrom_error` : what fails then is an argument.
* `callDepth_lt_of_tokens` : a text that has tokens nests less deep than its levels.
* `tooDeep_of_tokens`, `exists_tokens_of_callDepth` : within other levels it is too deep, or has tokens.
* `tokenize_tooDeep_iff` : the limit is exact.
-/

namespace Calculator

set_option autoImplicit false

/-- What is seen of a token: the operator that it is, and whether a value ends there. -/
def Expr.shape (t : Expr) : Option Operator × Bool := (t.operator?, t.isValue)

/-! ## Shapes -/

section Shapes

variable {previous previous' : Option Expr} {ts ts' : List Expr}

theorem context_congr_shape (h : previous.map Expr.shape = previous'.map Expr.shape) :
    context previous = context previous' := by
  have hcontext (p : Option Expr) : context p = ((p.map Expr.shape).any Prod.snd,
      (p.map Expr.shape).all fun s => s.1.any Operator.precedesSign) := by
    cases p <;> rfl
  rw [hcontext, hcontext, h]

theorem findFaultFrom_congr_shape (h : ts.map Expr.shape = ts'.map Expr.shape) (pending : ℕ)
    (previous : Option Operator) : findFaultFrom pending previous ts = findFaultFrom pending previous ts' := by
  induction ts generalizing ts' pending previous with
  | nil =>
    obtain rfl := List.map_eq_nil_iff.1 h.symm
    rfl
  | cons t ts ih =>
    obtain ⟨t', ts', rfl, ht, hts⟩ := List.map_eq_cons_iff.1 h.symm
    rw [findFaultFrom, findFaultFrom, (Prod.mk.inj ht).1]
    simp only [ih hts.symm]

theorem shape_callToken (f : NamedFunction) (h : ts.length = ts'.length) :
    (callToken f ts).shape = (callToken f ts').shape := by
  match ts, ts', h with
  | [], [], _ | [_], [_], _ | [_, _], [_, _], _ | _ :: _ :: _ :: _, _ :: _ :: _ :: _, _ => rfl

end Shapes

/-! ## Other trees of the arguments -/

section Pieces

variable {text : Text} {argument argument' : Text → Except TokenError Expr} {previous previous' : Option Expr}
  {l : Lexeme} {ls : List Lexeme} {ts ts' : List Expr} {e : TokenError}

theorem tokens_shapes (hprevious : previous.map Expr.shape = previous'.map Expr.shape)
    (h : l.tokens text argument previous = .ok ts) (h' : l.tokens text argument' previous' = .ok ts') :
    ts.map Expr.shape = ts'.map Expr.shape := by
  rw [tokens_congr_context (context_congr_shape hprevious)] at h
  cases l with
  | call f arguments =>
    obtain ⟨trees, htrees, rfl⟩ := tokens_call_eq_ok.1 h
    obtain ⟨trees', htrees', rfl⟩ := tokens_call_eq_ok.1 h'
    have hlength : trees.length = trees'.length :=
      (mapM_eq_ok.1 htrees).length_eq.symm.trans (mapM_eq_ok.1 htrees').length_eq
    rw [List.map_append, List.map_append, List.map_singleton, List.map_singleton, shape_callToken f hlength]
  | _ => rw [Except.ok.inj (h.symm.trans h')]

theorem tokensFrom_shapes (hprevious : previous.map Expr.shape = previous'.map Expr.shape)
    (h : tokensFrom text argument previous ls = .ok ts) (h' : tokensFrom text argument' previous' ls = .ok ts') :
    ts.map Expr.shape = ts'.map Expr.shape := by
  induction ls generalizing previous previous' ts ts' with
  | nil => rw [← Except.ok.inj h, ← Except.ok.inj h']
  | cons l ls ih =>
    obtain ⟨us, vs, hus, hvs, rfl⟩ := tokensFrom_cons_eq_ok.1 h
    obtain ⟨us', vs', hus', hvs', rfl⟩ := tokensFrom_cons_eq_ok.1 h'
    have hshapes := tokens_shapes hprevious hus hus'
    have hlast : (us.getLast?.or previous).map Expr.shape = (us'.getLast?.or previous').map Expr.shape := by
      rw [Option.map_or, Option.map_or, ← List.getLast?_map, ← List.getLast?_map, hshapes, hprevious]
    rw [List.map_append, List.map_append, hshapes, ih hlast hvs hvs']

theorem argument_of_tokens_error (h : l.tokens text argument previous = .ok ts)
    (h' : l.tokens text argument' previous' = .error e) :
    ∃ f arguments, l = .call f arguments ∧ ∃ a ∈ arguments, argument' a = .error e := by
  cases l with
  | literal t =>
    -- whether a literal can be read does not depend on what stands in front of it
    have hts := mapError_eq_ok.1 h
    obtain ⟨k, hk, -⟩ := mapError_eq_error.1 h'
    rw [literalTokens_behind] at hts hk
    cases hnone : literalTokens none t with
    | error _ => rw [hnone] at hts; exact nomatch hts
    | ok _ => rw [hnone] at hk; exact nomatch hk
  | call f arguments =>
    rcases bind_eq_error.1 h' with hargs | ⟨trees, -, hfail⟩
    · exact ⟨f, arguments, rfl, mapM_eq_error hargs⟩
    · exact nomatch hfail
  | sign op => exact nomatch h'
  | fault k => exact nomatch h

theorem argument_of_tokensFrom_error (h : tokensFrom text argument previous ls = .ok ts)
    (h' : tokensFrom text argument' previous' ls = .error e) :
    ∃ f arguments, .call f arguments ∈ ls ∧ ∃ a ∈ arguments, argument' a = .error e := by
  induction ls generalizing previous previous' ts with
  | nil => exact nomatch h'
  | cons l ls ih =>
    obtain ⟨us, vs, hus, hvs, -⟩ := tokensFrom_cons_eq_ok.1 h
    rcases bind_eq_error.1 h' with hl | ⟨us', -, hls⟩
    · obtain ⟨f, arguments, rfl, hargument⟩ := argument_of_tokens_error hus hl
      exact ⟨f, arguments, List.mem_cons_self .., hargument⟩
    · rcases bind_eq_error.1 hls with hls | ⟨vs', -, hfail⟩
      · obtain ⟨f, arguments, hcall, hargument⟩ := ih hvs hls
        exact ⟨f, arguments, List.mem_cons_of_mem _ hcall, hargument⟩
      · exact nomatch hfail

end Pieces

/-! ## Levels -/

section Levels

variable {strict : Bool} {limit limit' : Int} {levels levels' : ℕ} {text : Text} {ts : List Expr} {e : TokenError}

/-- The arguments of a text with tokens have tokens of their own. -/
theorem tokensWithin_argument {f : NamedFunction} {arguments : List Text} {a : Text}
    (h : tokensWithin strict limit (levels + 1) text = .ok ts) (hcall : .call f arguments ∈ lexemes text)
    (ha : a ∈ arguments) : ∃ us, tokensWithin strict limit levels a = .ok us := by
  obtain ⟨trees, htrees, -⟩ := exists_callToken (tokensWithin_succ_eq_ok.1 h).1 hcall
  obtain ⟨e, -, he⟩ := exists_of_forall₂ (mapM_eq_ok.1 htrees) ha
  obtain ⟨us, hus, -⟩ := treeWithin_eq_ok.1 he
  exact ⟨us, hus⟩

theorem callDepth_lt_of_tokens (h : tokensWithin strict limit levels text = .ok ts) : callDepth text < levels := by
  induction levels generalizing text ts with
  | zero => exact nomatch h
  | succ levels ih =>
    refine (callDepth_lt_iff (not_fault_of_tokensFrom (tokensWithin_succ_eq_ok.1 h).1)).2 fun f arguments hcall => ?_
    have harguments : ∀ a ∈ arguments, callDepth a < levels := fun a ha =>
      have ⟨us, hus⟩ := tokensWithin_argument h hcall ha
      ih hus
    -- every function has an argument
    obtain ⟨a, ha⟩ : ∃ a, a ∈ arguments := by
      refine List.exists_mem_of_length_pos ?_
      rw [length_arguments hcall]
      cases f <;> decide
    exact ⟨Nat.zero_lt_of_lt (harguments a ha), harguments⟩

/-- A text that has tokens, and fails within other levels, fails at an argument. -/
theorem argument_of_tokensWithin_error (h : tokensWithin strict limit (levels + 1) text = .ok ts)
    (h' : tokensWithin strict limit' (levels' + 1) text = .error e) : ∃ f arguments, .call f arguments ∈ lexemes text ∧
      ∃ a ∈ arguments, tokensWithin strict limit' levels' a = .error e := by
  obtain ⟨hts, horder⟩ := tokensWithin_succ_eq_ok.1 h
  rcases bind_eq_error.1 h' with hfail | ⟨us, hus, hfail⟩
  · obtain ⟨f, arguments, hcall, a, ha, hargument⟩ := argument_of_tokensFrom_error hts hfail
    refine ⟨f, arguments, hcall, a, ha, ?_⟩
    rcases bind_eq_error.1 hargument with hargument | ⟨_, -, hnone⟩
    · exact hargument
    · exact nomatch hnone
  · have hfault : findFault us = findFault ts := findFaultFrom_congr_shape (tokensFrom_shapes rfl hus hts) 0 none
    have hok : inOrder strict text us = .ok us := inOrder_eq_ok.2 ⟨rfl, fun hstrict => hfault.trans (horder hstrict)⟩
    exact nomatch hok.symm.trans hfail

/-- Nothing else fails under another limit. -/
theorem tooDeep_of_tokens (h : tokensWithin strict limit levels text = .ok ts)
    (h' : tokensWithin strict limit' levels' text = .error e) : e.fault = .tooDeep limit' := by
  induction levels generalizing levels' text ts with
  | zero => exact nomatch h
  | succ levels ih =>
    cases levels' with
    | zero => rw [← Except.error.inj h']
    | succ levels' =>
      obtain ⟨f, arguments, hcall, a, ha, hargument⟩ := argument_of_tokensWithin_error h h'
      obtain ⟨us, hus⟩ := tokensWithin_argument h hcall ha
      exact ih hus hargument

theorem exists_tokens_of_callDepth (h : tokensWithin strict limit levels text = .ok ts)
    (hdepth : callDepth text < levels') : ∃ us, tokensWithin strict limit' levels' text = .ok us := by
  induction levels generalizing levels' text ts with
  | zero => exact nomatch h
  | succ levels ih =>
    obtain ⟨levels', rfl⟩ := Nat.exists_eq_add_one_of_ne_zero (Nat.ne_zero_of_lt hdepth)
    cases h' : tokensWithin strict limit' (levels' + 1) text with
    | ok us => exact ⟨us, rfl⟩
    | error e =>
      obtain ⟨f, arguments, hcall, a, ha, hargument⟩ := argument_of_tokensWithin_error h h'
      have hnone := not_fault_of_tokensFrom (tokensWithin_succ_eq_ok.1 h).1
      obtain ⟨us, hus⟩ := tokensWithin_argument h hcall ha
      obtain ⟨vs, hvs⟩ := ih hus (((callDepth_lt_iff hnone).1 hdepth f arguments hcall).2 a ha)
      exact nomatch hvs.symm.trans hargument

end Levels

/-- **The nesting limit is exact.** A text that has tokens under some limit is too deep for the limit `d` if more than `d`
of its calls are nested in one another, and else has tokens under it. -/
theorem tokenize_tooDeep_iff {strict : Bool} {limit : Int} {text : Text} {ts : List Expr}
    (h : tokenize strict limit 0 text = .ok ts) (d : ℕ) :
    ((∃ e, tokenize strict d 0 text = .error e ∧ e.code = "3031".toList) ↔ d < callDepth text) ∧
      (callDepth text ≤ d → ∃ us, tokenize strict d 0 text = .ok us) := by
  have hlevels : ((d : Int) - 0 + 1).toNat = d + 1 := by omega
  unfold tokenize
  rw [hlevels]
  constructor
  · constructor
    · rintro ⟨e, he, -⟩
      by_contra hdepth
      have hlt : callDepth text < d + 1 := Nat.lt_succ_of_le (Nat.le_of_not_lt hdepth)
      obtain ⟨us, hus⟩ : ∃ us, tokensWithin strict d (d + 1) text = .ok us := exists_tokens_of_callDepth h hlt
      exact nomatch hus.symm.trans he
    · intro hdepth
      cases htokens : tokensWithin strict d (d + 1) text with
      | ok us => exact absurd (callDepth_lt_of_tokens htokens) (Nat.not_lt.2 hdepth)
      | error e => exact ⟨e, rfl, congrArg LexicalFault.code (tooDeep_of_tokens h htokens)⟩
  · exact fun hdepth => exists_tokens_of_callDepth h (Nat.lt_succ_of_le hdepth)

/-- Calls side by side are not nested: of the five calls at most three are open at once. -/
theorem tokenize_tooDeep_hypot :
    callDepth "hypot(abs(2)+1,hypot(sin(x),3))-abs(4)".toList = 3 ∧
      (∃ e, tokenize true 2 0 "hypot(abs(2)+1,hypot(sin(x),3))-abs(4)".toList = .error e ∧ e.code = "3031".toList) ∧
      ∃ us, tokenize true 3 0 "hypot(abs(2)+1,hypot(sin(x),3))-abs(4)".toList = .ok us := by
  have hdepth : callDepth "hypot(abs(2)+1,hypot(sin(x),3))-abs(4)".toList = 3 := by decide +kernel
  have hok : (tokenize true 64 0 "hypot(abs(2)+1,hypot(sin(x),3))-abs(4)".toList).toOption.any fun _ => true := by
    decide +kernel
  obtain ⟨ts, h, -⟩ := exists_ok_of_any hok
  exact ⟨hdepth, (tokenize_tooDeep_iff h 2).1.2 (by omega), (tokenize_tooDeep_iff h 3).2 (by omega)⟩

end Calculator
