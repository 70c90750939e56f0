import Calculator.Token.Sequence
import Calculator.Proofs.Except
import Calculator.Proofs.Grammar

/-!
# The tokens of a text

* `treeWithin` : the tree of an argument, from which `tokensWithin` makes the token of a call.
* `literalTokens_cases` : what a literal can be.
* `tokensFrom_cons_eq_ok`, `tokensFrom_append_eq_ok`, `tokensWithin_succ_eq_ok` : when a text has tokens.
* `exists_callToken` : every call of a text is one of its tokens; `exists_tokens_of_argument` : so its arguments have
  tokens, one level deeper.
* `tokensFrom_congr` : a text keeps its tokens if the arguments of its calls keep their trees.
-/

namespace Calculator

set_option autoImplicit false

open Calculator.Number (readFloat?)

/-! ## Pieces -/

section Pieces

variable {text : Text} {argument argument' : Text → Except TokenError Expr} {previous : Option Expr}
  {f : NamedFunction} {arguments : List Text} {l : Lexeme} {ls : List Lexeme} {ts : List Expr}

theorem tokens_call_eq_ok : (Lexeme.call f arguments).tokens text argument previous = .ok ts ↔
    ∃ trees, arguments.mapM argument = .ok trees ∧ glue previous ++ [callToken f trees] = ts :=
  bind_eq_ok.trans (exists_congr fun _ => and_congr_right fun _ => ⟨Except.ok.inj, congrArg _⟩)

/-- A literal is a number, the mark of a power of ten, or the mark with its exponent. -/
theorem literalTokens_cases {literal : Text} (h : literalTokens previous literal = .ok ts) :
    (∃ v, readFloat? literal = some v ∧ ts = glue previous ++ [.number v]) ∨ ts = [.bare .scientific] ∨
      ∃ exponent v, literal = 'E' :: exponent ∧ readFloat? exponent = some v ∧ ts = [.bare .scientific, .number v] := by
  unfold literalTokens at h
  split at h
  · rename_i v hv
    exact .inl ⟨v, hv, (Except.ok.inj h).symm⟩
  · split at h
    · exact .inr (.inl (Except.ok.inj h).symm)
    · rename_i exponent _ _
      split at h
      · rename_i v hv
        exact .inr (.inr ⟨exponent, v, rfl, hv, (Except.ok.inj h).symm⟩)
      · exact nomatch h
    · exact nomatch h

theorem tokensFrom_cons_eq_ok : tokensFrom text argument previous (l :: ls) = .ok ts ↔
    ∃ us vs, l.tokens text argument previous = .ok us ∧
      tokensFrom text argument (us.getLast?.or previous) ls = .ok vs ∧ us ++ vs = ts := by
  rw [tokensFrom, bind_eq_ok]
  constructor
  · rintro ⟨us, hus, h⟩
    obtain ⟨vs, hvs, h⟩ := bind_eq_ok.1 h
    exact ⟨us, vs, hus, hvs, Except.ok.inj h⟩
  · rintro ⟨us, vs, hus, hvs, rfl⟩
    exact ⟨us, hus, bind_eq_ok.2 ⟨vs, hvs, rfl⟩⟩

theorem tokensFrom_singleton_eq_ok :
    tokensFrom text argument previous [l] = .ok ts ↔ l.tokens text argument previous = .ok ts := by
  rw [tokensFrom_cons_eq_ok]
  constructor
  · rintro ⟨us, vs, hus, ⟨⟩, rfl⟩
    rwa [List.append_nil]
  · exact fun hts => ⟨ts, [], hts, rfl, List.append_nil ts⟩

theorem tokensFrom_append_eq_ok {ms : List Lexeme} : tokensFrom text argument previous (ls ++ ms) = .ok ts ↔
    ∃ us vs, tokensFrom text argument previous ls = .ok us ∧
      tokensFrom text argument (us.getLast?.or previous) ms = .ok vs ∧ us ++ vs = ts := by
  induction ls generalizing previous ts with
  | nil =>
    constructor
    · exact fun h => ⟨[], ts, rfl, h, rfl⟩
    · rintro ⟨us, vs, ⟨⟩, hvs, rfl⟩
      exact hvs
  | cons l ls ih =>
    rw [List.cons_append, tokensFrom_cons_eq_ok]
    constructor
    · rintro ⟨us, rest, hus, hrest, rfl⟩
      obtain ⟨vs, ws, hvs, hws, rfl⟩ := ih.1 hrest
      rw [← Option.or_assoc, ← List.getLast?_append] at hws
      exact ⟨us ++ vs, ws, tokensFrom_cons_eq_ok.2 ⟨us, vs, hus, hvs, rfl⟩, hws, List.append_assoc ..⟩
    · rintro ⟨us', ws, hus', hws, rfl⟩
      obtain ⟨us, vs, hus, hvs, rfl⟩ := tokensFrom_cons_eq_ok.1 hus'
      rw [List.getLast?_append, Option.or_assoc] at hws
      exact ⟨us, vs ++ ws, hus, ih.2 ⟨vs, ws, hvs, hws, rfl⟩, (List.append_assoc ..).symm⟩

theorem callToken_ne_bare (f : NamedFunction) (trees : List Expr) (op : Operator) : callToken f trees ≠ .bare op := by
  unfold callToken
  split <;> exact nofun

theorem exists_callToken (h : tokensFrom text argument previous ls = .ok ts) (hc : .call f arguments ∈ ls) :
    ∃ trees, arguments.mapM argument = .ok trees ∧ callToken f trees ∈ ts := by
  induction ls generalizing previous ts with
  | nil => exact nomatch hc
  | cons l ls ih =>
    obtain ⟨us, vs, hus, hvs, rfl⟩ := tokensFrom_cons_eq_ok.1 h
    rcases List.mem_cons.1 hc with rfl | hc
    · obtain ⟨trees, htrees, rfl⟩ := tokens_call_eq_ok.1 hus
      exact ⟨trees, htrees, by simp⟩
    · obtain ⟨trees, htrees, hmem⟩ := ih hvs hc
      exact ⟨trees, htrees, List.mem_append_right _ hmem⟩

theorem tokensFrom_congr (h : tokensFrom text argument previous ls = .ok ts)
    (ha : ∀ f (arguments : List Text) trees, arguments.mapM argument = .ok trees → callToken f trees ∈ ts →
      arguments.mapM argument' = .ok trees) : tokensFrom text argument' previous ls = .ok ts := by
  induction ls generalizing previous ts with
  | nil => exact h
  | cons l ls ih =>
    obtain ⟨us, vs, hus, hvs, rfl⟩ := tokensFrom_cons_eq_ok.1 h
    have hls := ih hvs fun f arguments trees htrees hmem => ha f arguments trees htrees (List.mem_append_right _ hmem)
    refine tokensFrom_cons_eq_ok.2 ⟨us, vs, ?_, hls, rfl⟩
    cases l with
    | call f arguments =>
      obtain ⟨trees, htrees, rfl⟩ := tokens_call_eq_ok.1 hus
      exact tokens_call_eq_ok.2 ⟨trees, ha f arguments trees htrees (by simp), rfl⟩
    | _ => exact hus

theorem intact_of_callToken {trees : List Expr} (h : (callToken f trees).intact) : ∀ e ∈ trees, e.intact := by
  unfold callToken at h
  split at h
  · simpa using h
  · simpa using h
  · exact nomatch h

end Pieces

/-! ## Texts -/

/-- The tree of a text whose calls nest less than `levels` deep. -/
def treeWithin (strict : Bool) (limit : Int) (levels : Nat) (text : Text) : Except TokenError Expr :=
  return treeOfTokens limit (← tokensWithin strict limit levels text)

section Texts

variable {strict : Bool} {limit depth : Int} {levels : Nat} {text : Text} {ts : List Expr} {e : Expr}

theorem treeWithin_eq_ok : treeWithin strict limit levels text = .ok e ↔
    ∃ ts, tokensWithin strict limit levels text = .ok ts ∧ treeOfTokens limit ts = e :=
  bind_eq_ok.trans (exists_congr fun _ => and_congr_right fun _ => ⟨Except.ok.inj, congrArg _⟩)

theorem treeOf_eq_treeWithin : treeOf strict limit text = treeWithin strict limit (limit - 0 + 1).toNat text := rfl

theorem inOrder_eq_ok {us : List Expr} :
    inOrder strict text us = .ok ts ↔ us = ts ∧ (strict = true → findFault us = none) := by
  cases strict with
  | false => simp [inOrder]
  | true => cases h : findFault us <;> simp [inOrder, h]

theorem tokensWithin_succ (strict : Bool) (limit : Int) (levels : Nat) (text : Text) :
    tokensWithin strict limit (levels + 1) text =
      tokensFrom text (treeWithin strict limit levels) none (lexemes text) >>= inOrder strict text := rfl

theorem tokensWithin_succ_eq_ok : tokensWithin strict limit (levels + 1) text = .ok ts ↔
    tokensFrom text (treeWithin strict limit levels) none (lexemes text) = .ok ts ∧
      (strict = true → findFault ts = none) := by
  refine bind_eq_ok.trans ⟨?_, ?_⟩
  · rintro ⟨us, hus, h⟩
    obtain ⟨rfl, hfault⟩ := inOrder_eq_ok.1 h
    exact ⟨hus, hfault⟩
  · rintro ⟨hts, h⟩
    exact ⟨ts, hts, inOrder_eq_ok.2 ⟨rfl, h⟩⟩

theorem exists_level (h : tokenize strict limit depth text = .ok ts) : ∃ levels : Nat,
    (limit - depth + 1).toNat = levels + 1 ∧ tokensWithin strict limit (levels + 1) text = .ok ts := by
  unfold tokenize at h
  cases hlevels : (limit - depth + 1).toNat with
  | zero =>
    rw [hlevels] at h
    cases h
  | succ levels =>
    rw [hlevels] at h
    exact ⟨levels, rfl, h⟩

/-- The tokens of an argument, whose tree is in the token of the call. -/
theorem exists_tokens_of_argument {a : Text} {f : NamedFunction} {arguments : List Text}
    (h : tokenize strict limit depth text = .ok ts) (hc : .call f arguments ∈ lexemes text) (ha : a ∈ arguments) :
    ∃ us trees, tokenize strict limit (depth + 1) a = .ok us ∧ treeOfTokens limit us ∈ trees ∧
      callToken f trees ∈ ts := by
  obtain ⟨levels, hlevels, hts⟩ := exists_level h
  obtain ⟨trees, htrees, hmem⟩ := exists_callToken (tokensWithin_succ_eq_ok.1 hts).1 hc
  obtain ⟨e, he, hae⟩ := exists_of_forall₂ (mapM_eq_ok.1 htrees) ha
  obtain ⟨us, hus, rfl⟩ := treeWithin_eq_ok.1 hae
  have hnext : (limit - (depth + 1) + 1).toNat = levels := by omega
  refine ⟨us, trees, ?_, he, hmem⟩
  rw [tokenize, hnext]
  exact hus

end Texts

end Calculator
