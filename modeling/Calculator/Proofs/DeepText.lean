import Calculator.Proofs.AnswerPieces
import Calculator.Proofs.Concatenation
import Calculator.Proofs.Paths
import Calculator.Proofs.Strictness

/-!
# A text as deep as the limit allows

Minus signs in front of a call, again in front of a call in its argument, and so on: the paths of the tree are as long as
the limit allows, and so the square of the limit is the least bound.

* `deepText`, `deepTree` : the text and its tree.
* `treeWithin_deepText` : the tree of the text.
* `edges_attained` : the bounds of `edges_le_of_limit` are attained at every limit.
-/

namespace Calculator

set_option autoImplicit false

/-- Minus signs in front of the free variable, which stands in calls with as many minus signs in front of each. -/
def deepText (signs : ℕ) : (calls : ℕ) → Text
  | 0 => List.replicate signs '-' ++ ['x']
  | calls + 1 => List.replicate signs '-' ++ (['a', 'b', 's', '('] ++ (deepText signs calls ++ [')']))

def deepTree (signs : ℕ) : (calls : ℕ) → Expr
  | 0 => (Expr.unary .negate)^[signs] (.name ['x'])
  | calls + 1 => (Expr.unary .negate)^[signs] (.call .abs (deepTree signs calls))

/-- The edges to the variable. -/
def deepPath (signs : ℕ) : (calls : ℕ) → List Edge
  | 0 => List.replicate signs .signed
  | calls + 1 => List.replicate signs .signed ++ .argument :: deepPath signs calls

/-! ## Signs -/

section Signs

variable {text : Text} {argument : Text → Except TokenError Expr} {previous : Option Expr} {ls : List Lexeme}
  {ts : List Expr} {n : ℕ}

theorem lexemes_signs (n : ℕ) (t : Text) :
    lexemes (List.replicate n '-' ++ t) = List.replicate n (.sign .subtract) ++ lexemes t := by
  induction n with
  | zero => rfl
  | succ n ih =>
    rw [List.replicate_succ, List.cons_append, lexemes_sign (by decide) (by decide) (by decide) rfl, ih]
    rfl

theorem tokensFrom_signs (h : context previous = (false, true)) (hls : tokensFrom text argument none ls = .ok ts) :
    tokensFrom text argument previous (List.replicate n (.sign .subtract) ++ ls) =
      .ok (List.replicate n (.bare .negate) ++ ts) := by
  induction n generalizing previous with
  | zero => exact (tokensFrom_congr_context (h.trans (rfl : _ = context none))).trans hls
  | succ n ih =>
    refine tokensFrom_cons_eq_ok.2 ⟨[.bare .negate], _, ?_, ih rfl, rfl⟩
    rw [Lexeme.tokens, signTokens_subtract, (Prod.mk.inj h).2, if_pos rfl]

theorem exists_signed (n : ℕ) (B : Derivation .base) : ∃ D : Derivation .base,
    D.tokens = List.replicate n (.bare .negate) ++ B.tokens ∧ D.tree = (Expr.unary .negate)^[n] B.tree ∧
      D.nesting = B.nesting + n := by
  induction n with
  | zero => exact ⟨B, rfl, rfl, rfl⟩
  | succ n ih =>
    obtain ⟨D, htokens, htree, hn⟩ := ih
    refine ⟨.signed .negate (.inl rfl) D, congrArg _ htokens, ?_, congrArg Nat.succ hn⟩
    rw [Derivation.tree, htree, Function.iterate_succ_apply']

theorem intact_signed (n : ℕ) {e : Expr} (h : e.intact) : ((Expr.unary .negate)^[n] e).intact := by
  induction n with
  | zero => exact h
  | succ n ih => rwa [Function.iterate_succ_apply']

theorem path_signed (n : ℕ) {e e' : Expr} {edges : List Edge} (h : e.Path edges e') :
    ((Expr.unary .negate)^[n] e).Path (List.replicate n .signed ++ edges) e' := by
  induction n with
  | zero => exact h
  | succ n ih =>
    rw [Function.iterate_succ_apply']
    exact .operand ih

end Signs

/-! ## Calls -/

section Calls

variable {strict : Bool} {limit : Int} {signs calls levels : ℕ}

theorem splitArguments_deepText (inner : ℕ) (t : Text) : splitArguments inner (deepText signs calls ++ t) =
    (splitArguments inner t).map fun r => (deepText signs calls).foldr ontoFirst r := by
  have hsigns : ∀ c ∈ List.replicate signs '-', c ∉ listSigns := by
    intro c hc
    rw [List.eq_of_mem_replicate hc]
    decide
  induction calls generalizing inner t with
  | zero => exact splitArguments_plain (List.forall_mem_append.2 ⟨hsigns, by simp [listSigns]⟩)
  | succ calls ih =>
    have hname : ∀ c ∈ ['a', 'b', 's'], c ∉ listSigns := by simp [listSigns]
    have htext : deepText signs (calls + 1) ++ t =
        List.replicate signs '-' ++ (['a', 'b', 's'] ++ '(' :: (deepText signs calls ++ ')' :: t)) := by
      simp [deepText]
    rw [htext, splitArguments_plain hsigns, splitArguments_plain hname, splitArguments, ih, splitArguments]
    simp only [deepText, Option.map_map, List.foldr_append, List.foldr_cons]
    rfl

theorem deepText_ne_nil : deepText signs calls ≠ [] := by
  cases calls <;> exact List.append_ne_nil_of_right_ne_nil _ (List.cons_ne_nil _ _)

theorem lexemes_deepText_zero :
    lexemes (deepText signs 0) = List.replicate signs (.sign .subtract) ++ [.sign .freeVariable] := by
  rw [deepText, lexemes_signs, lexemes_sign (by decide) (by decide) (by decide) rfl, lexemes]

theorem lexemes_deepText_succ : lexemes (deepText signs (calls + 1)) =
    List.replicate signs (.sign .subtract) ++ [.call .abs [deepText signs calls]] := by
  have harguments : splitArguments 0 (deepText signs calls ++ [')']) = some ([deepText signs calls], []) := by
    rw [splitArguments_deepText, splitArguments, Option.map_some, foldr_ontoFirst deepText_ne_nil]
    simp
  have hcall : lexemes (['a', 'b', 's', '('] ++ (deepText signs calls ++ [')'])) =
      .call .abs [deepText signs calls] :: lexemes [] :=
    lexemes_call (by decide) (by decide) rfl rfl harguments rfl
  rw [deepText, lexemes_signs, hcall, lexemes]

theorem treeWithin_signed {t : Text} {l : Lexeme} (B : Derivation .base) (hn : B.nesting + signs ≤ limit.toNat)
    (hlexemes : lexemes t = List.replicate signs (.sign .subtract) ++ [l])
    (htokens : l.tokens t (treeWithin strict limit levels) none = .ok B.tokens) :
    treeWithin strict limit (levels + 1) t = .ok ((Expr.unary .negate)^[signs] B.tree) := by
  obtain ⟨D, hDtokens, hDtree, hDn⟩ := exists_signed signs B
  let E : Derivation .expression := .ofTerm (.ofFactor (.ofBase D))
  have hE : E.nesting ≤ limit.toNat := hDn.trans_le hn
  refine treeWithin_eq_ok.2 ⟨E.tokens, tokensWithin_succ_eq_ok.2 ⟨?_, fun _ => findFault_tokens E⟩, ?_⟩
  · rw [hlexemes]
    exact (tokensFrom_signs rfl (tokensFrom_singleton_eq_ok.2 htokens)).trans (congrArg _ hDtokens.symm)
  · rw [treeOfTokens_tokens E hE]
    exact hDtree

/-- Within as many levels as there are calls around the variable, the text has its tree. -/
theorem treeWithin_deepText (hsigns : signs ≤ limit.toNat) :
    treeWithin strict limit (calls + 1) (deepText signs calls) = .ok (deepTree signs calls) := by
  have hn : 0 + signs ≤ limit.toNat := by omega
  induction calls with
  | zero => exact treeWithin_signed .freeVariable hn lexemes_deepText_zero rfl
  | succ calls ih =>
    refine treeWithin_signed (.call .abs (deepTree signs calls)) hn lexemes_deepText_succ ?_
    exact tokens_call_eq_ok.2 ⟨[deepTree signs calls], mapM_eq_ok.2 (.cons ih .nil), rfl⟩

theorem intact_deepTree : (deepTree signs calls).intact := by
  induction calls with
  | zero => exact intact_signed signs rfl
  | succ calls ih => exact intact_signed signs ih

theorem path_deepTree : (deepTree signs calls).Path (deepPath signs calls) (.name ['x']) := by
  induction calls with
  | zero =>
    have hpath := path_signed signs (Expr.Path.here (.name ['x']))
    rwa [List.append_nil] at hpath
  | succ calls ih => exact path_signed signs (.argument ih)

theorem countP_deepPath (p : Edge → Bool) : (deepPath signs calls).countP p =
    (calls + 1) * (signs * (p .signed).toNat) + calls * (p .argument).toNat := by
  have hsigns : (List.replicate signs Edge.signed).countP p = signs * (p .signed).toNat := by
    rw [List.countP_replicate]
    cases p .signed <;> simp
  induction calls with
  | zero => rw [deepPath, hsigns, Nat.zero_mul, zero_add, one_mul, add_zero]
  | succ calls ih =>
    rw [deepPath, List.countP_append, hsigns, Edge.countP_cons, ih]
    ring

end Calls

/-- **The bounds are attained at every limit**: by as many calls as the limit allows, with as many minus signs around
them and in each of their arguments. -/
theorem edges_attained (strict : Bool) (limit : ℕ) : ∃ text e edges e',
    treeOf strict limit text = .ok e ∧ e.intact ∧ e.Path edges e' ∧
      edges.countP (· == .argument) = limit ∧ edges.countP (· != .plain) = limit * (limit + 2) := by
  have hlevels : ((limit : Int) - 0 + 1).toNat = limit + 1 := by omega
  refine ⟨deepText limit limit, deepTree limit limit, deepPath limit limit, _, ?_, intact_deepTree, path_deepTree, ?_, ?_⟩
  · rw [treeOf_eq_treeWithin, hlevels]
    exact treeWithin_deepText (by omega)
  · have hsigned : (Edge.signed == Edge.argument).toNat = 0 := rfl
    have hargument : (Edge.argument == Edge.argument).toNat = 1 := rfl
    rw [countP_deepPath, hsigned, hargument, mul_zero, mul_zero, zero_add, mul_one]
  · have hsigned : (Edge.signed != Edge.plain).toNat = 1 := rfl
    have hargument : (Edge.argument != Edge.plain).toNat = 1 := rfl
    rw [countP_deepPath, hsigned, hargument]
    ring

end Calculator
