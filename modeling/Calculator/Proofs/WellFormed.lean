import Calculator.Proofs.LiteralValue
import Calculator.Proofs.Reading
import Calculator.Proofs.Sequence

/-!
# The trees of texts are well formed

Tokens and trees are of one type, which has room for operators where none belongs. No text leads to such a tree, be it
understood or not: every reader takes care of the operators, and the pieces of a text take care of numbers and calls.

* `Expr.isProper`, `Expr.wellFormed` : a node that a text can have, and a tree of such nodes, in arguments too.
* `Expr.isProperToken` : a bare operator of any kind, or a well-formed tree.
* `KeepsForm` : a reader makes well-formed trees of proper tokens. All readers do (`readAt_keepsForm`).
* `Lexeme.IsSound` : what the pieces of a text are known to be.
* `forall_tokensFrom` : what holds of operators, numbers and calls holds of the tokens of a text.
* `isProperToken_tokensWithin`, `wellFormed_treeOf` : the tokens of a text are proper, and its tree is well formed.
-/

namespace Calculator

set_option autoImplicit false

open Calculator.Number

namespace Expr

/-- A node as texts have it: its operator or function has the number of operands that it is given. -/
def isProper : Expr → Bool
  | number v => !v.isNaN
  | name t => t == Operator.freeVariable.symbol
  | bare op => op == .pi || op == .euler
  | unary .scientific (number _) => true
  | unary op _ => op == .negate || op == .squareRoot
  | binary _ op _ => op.isArithmetic || op == .power
  | call f _ => f.arity == 1
  | call₂ f _ _ => f.arity == 2
  | failure _ => true
  | hole => false

/-- Every node is proper, in arguments of calls too. -/
def wellFormed (e : Expr) : Bool := e.forAll isProper

/-- A token as texts have it. -/
def isProperToken : Expr → Bool
  | bare _ => true
  | e => e.wellFormed

theorem wellFormed_signed {op : Operator} (hop : op = .negate ∨ op = .squareRoot) {e : Expr} (h : e.wellFormed) :
    (unary op e).wellFormed := by
  rw [wellFormed, forAll, Bool.and_eq_true]
  rcases hop with rfl | rfl <;> exact ⟨rfl, h⟩

theorem wellFormed_powerOfTen {v : Float} (h : (number v).wellFormed) :
    (unary .scientific (number v)).wellFormed := h

theorem wellFormed_binary {op : Operator} (hop : op.isArithmetic || op == .power) {l r : Expr} (hl : l.wellFormed)
    (hr : r.wellFormed) : (binary l op r).wellFormed := by
  rw [wellFormed, forAll, Bool.and_eq_true, Bool.and_eq_true]
  exact ⟨⟨hop, hl⟩, hr⟩

end Expr

/-! ## Readers -/

/-- The reader makes well-formed trees of proper tokens. -/
def KeepsForm (read : Reader) : Prop := ∀ ts, (∀ t ∈ ts, t.isProperToken) → (read ts).tree.wellFormed

theorem refuse_keepsForm (fault : ParsingFault) : KeepsForm (refuse fault) := fun _ _ => rfl

section Readers

variable {nested : Level → Reader} {operand : Reader} {continues : Operator → Bool} {ts : List Expr}

theorem wellFormed_closeParenthesis {r : Reading ts} (h : r.tree.wellFormed) : (closeParenthesis r).tree.wellFormed := by
  unfold closeParenthesis
  split
  · exact h
  · rfl

theorem readBase_keepsForm (hn : ∀ level, KeepsForm (nested level)) : KeepsForm (readBase nested) := by
  intro ts h
  cases ts with
  | nil => rfl
  | cons t ts =>
    have hts : ∀ t ∈ ts, t.isProperToken := fun u hu => h u (List.mem_cons_of_mem _ hu)
    have ht := h t (List.mem_cons_self ..)
    cases t with
    | number v => exact ht
    | call f e => exact ht
    | call₂ f a b => exact ht
    | bare op =>
      cases op with
      | opening => exact wellFormed_closeParenthesis (hn .expression ts hts)
      | scientific =>
        cases ts with
        | nil => rfl
        | cons u us =>
          cases u with
          | number v => exact Expr.wellFormed_powerOfTen (hts _ (List.mem_cons_self ..))
          | _ => rfl
      | negate => exact Expr.wellFormed_signed (.inl rfl) (hn .base ts hts)
      | squareRoot => exact Expr.wellFormed_signed (.inr rfl) (hn .base ts hts)
      | _ => rfl
    | _ => rfl

theorem readFactor_keepsForm (hn : ∀ level, KeepsForm (nested level)) : KeepsForm (readFactor nested) := by
  intro ts h
  have hbase := readBase_keepsForm hn ts h
  unfold readFactor
  dsimp only
  split
  · rename_i rest hrest
    refine Expr.wellFormed_binary rfl hbase (hn .factor rest fun t ht => h t ?_)
    exact (readBase nested ts).suffix.subset (hrest ▸ List.mem_cons_of_mem _ ht)
  · exact hbase

theorem chain_keepsForm (hc : ∀ op, continues op → op.isArithmetic) (ho : KeepsForm operand) {left : Expr}
    (hleft : left.wellFormed) (h : ∀ t ∈ ts, t.isProperToken) : (chain operand continues left ts).tree.wellFormed := by
  fun_induction chain operand continues left ts with
  | case1 left op rest hop right all ih =>
    have hrest : ∀ t ∈ rest, t.isProperToken := fun t ht => h t (List.mem_cons_of_mem _ ht)
    refine ih (Expr.wellFormed_binary ?_ hleft (ho rest hrest)) fun t ht => hrest t (right.suffix.subset ht)
    rw [hc op hop, Bool.true_or]
  | case2 left op rest hop => exact hleft
  | case3 left ts hne => exact hleft

theorem readChain_keepsForm (hc : ∀ op, continues op → op.isArithmetic) (ho : KeepsForm operand) :
    KeepsForm (readChain operand continues) := fun ts h =>
  chain_keepsForm hc ho (ho ts h) fun t ht => h t ((operand ts).suffix.subset ht)

theorem read_keepsForm (hn : ∀ level, KeepsForm (nested level)) (level : Level) : KeepsForm (level.read nested) := by
  have hproduct : ∀ op : Operator, op.precedence == Operator.multiply.precedence → op.isArithmetic := by
    intro op hop
    cases op <;> first | rfl | exact nomatch hop
  have hsum : ∀ op : Operator, op.precedence == Operator.add.precedence → op.isArithmetic := by
    intro op hop
    cases op <;> first | rfl | exact nomatch hop
  have hfactor := readFactor_keepsForm hn
  have hterm : KeepsForm (readTerm nested) := readChain_keepsForm hproduct hfactor
  cases level with
  | expression => exact readChain_keepsForm hsum hterm
  | term => exact hterm
  | factor => exact hfactor
  | base => exact readBase_keepsForm hn

end Readers

theorem readAt_keepsForm (depth : Nat) (level : Level) : KeepsForm (readAt depth level) := by
  induction depth generalizing level with
  | zero => exact read_keepsForm (fun _ => refuse_keepsForm _) level
  | succ depth ih => exact read_keepsForm ih level

theorem wellFormed_treeOfTokens {limit : Int} {ts : List Expr} (h : ∀ t ∈ ts, t.isProperToken) :
    (treeOfTokens limit ts).wellFormed := by
  unfold treeOfTokens
  dsimp only
  split
  · exact readAt_keepsForm _ _ ts h
  · rfl

/-! ## Tokens -/

/-- A piece as texts have it: of the characters of literals, with as many arguments as its function expects. -/
def Lexeme.IsSound : Lexeme → Prop
  | literal t => ∀ c ∈ t, c ∈ Spelling.alphabet
  | call f arguments => arguments.length = f.arity
  | _ => True

theorem isSound_of_mem_lexemes {l : Lexeme} {text : Text} (h : l ∈ lexemes text) : l.IsSound := by
  cases l with
  | literal t => exact mem_alphabet_of_literal h
  | call f arguments => exact length_arguments h
  | _ => exact trivial

section Tokens

variable {text : Text} {argument : Text → Except TokenError Expr} {previous : Option Expr} {l : Lexeme}
  {ls : List Lexeme} {ts : List Expr}

theorem isProperToken_of_wellFormed {e : Expr} (h : e.wellFormed) : e.isProperToken := by
  cases e <;> first | exact h | rfl

theorem wellFormed_callToken {f : NamedFunction} {trees : List Expr} (h : ∀ e ∈ trees, e.wellFormed)
    (hlength : trees.length = f.arity) : (callToken f trees).wellFormed := by
  match trees with
  | [a] =>
    have ha := h a (List.mem_cons_self ..)
    rw [callToken, Expr.wellFormed, Expr.forAll, Bool.and_eq_true]
    exact ⟨beq_iff_eq.2 hlength.symm, ha⟩
  | [a, b] =>
    have ha := h a (List.mem_cons_self ..)
    have hb := h b (List.mem_cons_of_mem _ (List.mem_cons_self ..))
    rw [callToken, Expr.wellFormed, Expr.forAll, Bool.and_eq_true, Bool.and_eq_true]
    exact ⟨⟨beq_iff_eq.2 hlength.symm, ha⟩, hb⟩
  | [] => rfl
  | _ :: _ :: _ :: _ => rfl

theorem forall_tokens {P : Expr → Prop} (hbare : ∀ op, P (.bare op)) (hnumber : ∀ v : Float, v.isNaN = false → P (.number v))
    (hcall : ∀ f (trees : List Expr), trees.length = f.arity → (∀ e ∈ trees, ∃ a, argument a = .ok e) →
      P (callToken f trees)) (hl : l.IsSound) (h : l.tokens text argument previous = .ok ts) : ∀ t ∈ ts, P t := by
  have hoperator {us : List Expr} (hus : ∀ t ∈ us, ∃ op, t = .bare op) : ∀ t ∈ us, P t := by
    intro t ht
    obtain ⟨op, rfl⟩ := hus t ht
    exact hbare op
  cases l with
  | literal s =>
    intro t ht
    rcases not_isNaN_of_literalTokens (mapError_eq_ok.1 h) hl t ht with ⟨op, rfl⟩ | ⟨v, rfl, hv⟩
    · exact hbare op
    · exact hnumber v hv
  | call f arguments =>
    obtain ⟨trees, htrees, rfl⟩ := tokens_call_eq_ok.1 h
    have hall := mapM_eq_ok.1 htrees
    refine List.forall_mem_append.2 ⟨hoperator fun t h => ⟨_, eq_of_mem_glue t h⟩, List.forall_mem_singleton.2 ?_⟩
    refine hcall f trees (hall.length_eq.symm.trans hl) fun e he => ?_
    obtain ⟨a, -, ha⟩ := exists_of_forall₂ hall.flip he
    exact ⟨a, ha⟩
  | sign op =>
    obtain rfl := Except.ok.inj h
    exact hoperator (bare_of_mem_signTokens op)
  | fault k => exact nomatch h

theorem forall_tokensFrom {P : Expr → Prop} (hbare : ∀ op, P (.bare op))
    (hnumber : ∀ v : Float, v.isNaN = false → P (.number v))
    (hcall : ∀ f (trees : List Expr), trees.length = f.arity → (∀ e ∈ trees, ∃ a, argument a = .ok e) →
      P (callToken f trees)) (hls : ∀ l ∈ ls, l.IsSound) (h : tokensFrom text argument previous ls = .ok ts) :
    ∀ t ∈ ts, P t := by
  induction ls generalizing previous ts with
  | nil =>
    obtain rfl := Except.ok.inj h
    exact fun t ht => nomatch ht
  | cons l ls ih =>
    obtain ⟨us, vs, hus, hvs, rfl⟩ := tokensFrom_cons_eq_ok.1 h
    have hl := forall_tokens hbare hnumber hcall (hls l (List.mem_cons_self ..)) hus
    exact List.forall_mem_append.2 ⟨hl, ih (fun l hl => hls l (List.mem_cons_of_mem _ hl)) hvs⟩

theorem isProperToken_tokensFrom (hargument : ∀ a e, argument a = .ok e → e.wellFormed) (hls : ∀ l ∈ ls, l.IsSound)
    (h : tokensFrom text argument previous ls = .ok ts) : ∀ t ∈ ts, t.isProperToken := by
  refine forall_tokensFrom (fun op => rfl) (fun v hv => ?_) (fun f trees hlength htrees => ?_) hls h
  · show (!v.isNaN) = true
    rw [hv]
    rfl
  · refine isProperToken_of_wellFormed (wellFormed_callToken (fun e he => ?_) hlength)
    obtain ⟨a, ha⟩ := htrees e he
    exact hargument a e ha

end Tokens

/-! ## Texts -/

section Texts

variable {strict : Bool} {limit depth : Int} {levels : Nat} {text : Text} {ts : List Expr} {e : Expr}

theorem isProperToken_tokensWithin (h : tokensWithin strict limit levels text = .ok ts) :
    ∀ t ∈ ts, t.isProperToken := by
  induction levels generalizing text ts with
  | zero => exact nomatch h
  | succ levels ih =>
    refine isProperToken_tokensFrom (fun a e ha => ?_) (fun l => isSound_of_mem_lexemes) (tokensWithin_succ_eq_ok.1 h).1
    obtain ⟨us, hus, rfl⟩ := treeWithin_eq_ok.1 ha
    exact wellFormed_treeOfTokens (ih hus)

theorem isProperToken_tokenize (h : tokenize strict limit depth text = .ok ts) : ∀ t ∈ ts, t.isProperToken :=
  isProperToken_tokensWithin h

theorem wellFormed_treeOf (h : treeOf strict limit text = .ok e) : e.wellFormed := by
  obtain ⟨ts, hts, rfl⟩ := treeWithin_eq_ok.1 (treeOf_eq_treeWithin.symm.trans h)
  exact wellFormed_treeOfTokens (isProperToken_tokensWithin hts)

end Texts

end Calculator
