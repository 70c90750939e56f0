import Calculator.Proofs.WellFormed
import Calculator.Proofs.Understanding

/-!
# Paths in trees

The nesting limit holds for the calls around a text, and again for the constructs inside each text that is read: the
whole input and every argument. So the tree of an input may be nested as deep as the square of the limit, and no deeper.

* `Edge`, `Expr.Path` : the ways from a node to its operands, and the paths that they make.
* `Expr.heaviest` : the most edges of some kinds on a path; `Expr.exists_countP_eq_heaviest` : a path has as many.
* `Expr.frames` : the evaluations that are open at the same time while a tree is evaluated.
* `heaviest_tree_le`, `frames_tree_le` : what a derivation adds to what its tokens have.
* `edges_le_of_limit` : the bounds for the tree of a text.
-/

namespace Calculator

set_option autoImplicit false

/-- From a node to one of its operands. -/
inductive Edge where
  /-- To an argument of a call. -/
  | argument
  /-- To the operand behind a minus or a root. -/
  | signed
  /-- To the right operand of a power. -/
  | exponent
  | plain
deriving DecidableEq, Repr

namespace Edge

def behind (op : Operator) : Edge := if op = .negate ∨ op = .squareRoot then signed else plain

def rightOf (op : Operator) : Edge := if op = .power then exponent else plain

theorem countP_cons (p : Edge → Bool) (edge : Edge) (edges : List Edge) :
    (edge :: edges).countP p = edges.countP p + (p edge).toNat := by
  rw [List.countP_cons]
  cases p edge <;> rfl

end Edge

namespace Expr

/-- The edges from a tree to one of its subtrees. -/
inductive Path : Expr → List Edge → Expr → Prop where
  | here (e : Expr) : Path e [] e
  | operand {op : Operator} {e e' : Expr} {edges : List Edge} (h : Path e edges e') :
      Path (unary op e) (.behind op :: edges) e'
  | left {op : Operator} {l r e' : Expr} {edges : List Edge} (h : Path l edges e') :
      Path (binary l op r) (.plain :: edges) e'
  | right {op : Operator} {l r e' : Expr} {edges : List Edge} (h : Path r edges e') :
      Path (binary l op r) (.rightOf op :: edges) e'
  | argument {f : NamedFunction} {e e' : Expr} {edges : List Edge} (h : Path e edges e') :
      Path (call f e) (.argument :: edges) e'
  | first {f : NamedFunction} {a b e' : Expr} {edges : List Edge} (h : Path a edges e') :
      Path (call₂ f a b) (.argument :: edges) e'
  | second {f : NamedFunction} {a b e' : Expr} {edges : List Edge} (h : Path b edges e') :
      Path (call₂ f a b) (.argument :: edges) e'

/-- The most edges with the property `p` on a path. -/
def heaviest (p : Edge → Bool) : Expr → Nat
  | unary op e => e.heaviest p + (p (.behind op)).toNat
  | binary l op r => max (l.heaviest p + (p .plain).toNat) (r.heaviest p + (p (.rightOf op)).toNat)
  | call _ e => e.heaviest p + (p .argument).toNat
  | call₂ _ a b => max (a.heaviest p) (b.heaviest p) + (p .argument).toNat
  | _ => 0

theorem Path.countP_le {e e' : Expr} {edges : List Edge} (h : Path e edges e') (p : Edge → Bool) :
    edges.countP p ≤ e.heaviest p := by
  induction h with
  | here e => exact Nat.zero_le _
  | operand _ ih | left _ ih | right _ ih | argument _ ih | first _ ih | second _ ih =>
    rw [Edge.countP_cons, heaviest]
    omega

theorem exists_countP_eq_heaviest (p : Edge → Bool) (e : Expr) :
    ∃ edges e', e.Path edges e' ∧ edges.countP p = e.heaviest p := by
  induction e with
  | unary op e ih =>
    obtain ⟨edges, e', hpath, hcount⟩ := ih
    exact ⟨_, e', .operand hpath, by rw [Edge.countP_cons, hcount, heaviest]⟩
  | binary l op r ihl ihr =>
    obtain ⟨edges, l', hl, hleft⟩ := ihl
    obtain ⟨edges', r', hr, hright⟩ := ihr
    rcases Nat.le_total (l.heaviest p + (p .plain).toNat) (r.heaviest p + (p (.rightOf op)).toNat) with hle | hle
    · exact ⟨_, r', .right hr, by rw [Edge.countP_cons, hright, heaviest, max_eq_right hle]⟩
    · exact ⟨_, l', .left hl, by rw [Edge.countP_cons, hleft, heaviest, max_eq_left hle]⟩
  | call f e ih =>
    obtain ⟨edges, e', hpath, hcount⟩ := ih
    exact ⟨_, e', .argument hpath, by rw [Edge.countP_cons, hcount, heaviest]⟩
  | call₂ f a b iha ihb =>
    obtain ⟨edges, a', ha, hfirst⟩ := iha
    obtain ⟨edges', b', hb, hsecond⟩ := ihb
    rcases Nat.le_total (a.heaviest p) (b.heaviest p) with hle | hle
    · exact ⟨_, b', .second hb, by rw [Edge.countP_cons, hsecond, heaviest, max_eq_right hle]⟩
    · exact ⟨_, a', .first ha, by rw [Edge.countP_cons, hfirst, heaviest, max_eq_left hle]⟩
  | _ => exact ⟨[], _, .here _, rfl⟩

/-- The evaluations open at the same time. The left operands of a chain are followed in a loop: only what ends the chain
is evaluated anew. -/
def framesIn (chained : Bool) : Expr → Nat
  | unary _ e => e.framesIn false + 1
  | binary l _ r => max (l.framesIn true) (r.framesIn false) + (!chained).toNat
  | call _ e => e.framesIn false + 1
  | call₂ _ a b => max (a.framesIn false) (b.framesIn false) + 1
  | _ => 1

def frames (e : Expr) : Nat := e.framesIn false

theorem framesIn_le_frames (chained : Bool) (e : Expr) : e.framesIn chained ≤ e.frames := by
  cases e <;> cases chained <;> simp [frames, framesIn]

end Expr

/-! ## Derivations -/

namespace Derivation

variable {level : Level} {n outer : ℕ}

/-- Every construct that is open adds an edge at most. -/
theorem heaviest_tree_le {p : Edge → Bool} {inner : ℕ} (hplain : p .plain = false) (hsigned : (p .signed).toNat ≤ inner)
    (hexponent : (p .exponent).toNat ≤ inner) (D : Derivation level) (hn : D.nesting ≤ n)
    (htokens : ∀ t ∈ D.tokens, t.heaviest p ≤ outer) : D.tree.heaviest p ≤ n * inner + outer := by
  induction D generalizing n with
  | ofTerm _ ih | ofFactor _ ih | ofBase _ ih => exact ih hn htokens
  | sum l op hop r ihl ihr | product l op hop r ihl ihr =>
    obtain ⟨hl, hr⟩ := List.forall_mem_append.1 htokens
    obtain ⟨hnl, hnr⟩ := max_le_iff.1 hn
    have hleft := ihl hnl hl
    have hright := ihr hnr (List.forall_mem_cons.1 hr).2
    have hedge : Edge.rightOf op = .plain := by rcases hop with rfl | rfl <;> rfl
    rw [tree, Expr.heaviest, hedge, hplain, Bool.toNat_false]
    omega
  | power b e ihb ihe =>
    obtain ⟨hb, he⟩ := List.forall_mem_append.1 htokens
    obtain ⟨hnb, hne⟩ := max_le_iff.1 hn
    obtain ⟨m, rfl⟩ := Nat.exists_eq_succ_of_ne_zero (Nat.ne_zero_of_lt hne)
    have hleft := ihb hnb hb
    have hright := ihe (Nat.le_of_succ_le_succ hne) (List.forall_mem_cons.1 he).2
    have hedge : Edge.rightOf .power = .exponent := rfl
    rw [Nat.succ_mul] at hleft ⊢
    rw [tree, Expr.heaviest, hedge, hplain, Bool.toNat_false]
    omega
  | parentheses e ih =>
    exact ih (Nat.le_of_succ_le hn) (List.forall_mem_append.1 (List.forall_mem_cons.1 htokens).2).1
  | signed op hop e ih =>
    obtain ⟨m, rfl⟩ := Nat.exists_eq_succ_of_ne_zero (Nat.ne_zero_of_lt hn)
    have hoperand := ih (Nat.le_of_succ_le_succ hn) (List.forall_mem_cons.1 htokens).2
    have hedge : Edge.behind op = .signed := by rcases hop with rfl | rfl <;> rfl
    rw [tree, Expr.heaviest, hedge, Nat.succ_mul]
    omega
  | call f e | call₂ f a b => exact (htokens _ (List.mem_singleton_self _)).trans (Nat.le_add_left ..)
  | powerOfTen v =>
    have hedge : Edge.behind .scientific = .plain := rfl
    rw [tree, Expr.heaviest, hedge, hplain]
    exact Nat.zero_le _
  | _ => exact Nat.zero_le _

/-- The evaluations that a chain at a level adds to those of its operands. -/
def slack : Level → Nat
  | .base => 0
  | .factor => 1
  | .term => 2
  | .expression => 3

/-- As long as a chain goes on, its last level adds none. -/
def slackIn : Level → Nat
  | .base => 0
  | .factor | .term => 1
  | .expression => 2

/-- Every construct that is open adds three evaluations at most, of a sum, a product and a power in it. -/
theorem framesIn_tree_le (D : Derivation level) (hn : D.nesting ≤ n) (houter : 2 ≤ outer)
    (htokens : ∀ t ∈ D.tokens, t.frames ≤ outer) :
    D.tree.frames ≤ n * 3 + outer + slack level ∧ D.tree.framesIn true ≤ n * 3 + outer + slackIn level := by
  have hsmall {e : Expr} {k : ℕ} (he : e.frames ≤ 2) : e.frames ≤ k + outer ∧ e.framesIn true ≤ k + outer :=
    ⟨by omega, (e.framesIn_le_frames true).trans (by omega)⟩
  induction D generalizing n with
  | ofTerm _ ih | ofFactor _ ih | ofBase _ ih =>
    obtain ⟨hframes, hchained⟩ := ih hn htokens
    simp only [slack, slackIn, tree] at hframes hchained ⊢
    omega
  | sum l op hop r ihl ihr | product l op hop r ihl ihr =>
    obtain ⟨hl, hr⟩ := List.forall_mem_append.1 htokens
    obtain ⟨hnl, hnr⟩ := max_le_iff.1 hn
    have hleft := (ihl hnl hl).2
    have hright := (ihr hnr (List.forall_mem_cons.1 hr).2).1
    simp only [slack, slackIn, tree, Expr.frames, Expr.framesIn, Bool.not_false, Bool.not_true, Bool.toNat_true,
      Bool.toNat_false] at hleft hright ⊢
    omega
  | power b e ihb ihe =>
    obtain ⟨hb, he⟩ := List.forall_mem_append.1 htokens
    obtain ⟨hnb, hne⟩ := max_le_iff.1 hn
    obtain ⟨m, rfl⟩ := Nat.exists_eq_succ_of_ne_zero (Nat.ne_zero_of_lt hne)
    have hleft := (ihb hnb hb).2
    have hright := (ihe (Nat.le_of_succ_le_succ hne) (List.forall_mem_cons.1 he).2).1
    simp only [slack, slackIn, tree, Expr.frames, Expr.framesIn, Bool.not_false, Bool.not_true, Bool.toNat_true,
      Bool.toNat_false] at hleft hright ⊢
    omega
  | parentheses e ih =>
    obtain ⟨m, rfl⟩ := Nat.exists_eq_succ_of_ne_zero (Nat.ne_zero_of_lt hn)
    have hinner := ih (Nat.le_of_succ_le_succ hn) (List.forall_mem_append.1 (List.forall_mem_cons.1 htokens).2).1
    simp only [slack, slackIn, tree] at hinner ⊢
    omega
  | signed op hop e ih =>
    obtain ⟨m, rfl⟩ := Nat.exists_eq_succ_of_ne_zero (Nat.ne_zero_of_lt hn)
    have hoperand := (ih (Nat.le_of_succ_le_succ hn) (List.forall_mem_cons.1 htokens).2).1
    simp only [slack, slackIn, tree, Expr.frames, Expr.framesIn] at hoperand ⊢
    omega
  | call f e | call₂ f a b =>
    have hcall := htokens _ (List.mem_singleton_self _)
    exact ⟨hcall.trans (Nat.le_add_left ..), (Expr.framesIn_le_frames ..).trans (hcall.trans (Nat.le_add_left ..))⟩
  | powerOfTen v => exact hsmall le_rfl
  | number v | constant op hop | freeVariable => exact hsmall one_le_two

end Derivation

/-! ## Levels of calls -/

section Levels

variable {strict : Bool} {limit : Int} {levels : ℕ} {text : Text} {e : Expr} {ts : List Expr}

theorem heaviest_callToken {p : Edge → Bool} {f : NamedFunction} {trees : List Expr} {outer : ℕ}
    (h : ∀ e ∈ trees, e.heaviest p + (p .argument).toNat ≤ outer) : (callToken f trees).heaviest p ≤ outer := by
  unfold callToken
  split
  · exact h _ (List.mem_cons_self ..)
  · have ha := h _ (List.mem_cons_self ..)
    have hb := h _ (List.mem_cons_of_mem _ (List.mem_cons_self ..))
    rw [Expr.heaviest]
    omega
  · exact Nat.zero_le _

theorem frames_callToken {f : NamedFunction} {trees : List Expr} {outer : ℕ} (houter : 2 ≤ outer)
    (h : ∀ e ∈ trees, e.frames + 1 ≤ outer) : (callToken f trees).frames ≤ outer := by
  unfold callToken
  split
  · exact h _ (List.mem_cons_self ..)
  · have ha := h _ (List.mem_cons_self ..)
    have hb := h _ (List.mem_cons_of_mem _ (List.mem_cons_self ..))
    simp only [Expr.frames, Expr.framesIn] at ha hb ⊢
    omega
  · exact one_le_two.trans houter

theorem heaviest_treeWithin_le {p : Edge → Bool} {inner : ℕ} (hplain : p .plain = false)
    (hsigned : (p .signed).toNat ≤ inner) (hexponent : (p .exponent).toNat ≤ inner)
    (h : treeWithin strict limit levels text = .ok e) (hi : e.intact) :
    e.heaviest p + (p .argument).toNat ≤ levels * (limit.toNat * inner + (p .argument).toNat) := by
  induction levels generalizing text e with
  | zero => exact nomatch h
  | succ levels ih =>
    obtain ⟨D, rfl, hn, hintact, htokens⟩ := exists_derivation_of_text h hi
    have houter : ∀ t ∈ D.tokens, t.intact → t.heaviest p ≤ levels * (limit.toNat * inner + (p .argument).toNat) := by
      refine forall_tokensFrom (fun op _ => Nat.zero_le _) (fun v _ _ => Nat.zero_le _)
        (fun f trees _ htrees hcall => heaviest_callToken fun e he => ?_) (fun l => isSound_of_mem_lexemes) htokens
      obtain ⟨a, ha⟩ := htrees e he
      exact ih ha (intact_of_callToken hcall e he)
    have htree := D.heaviest_tree_le hplain hsigned hexponent hn fun t ht => houter t ht (hintact t ht)
    rw [Nat.succ_mul]
    omega

theorem frames_treeWithin_le (h : treeWithin strict limit levels text = .ok e) (hi : e.intact) :
    e.frames + 1 ≤ levels * (limit.toNat * 3 + 4) + 2 := by
  induction levels generalizing text e with
  | zero => exact nomatch h
  | succ levels ih =>
    obtain ⟨D, rfl, hn, hintact, htokens⟩ := exists_derivation_of_text h hi
    have houter : ∀ t ∈ D.tokens, t.intact → t.frames ≤ levels * (limit.toNat * 3 + 4) + 2 := by
      refine forall_tokensFrom (fun op _ => ?_) (fun v _ _ => ?_)
        (fun f trees _ htrees hcall => frames_callToken (Nat.le_add_left ..) fun e he => ?_)
        (fun l => isSound_of_mem_lexemes) htokens
      · exact one_le_two.trans (Nat.le_add_left ..)
      · exact one_le_two.trans (Nat.le_add_left ..)
      · obtain ⟨a, ha⟩ := htrees e he
        exact ih ha (intact_of_callToken hcall e he)
    have htree := (D.framesIn_tree_le hn (Nat.le_add_left ..) fun t ht => houter t ht (hintact t ht)).1
    rw [Nat.succ_mul]
    simp only [Derivation.slack] at htree
    omega

/-- A text that has a tree stands inside one level of calls more than the limit. -/
theorem treeOf_eq_treeWithin_succ (h : treeOf strict limit text = .ok e) :
    treeWithin strict limit (limit.toNat + 1) text = .ok e := by
  have hlimit : 0 ≤ limit := by
    by_contra hlt
    have hlevels : (limit - 0 + 1).toNat = 0 := by omega
    rw [treeOf_eq_treeWithin, hlevels] at h
    exact nomatch h
  have hlevels : (limit - 0 + 1).toNat = limit.toNat + 1 := by omega
  rwa [treeOf_eq_treeWithin, hlevels] at h

theorem frames_le_of_limit (h : treeOf strict limit text = .ok e) (hi : e.intact) :
    e.frames ≤ (limit.toNat * 3 + 4) * (limit.toNat + 1) + 1 := by
  have hmost := frames_treeWithin_le (treeOf_eq_treeWithin_succ h) hi
  rw [Nat.mul_comm] at hmost
  omega

end Levels

/-- **The limit bounds the paths of a tree by its square.** On every path there are at most as many arguments as the limit
has, and as many constructs in the whole input and in each of these arguments. So no more evaluations than three times
the square, and a little, are ever open at the same time. -/
theorem edges_le_of_limit {strict : Bool} {limit : Int} {text : Text} {e : Expr}
    (h : treeOf strict limit text = .ok e) (hi : e.intact) :
    (∀ edges e', e.Path edges e' →
      edges.countP (· == .argument) ≤ limit.toNat ∧
        edges.countP (· != .plain) ≤ limit.toNat * (limit.toNat + 2)) ∧
    e.frames ≤ (limit.toNat * 3 + 4) * (limit.toNat + 1) + 1 := by
  have hwithin := treeOf_eq_treeWithin_succ h
  refine ⟨fun edges e' hpath => ⟨?_, ?_⟩, frames_le_of_limit h hi⟩
  · have hmost := heaviest_treeWithin_le (p := (· == .argument)) rfl (Nat.le_refl 0) (Nat.le_refl 0) hwithin hi
    have hcount := hpath.countP_le (· == .argument)
    simp only [mul_zero, zero_add, beq_self_eq_true, Bool.toNat_true, mul_one] at hmost
    omega
  · have hmost := heaviest_treeWithin_le (p := (· != .plain)) rfl (Nat.le_refl 1) (Nat.le_refl 1) hwithin hi
    have hcount := hpath.countP_le (· != .plain)
    have hsquare : (limit.toNat + 1) * (limit.toNat + 1) = limit.toNat * (limit.toNat + 2) + 1 := by ring
    simp only [mul_one] at hmost
    change _ + 1 ≤ (limit.toNat + 1) * (limit.toNat + 1) at hmost
    omega

/-- A minus, a call and a minus: with a limit of one there are three edges on the path. -/
theorem three_edges_of_limit_one :
    ∃ e edges e', treeOf true 1 "-sin(-1)".toList = .ok e ∧ e.intact ∧ e.Path edges e' ∧
      2 * 1 < edges.countP (· != .plain) := by
  have hany : (treeOf true 1 "-sin(-1)".toList).toOption.any fun e =>
      e.intact && decide (2 * 1 < e.heaviest (· != .plain)) := by decide +kernel
  obtain ⟨e, he, hdeep⟩ := exists_ok_of_any hany
  obtain ⟨hintact, hdeep⟩ := Bool.and_eq_true_iff.1 hdeep
  obtain ⟨edges, e', hpath, hcount⟩ := e.exists_countP_eq_heaviest (· != .plain)
  exact ⟨e, edges, e', he, hintact, hpath, hcount ▸ of_decide_eq_true hdeep⟩

/-- The bounds of a limit of one are three edges and fifteen evaluations; here they are two and three. -/
theorem edges_le_of_limit_one :
    ∃ e, treeOf true 1 "cos(√2)".toList = .ok e ∧ e.intact ∧
      (∀ edges e', e.Path edges e' → edges.countP (· == .argument) ≤ 1 ∧ edges.countP (· != .plain) ≤ 3) ∧
      e.frames ≤ 15 := by
  have hany : (treeOf true 1 "cos(√2)".toList).toOption.any Expr.intact := by decide +kernel
  obtain ⟨e, he, hintact⟩ := exists_ok_of_any hany
  exact ⟨e, he, hintact, edges_le_of_limit he hintact⟩

end Calculator
