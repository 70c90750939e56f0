import Calculator.Proofs.Calls
import Calculator.Proofs.Concatenation
import Calculator.Proofs.Plotting
import Calculator.Proofs.WellFormed

/-!
# What a value depends on

Only the functions of angles, and those that give one, see the angle mode, and only the free variable sees `x`. So two
runs that differ in the mode, or in `x`, give the same for a text that has no call of such a function, or no `x` in it.

* `Expr.isPermitted`, `Text.Permitted` : what nodes and texts may hold that see the mode, or `x`.
* `Text.Permitted.argument` : arguments hold nothing else.
* `evaluate_of_permitted` : a tree of permitted nodes is evaluated the same in both runs.
* `Derivation.forAll_tree`, `forAll_tokensFrom` : the nodes of a tree are those of its tokens and of operators, and the
  tokens are those of the pieces.
* `permitted_treeWithin` : so the tree of a permitted text has only permitted nodes.
* `evaluate_independent` : the two runs give the same, and a graph without `x` is constant.
-/

namespace Calculator

set_option autoImplicit false

/-- The function sees the angle mode. -/
def NamedFunction.seesMode (f : NamedFunction) : Bool := f.isTrigonometric || f.isInverse

/-- A node that sees the mode only if `angles`, and `x` only if `varies`. -/
def Expr.isPermitted (angles varies : Bool) : Expr → Bool
  | call f _ => angles || !f.seesMode
  | name _ | bare .freeVariable => varies
  | _ => true

/-- A text that has functions of angles only if `angles`, and the free variable only if `varies`. -/
structure Text.Permitted (angles varies : Bool) (t : Text) : Prop where
  calls : angles = false → ∀ f : NamedFunction, f.seesMode → f.name ∉ (Calculator.calls t).map CallSite.name
  free : varies = false → 'x' ∉ t

variable {angles varies : Bool}

/-! ## Evaluation -/

section Evaluation

variable {mode mode' : AngleMode} {x x' : Float} {f : NamedFunction} {op : Operator}

theorem value?_of_permitted (hmode : angles → mode = mode') {e : Expr}
    (h : (Expr.call f e).isPermitted angles varies) : f.value? mode = f.value? mode' := by
  rcases Bool.or_eq_true_iff.1 h with hangles | hf
  · rw [hmode hangles]
  · simp only [NamedFunction.seesMode, Bool.not_eq_true', Bool.or_eq_false_iff] at hf
    funext v
    simp only [NamedFunction.value?, NamedFunction.compute, hf.1, hf.2, Bool.false_eq_true, if_false]

theorem bareValue?_of_permitted (hx : varies → x = x') (h : (Expr.bare op).isPermitted angles varies) :
    op.value? x = op.value? x' := by
  cases op with
  | freeVariable => exact congrArg some (hx h)
  | _ => rfl

/-- A tree of permitted nodes is evaluated the same in both runs. -/
theorem evaluate_of_permitted (hmode : angles → mode = mode') (hx : varies → x = x') {e : Expr}
    (h : e.forAll (Expr.isPermitted angles varies)) : e.evaluate x mode = e.evaluate x' mode' := by
  induction e with
  | name t => exact congrArg (fun v => Except.ok (some v)) (hx h)
  | bare op => exact congrArg Except.ok (bareValue?_of_permitted hx h)
  | unary op e ih =>
    simp only [Expr.forAll, Bool.and_eq_true] at h
    rw [Expr.evaluate_unary, Expr.evaluate_unary, ih h.2]
  | binary l op r ihl ihr =>
    simp only [Expr.forAll, Bool.and_eq_true] at h
    rw [Expr.evaluate_binary, Expr.evaluate_binary, ihl h.1.2, ihr h.2]
  | call f e ih =>
    simp only [Expr.forAll, Bool.and_eq_true] at h
    rw [Expr.evaluate_call, Expr.evaluate_call, ih h.2, value?_of_permitted hmode h.1]
  | call₂ f a b iha ihb =>
    simp only [Expr.forAll, Bool.and_eq_true] at h
    rw [Expr.evaluate_call₂, Expr.evaluate_call₂, iha h.1.2, ihb h.2]
  | _ => rfl

end Evaluation

/-! ## Texts -/

section Texts

variable {t a : Text} {f : NamedFunction} {arguments : List Text}

theorem mem_of_freeVariable (h : .sign .freeVariable ∈ lexemes t) : 'x' ∈ t := by
  fun_induction lexemes t with
  | case2 c rest hc run ih =>
    have hrest := ih ((List.mem_cons.1 h).resolve_left (by simp))
    exact List.mem_cons_of_mem _ ((takeLiteral_suffix (c == 'E') rest).subset hrest)
  | case5 c rest hc hname name inside hrest f hf arguments after hsplit harity ih =>
    have hafter := ih ((List.mem_cons.1 h).resolve_left (by simp))
    exact (inside_suffix hrest).subset ((splitArguments_suffix hsplit).subset hafter)
  | case8 c rest hc hname hblank ih => exact List.mem_cons_of_mem _ (ih h)
  | case9 c rest hc hname hblank op hop ih =>
    rcases List.mem_cons.1 h with h | h
    · rw [eq_variable (hop.trans (congrArg some (Lexeme.sign.inj h).symm))]
      exact List.mem_cons_self ..
    · exact List.mem_cons_of_mem _ (ih h)
  | _ => simp at h

namespace Text.Permitted

theorem argument (h : Permitted angles varies t) (hnone : ∀ k, Lexeme.fault k ∉ lexemes t)
    (hcall : .call f arguments ∈ lexemes t) (ha : a ∈ arguments) : Permitted angles varies a where
  calls hangles g hg hmem := h.calls hangles g hg (names_argument_subset hnone hcall ha hmem)
  free hvaries hmem := h.free hvaries ((isInfix_argument hcall ha).subset hmem)

theorem call (h : Permitted angles varies t) (hnone : ∀ k, Lexeme.fault k ∉ lexemes t)
    (hcall : .call f arguments ∈ lexemes t) (e : Expr) : (Expr.call f e).isPermitted angles varies := by
  cases angles with
  | true => rfl
  | false =>
    cases hf : f.seesMode with
    | true => exact absurd (mem_names_of_call hnone hcall) (h.calls rfl f hf)
    | false =>
      rw [Expr.isPermitted, hf]
      rfl

theorem sign (h : Permitted angles varies t) {op : Operator} (hop : .sign op ∈ lexemes t) :
    (Expr.bare op).isPermitted angles varies := by
  cases op with
  | freeVariable =>
    cases varies with
    | true => rfl
    | false => exact absurd (mem_of_freeVariable hop) (h.free rfl)
  | _ => rfl

end Text.Permitted

end Texts

/-! ## Trees -/

theorem Derivation.forAll_tree {level : Level} (D : Derivation level)
    (h : ∀ t ∈ D.tokens, t.forAll (Expr.isPermitted angles varies)) :
    D.tree.forAll (Expr.isPermitted angles varies) := by
  induction D with
  | ofTerm _ ih | ofFactor _ ih | ofBase _ ih => exact ih h
  | sum l op _ r ihl ihr | product l op _ r ihl ihr | power l r ihl ihr =>
    obtain ⟨hl, hr⟩ := List.forall_mem_append.1 h
    rw [tree, Expr.forAll, ihl hl, ihr (List.forall_mem_cons.1 hr).2]
    rfl
  | parentheses inner ih => exact ih (List.forall_mem_append.1 (List.forall_mem_cons.1 h).2).1
  | signed op _ operand ih =>
    rw [tree, Expr.forAll, ih (List.forall_mem_cons.1 h).2]
    rfl
  | powerOfTen v => rfl
  | freeVariable => exact h (.bare .freeVariable) (List.mem_singleton_self _)
  | _ => exact h _ (List.mem_singleton_self _)

section Tokens

variable {text : Text} {argument : Text → Except TokenError Expr} {previous : Option Expr} {l : Lexeme}
  {ls : List Lexeme} {ts : List Expr}

theorem permitted_callToken {f : NamedFunction} {trees : List Expr}
    (hf : ∀ e, (Expr.call f e).isPermitted angles varies)
    (htrees : ∀ e ∈ trees, e.forAll (Expr.isPermitted angles varies)) :
    (callToken f trees).forAll (Expr.isPermitted angles varies) := by
  match trees with
  | [a] => rw [callToken, Expr.forAll, hf, htrees a (List.mem_cons_self ..), Bool.and_self]
  | [a, b] =>
    rw [callToken, Expr.forAll, htrees a (List.mem_cons_self ..), htrees b (List.mem_cons_of_mem _ (List.mem_cons_self ..))]
    rfl
  | [] | _ :: _ :: _ :: _ => rfl

theorem permitted_glue : ∀ t ∈ glue previous, t.forAll (Expr.isPermitted angles varies) := by
  intro t ht
  rw [eq_of_mem_glue t ht]
  rfl

/-- The tokens of a piece are permitted if its sign is, or the call that it is. -/
theorem permitted_tokens (hsign : ∀ op, l = .sign op → (Expr.bare op).isPermitted angles varies)
    (hcall : ∀ f arguments trees, l = .call f arguments → arguments.mapM argument = .ok trees →
      (callToken f trees).intact → (callToken f trees).forAll (Expr.isPermitted angles varies))
    (h : l.tokens text argument previous = .ok ts) :
    ∀ t ∈ ts, t.intact → t.forAll (Expr.isPermitted angles varies) := by
  have hglue : ∀ t ∈ glue previous, t.intact → t.forAll (Expr.isPermitted angles varies) :=
    fun t ht _ => permitted_glue t ht
  cases l with
  | literal s =>
    obtain ⟨v, -, rfl⟩ | rfl | ⟨exponent, v, -, -, rfl⟩ := literalTokens_cases (mapError_eq_ok.1 h)
    · exact List.forall_mem_append.2 ⟨hglue, List.forall_mem_singleton.2 fun _ => rfl⟩
    · exact List.forall_mem_singleton.2 fun _ => rfl
    · exact List.forall_mem_cons.2 ⟨fun _ => rfl, List.forall_mem_singleton.2 fun _ => rfl⟩
  | call f arguments =>
    obtain ⟨trees, htrees, rfl⟩ := tokens_call_eq_ok.1 h
    exact List.forall_mem_append.2 ⟨hglue, List.forall_mem_singleton.2 (hcall f arguments trees rfl htrees)⟩
  | sign op =>
    obtain rfl := Except.ok.inj h
    have hop : ∀ t ∈ [Expr.bare op], t.intact → t.forAll (Expr.isPermitted angles varies) :=
      List.forall_mem_singleton.2 fun _ => hsign op rfl
    unfold signTokens
    split_ifs
    · exact List.forall_mem_append.2 ⟨hglue, hop⟩
    · exact List.forall_mem_singleton.2 fun _ => rfl
    · exact hop
  | fault k => exact nomatch h

theorem permitted_tokensFrom (hsign : ∀ op, .sign op ∈ ls → (Expr.bare op).isPermitted angles varies)
    (hcall : ∀ f arguments trees, .call f arguments ∈ ls → arguments.mapM argument = .ok trees →
      (callToken f trees).intact → (callToken f trees).forAll (Expr.isPermitted angles varies))
    (h : tokensFrom text argument previous ls = .ok ts) :
    ∀ t ∈ ts, t.intact → t.forAll (Expr.isPermitted angles varies) := by
  induction ls generalizing previous ts with
  | nil =>
    obtain rfl := Except.ok.inj h
    exact fun t ht => nomatch ht
  | cons l ls ih =>
    obtain ⟨us, vs, hus, hvs, rfl⟩ := tokensFrom_cons_eq_ok.1 h
    refine List.forall_mem_append.2 ⟨permitted_tokens (fun op hop => ?_) (fun f arguments trees hl => ?_) hus, ?_⟩
    · exact hsign op (hop ▸ List.mem_cons_self ..)
    · exact hcall f arguments trees (hl ▸ List.mem_cons_self ..)
    · exact ih (fun op hop => hsign op (List.mem_cons_of_mem _ hop))
        (fun f arguments trees hl => hcall f arguments trees (List.mem_cons_of_mem _ hl)) hvs

end Tokens

theorem permitted_treeWithin {strict : Bool} {limit : Int} {levels : ℕ} {text : Text} {e : Expr}
    (h : treeWithin strict limit levels text = .ok e) (hi : e.intact) (htext : text.Permitted angles varies) :
    e.forAll (Expr.isPermitted angles varies) := by
  induction levels generalizing text e with
  | zero => exact nomatch h
  | succ levels ih =>
    obtain ⟨D, rfl, -, hintact, htokens⟩ := exists_derivation_of_text h hi
    have hnone := not_fault_of_tokensFrom htokens
    refine D.forAll_tree fun t ht => permitted_tokensFrom (fun op => htext.sign) ?_ htokens t ht (hintact t ht)
    intro f arguments trees hcall htrees hcallIntact
    refine permitted_callToken (htext.call hnone hcall) fun e he => ?_
    obtain ⟨a, ha, hae⟩ := exists_of_forall₂ (mapM_eq_ok.1 htrees).flip he
    exact ih hae (intact_of_callToken hcallIntact e he) (htext.argument hnone hcall ha)

/-! ## Two runs -/

theorem Expr.forAll_mono {p q : Expr → Bool} (hpq : ∀ n, p n → q n) {e : Expr} (h : e.forAll p) : e.forAll q := by
  induction e with
  | unary op e ih | call f e ih =>
    simp only [forAll, Bool.and_eq_true] at h ⊢
    exact ⟨hpq _ h.1, ih h.2⟩
  | binary l op r ihl ihr | call₂ f l r ihl ihr =>
    simp only [forAll, Bool.and_eq_true] at h ⊢
    exact ⟨⟨hpq _ h.1.1, ihl h.1.2⟩, ihr h.2⟩
  | _ => exact hpq _ h

theorem Expr.concrete_of_wellFormed {e : Expr} (h : e.wellFormed) : e.concrete :=
  forAll_mono (fun n hn => by cases n <;> first | rfl | exact hn) h

section Runs

variable {s : Setup} {r : Range} {text answer problem : Text} {tree : Expr} {mode : AngleMode} {x x' : Float}

theorem evaluate_treeOf (htext : text.Permitted angles varies) (hmode : angles → s.angleMode = mode)
    (hx : varies → x = x') (h : s.treeOf text = .ok tree) : tree.evaluate x s.angleMode = tree.evaluate x' mode := by
  by_cases hi : tree.intact
  · exact evaluate_of_permitted hmode hx (permitted_treeWithin (treeOf_eq_treeWithin.symm.trans h) hi htext)
  · have hconcrete := Expr.concrete_of_wellFormed (wellFormed_treeOf h)
    rw [Expr.evaluate_of_not_intact hconcrete hi, Expr.evaluate_of_not_intact hconcrete hi]

theorem evaluate_permitted (htext : text.Permitted angles varies) (hmode : angles → s.angleMode = mode)
    (hx : varies → x = x') : s.evaluate x text = { s with angleMode := mode }.evaluate x' text := by
  show (s.treeOf text >>= fun tree => _) = (s.treeOf text >>= fun tree => _)
  cases htree : s.treeOf text with
  | error e => rfl
  | ok tree => exact congrArg Except.ok (evaluate_treeOf htext hmode hx htree)

theorem permitted_of_not_mem (h : 'x' ∉ text) : text.Permitted true false := ⟨nofun, fun _ => h⟩

/-- All points of a graph without the free variable are at the same height. -/
theorem constant_graph {points : List Point} (hx : 'x' ∉ substituteAnswer answer problem)
    (h : graph s r answer problem = .ok points) : points = [] ∨ ∃ y, ∀ p ∈ points, p.y = y := by
  unfold graph at h
  cases htree : s.treeOf (substituteAnswer answer problem) with
  | error e =>
    rw [htree] at h
    exact .inl (Except.ok.inj h).symm
  | ok tree =>
    rw [htree] at h
    dsimp only at h
    by_cases hfailure : tree.isFailure
    · rw [if_pos hfailure] at h
      exact .inl (Except.ok.inj h).symm
    rw [if_neg hfailure] at h
    obtain ⟨n, -, hpoints⟩ := bind_eq_ok.1 h
    obtain rfl := Except.ok.inj hpoints
    have hvalue (x : Float) : s.finiteValue? x tree = s.finiteValue? 0.0 tree := by
      rw [Setup.finiteValue?, Setup.finiteValue?, Setup.value?, Setup.value?,
        evaluate_treeOf (permitted_of_not_mem hx) (fun _ => rfl) (absurd · Bool.false_ne_true) htree]
    have hheight := forall_mem_pointsOnto (r := r) (n := (n + 1).toNat) (P := fun _ => True)
      (Q := fun y => s.finiteValue? 0.0 tree = some y) (fun i _ v hv => ⟨trivial, (hvalue _).symm.trans hv⟩)
      (List.forall_mem_nil _)
    cases hy : s.finiteValue? 0.0 tree with
    | none =>
      exact .inl (List.eq_nil_iff_forall_not_mem.2 fun p hp => Option.some_ne_none _ ((hheight p hp).2.symm.trans hy))
    | some y => exact .inr ⟨y, fun p hp => (Option.some.inj (hy.symm.trans (hheight p hp).2)).symm⟩

/-- Such a graph is empty, or has a point at every sample. -/
theorem exists_constant_graph {n : Int} (hx : 'x' ∉ substituteAnswer answer problem) (hn : r.sampleCount = .ok n) :
    ∃ points, graph s r answer problem = .ok points ∧ (points = [] ∨ ∃ y, (∀ p ∈ points, p.y = y) ∧
      ∀ x, r.IsSample x → ∃ p ∈ points, SameNumber p.x x) := by
  obtain ⟨points, hpoints, hmaps⟩ := graph_maps_iff s answer problem hn
  refine ⟨points, hpoints, ?_⟩
  rcases constant_graph hx hpoints with hnone | ⟨y, hy⟩
  · exact .inl hnone
  rcases points with _ | ⟨q, points⟩
  · exact .inl rfl
  refine .inr ⟨y, hy, fun x hsample => ?_⟩
  -- a point of the graph is a value of the text, which it has at every other sample, too
  obtain ⟨v, hv, hfinite, hsame⟩ := ((hmaps q.x q.y).1 ⟨q, List.mem_cons_self .., .inl rfl, .inl rfl⟩).2
  have hvalue : HasFiniteValue s (substituteAnswer answer problem) x q.y :=
    ⟨v, (evaluate_permitted (permitted_of_not_mem hx) (fun _ => rfl) nofun).symm.trans hv, hfinite, hsame⟩
  obtain ⟨p, hp, hpx, -⟩ := (hmaps x q.y).2 ⟨hsample, hvalue⟩
  exact ⟨p, hp, hpx⟩

end Runs

/-- **Only functions of angles see the mode, and only the free variable sees `x`.** A text without calls of
trigonometric and inverse functions gives the same in both modes, and a text without `x` gives the same at every `x`: its
graph is empty, or has a point at every sample, all of them at the same height. -/
theorem evaluate_independent (s : Setup) (text : Text) :
    ((∀ f : NamedFunction, f.isTrigonometric || f.isInverse → f.name ∉ (calls text).map CallSite.name) →
      ∀ mode x, { s with angleMode := mode }.evaluate x text = s.evaluate x text) ∧
    ('x' ∉ text → (∀ x x', s.evaluate x text = s.evaluate x' text) ∧
      ∀ answer problem r n, substituteAnswer answer problem = text → Range.sampleCount r = .ok n →
        ∃ points, graph s r answer problem = .ok points ∧ (points = [] ∨ ∃ y, (∀ p ∈ points, p.y = y) ∧
          ∀ x, r.IsSample x → ∃ p ∈ points, SameNumber p.x x)) := by
  constructor
  · intro hcalls mode x
    have htext : text.Permitted false true := ⟨fun _ => hcalls, nofun⟩
    exact (evaluate_permitted htext nofun fun _ => rfl).symm
  · intro hx
    constructor
    · exact fun x x' => evaluate_permitted (permitted_of_not_mem hx) (fun _ => rfl) nofun
    · rintro answer problem r n rfl hn
      exact exists_constant_graph hx hn

/-- A function of two arguments in both modes, and a sine in an argument at two `x`, and over a range. -/
theorem evaluate_independent_hypot :
    Setup.evaluate ⟨.degrees, true, 64⟩ 2.5 "hypot(x,3)".toList =
        Setup.evaluate ⟨.radians, true, 64⟩ 2.5 "hypot(x,3)".toList ∧
      Setup.evaluate ⟨.degrees, true, 64⟩ 1.0 "abs(sin(90))".toList =
        Setup.evaluate ⟨.degrees, true, 64⟩ 2.5 "abs(sin(90))".toList ∧
      ∃ points, graph ⟨.degrees, true, 64⟩ ⟨0.0, 1.0, 0.5⟩ "90".toList "abs(sin(ans))".toList = .ok points ∧
        (points = [] ∨ ∃ y, (∀ p ∈ points, p.y = y) ∧ ∃ p ∈ points, SameNumber p.x 0.5) := by
  have hcalls : ∀ f : NamedFunction, f.isTrigonometric || f.isInverse →
      f.name ∉ (calls "hypot(x,3)".toList).map CallSite.name := by
    intro f hf
    cases f <;> first | decide +kernel | exact nomatch hf
  obtain ⟨hvalue, hgraph⟩ := (evaluate_independent ⟨.degrees, true, 64⟩ "abs(sin(90))".toList).2 (by decide)
  obtain ⟨points, hpoints, hconstant⟩ :=
    hgraph "90".toList "abs(sin(ans))".toList ⟨0.0, 1.0, 0.5⟩ 2 (by decide) (by decide +kernel)
  have hsample : Range.IsSample ⟨0.0, 1.0, 0.5⟩ 0.5 := ⟨2, 1, by decide +kernel, by decide, .inr (by decide +kernel)⟩
  refine ⟨(evaluate_independent ⟨.radians, true, 64⟩ "hypot(x,3)".toList).1 hcalls .degrees 2.5, hvalue 1.0 2.5, points,
    hpoints, hconstant.imp_right ?_⟩
  rintro ⟨y, hy, hall⟩
  exact ⟨y, hy, hall 0.5 hsample⟩

end Calculator
