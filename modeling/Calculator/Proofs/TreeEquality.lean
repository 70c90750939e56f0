import Calculator.Expr.Equality
import Calculator.Proofs.Grammar
import Calculator.Proofs.SignOfZero

/-!
# Equality of trees

Trees are compared by a list of pairs, and hashed by a flat sequence of labels. Both mean the same: equal nodes in the
same places.

* `Expr.SameKind` : nodes of one kind.
* `Expr.Alike` : trees with the same nodes in the same places and equal numbers.
* `Expr.equals_iff_alike` : these are the trees that the comparison takes for equal.
* `Expr.alike_of_pairwiseEqual`, `Expr.equals_iff_pairwiseEqual` : and those with the same labels; what stands behind
  the labels of a tree is no part of them.
* `Expr.Alike.refl`, `Expr.Alike.symm`, `Expr.Alike.trans` : an equivalence, but for what is no number.
* `Expr.equality_of_trees` : all of this.
-/

namespace Calculator

set_option autoImplicit false

namespace Expr

/-! ## Kinds -/

/-- Nodes of one kind, whatever their fields. -/
inductive SameKind : Expr → Expr → Prop where
  | number (u v : Float) : SameKind (number u) (number v)
  | name (s t : Text) : SameKind (name s) (name t)
  | bare (o p : Operator) : SameKind (bare o) (bare p)
  | unary (o p : Operator) (a b : Expr) : SameKind (unary o a) (unary p b)
  | binary (o p : Operator) (a b c d : Expr) : SameKind (binary a o b) (binary c p d)
  | call (f g : NamedFunction) (a b : Expr) : SameKind (call f a) (call g b)
  | call₂ (f g : NamedFunction) (a b c d : Expr) : SameKind (call₂ f a b) (call₂ g c d)
  | failure (j k : ParsingFault) : SameKind (failure j) (failure k)
  | hole : SameKind hole hole

theorem sameKind_of_kind_eq {a b : Expr} (h : a.kind = b.kind) : SameKind a b := by
  cases a <;> cases b <;> first
    | constructor
    | cases h

/-! ## Alike trees -/

/-- The trees have the same nodes in the same places, and equal numbers. -/
inductive Alike : Expr → Expr → Prop where
  | number {u v : Float} (h : u == v) : Alike (number u) (number v)
  | name (t : Text) : Alike (name t) (name t)
  | bare (op : Operator) : Alike (bare op) (bare op)
  | unary (op : Operator) {a b : Expr} (h : Alike a b) : Alike (unary op a) (unary op b)
  | binary (op : Operator) {a b c d : Expr} (hl : Alike a c) (hr : Alike b d) : Alike (binary a op b) (binary c op d)
  | call (f : NamedFunction) {a b : Expr} (h : Alike a b) : Alike (call f a) (call f b)
  | call₂ (f : NamedFunction) {a b c d : Expr} (h₁ : Alike a c) (h₂ : Alike b d) : Alike (call₂ f a b) (call₂ f c d)
  | failure (k : ParsingFault) : Alike (failure k) (failure k)
  | hole : Alike hole hole

/-- No number of the tree is undefined. -/
def numeric (e : Expr) : Bool := e.forAll fun n => match n with
  | number v => !v.isNaN
  | _ => true

variable {a b c : Expr}

theorem Alike.symm (h : Alike a b) : Alike b a := by
  induction h with
  | number h => exact .number (float_beq_comm .. ▸ h)
  | name t => exact .name t
  | bare op => exact .bare op
  | unary op _ ih => exact .unary op ih
  | binary op _ _ ihl ihr => exact .binary op ihl ihr
  | call f _ ih => exact .call f ih
  | call₂ f _ _ ih₁ ih₂ => exact .call₂ f ih₁ ih₂
  | failure k => exact .failure k
  | hole => exact .hole

theorem Alike.trans (h : Alike a b) (h' : Alike b c) : Alike a c := by
  induction h generalizing c with
  | number h =>
    cases h' with
    | number h' => exact .number (float_beq_trans h h')
  | unary op _ ih =>
    cases h' with
    | unary _ h' => exact .unary op (ih h')
  | binary op _ _ ihl ihr =>
    cases h' with
    | binary _ hl' hr' => exact .binary op (ihl hl') (ihr hr')
  | call f _ ih =>
    cases h' with
    | call _ h' => exact .call f (ih h')
  | call₂ f _ _ ih₁ ih₂ =>
    cases h' with
    | call₂ _ h₁' h₂' => exact .call₂ f (ih₁ h₁') (ih₂ h₂')
  | name | bare | failure | hole => exact h'

theorem Alike.refl (h : a.numeric) : Alike a a := by
  induction a with
  | number v =>
    have hv : (!v.isNaN) = true := h
    rw [Bool.not_eq_true', Bool.eq_false_iff] at hv
    exact .number ((float_beq_self v).resolve_right hv)
  | name t => exact .name t
  | bare op => exact .bare op
  | unary op e ih => exact .unary op (ih h)
  | binary l op r ihl ihr =>
    obtain ⟨hl, hr⟩ := Bool.and_eq_true_iff.1 h
    exact .binary op (ihl hl) (ihr hr)
  | call f e ih => exact .call f (ih h)
  | call₂ f a b iha ihb =>
    obtain ⟨ha, hb⟩ := Bool.and_eq_true_iff.1 h
    exact .call₂ f (iha ha) (ihb hb)
  | failure k => exact .failure k
  | hole => exact .hole

/-! ## The comparison -/

section Pairs

variable {as bs : List Field} {pairs : List (Expr × Expr)}

theorem subtreePairs?_nil_eq_some : subtreePairs? [] [] = some pairs ↔ [] = pairs := Option.some_inj

theorem subtreePairs?_label_eq_some {l m : Label} : subtreePairs? (.label l :: as) (.label m :: bs) = some pairs ↔
    l.equals m ∧ subtreePairs? as bs = some pairs := by
  rw [subtreePairs?]
  exact Option.ite_none_right_eq_some

theorem subtreePairs?_tree_eq_some : subtreePairs? (.tree a :: as) (.tree b :: bs) = some pairs ↔
    ∃ rest, subtreePairs? as bs = some rest ∧ (a, b) :: rest = pairs := by
  rw [subtreePairs?, Option.map_eq_some_iff]

theorem exists_subpairs? (h : Alike a b) : ∃ pairs, subpairs? a b = some pairs ∧ ∀ p ∈ pairs, Alike p.1 p.2 := by
  cases h <;> simp_all [subpairs?, kind, fields, subtreePairs?, Label.equals, or_imp]

theorem alike_of_subpairs? (h : subpairs? a b = some pairs) (hall : ∀ p ∈ pairs, Alike p.1 p.2) : Alike a b := by
  unfold subpairs? at h
  split_ifs at h with hkind
  cases sameKind_of_kind_eq hkind <;> simp only [fields, subtreePairs?_nil_eq_some, subtreePairs?_label_eq_some,
    subtreePairs?_tree_eq_some, Label.equals, decide_eq_true_eq] at h
  case number u v => exact .number h.1
  case name s t =>
    obtain ⟨rfl, -⟩ := h
    exact .name s
  case bare o p =>
    obtain ⟨rfl, -⟩ := h
    exact .bare o
  case unary o p a b =>
    obtain ⟨rfl, _, rfl, rfl⟩ := h
    exact .unary o (hall (a, b) (by simp))
  case binary o p a b c d =>
    obtain ⟨_, ⟨rfl, _, rfl, rfl⟩, rfl⟩ := h
    exact .binary o (hall (a, c) (by simp)) (hall (b, d) (by simp))
  case call f g a b =>
    obtain ⟨rfl, _, rfl, rfl⟩ := h
    exact .call f (hall (a, b) (by simp))
  case call₂ f g a b c d =>
    obtain ⟨rfl, _, ⟨_, rfl, rfl⟩, rfl⟩ := h
    exact .call₂ f (hall (a, c) (by simp)) (hall (b, d) (by simp))
  case failure j k =>
    obtain ⟨rfl, -⟩ := h
    exact .failure j
  case hole => exact .hole

end Pairs

/-- All pairs are equal if all are alike, in whatever order they are compared. -/
theorem allEqual_iff {pairs : List (Expr × Expr)} : allEqual pairs ↔ ∀ p ∈ pairs, Alike p.1 p.2 := by
  fun_induction allEqual pairs with
  | case1 => simp
  | case2 a b rest pairs h ih =>
    rw [ih, List.forall_mem_append, List.forall_mem_cons]
    simp only [List.mem_reverse]
    refine and_congr_left fun _ => ⟨alike_of_subpairs? h, fun halike => ?_⟩
    obtain ⟨pairs', h', hall⟩ := exists_subpairs? halike
    obtain rfl := Option.some.inj (h.symm.trans h')
    exact hall
  | case3 a b rest h =>
    refine iff_of_false Bool.false_ne_true fun hall => ?_
    obtain ⟨pairs, h', -⟩ := exists_subpairs? (hall _ (List.mem_cons_self ..))
    exact nomatch h.symm.trans h'

theorem equals_iff_alike : a.equals b ↔ Alike a b := by
  rw [equals, allEqual_iff, List.forall_mem_singleton]

/-! ## Labels -/

section Labels

variable {s t : List Label}

/-- The sequences are equally long and their labels equal in pairs. -/
def PairwiseEqual (s t : List Label) : Prop := List.Forall₂ (fun l m => l.equals m) s t

theorem pairwiseEqual_cons {l m : Label} : PairwiseEqual (l :: s) (m :: t) ↔ l.equals m ∧ PairwiseEqual s t :=
  List.forall₂_cons

theorem sameLabels_iff : sameLabels s t ↔ PairwiseEqual s t := by
  fun_induction sameLabels s t with
  | case1 => exact iff_of_true rfl .nil
  | case2 l s m t ih => rw [Bool.and_eq_true, ih, pairwiseEqual_cons]
  | case3 s t hnil hcons =>
    refine iff_of_false Bool.false_ne_true fun h => ?_
    cases h with
    | nil => exact hnil rfl rfl
    | cons => exact hcons _ _ _ _ rfl rfl

theorem collectLabels_nil : collectLabels [] = [] := by rw [collectLabels]

theorem collectLabels_label (l : Label) (rest : List Field) :
    collectLabels (.label l :: rest) = l :: collectLabels rest := by
  rw [collectLabels]

theorem collectLabels_append (as bs : List Field) :
    collectLabels (as ++ bs) = collectLabels as ++ collectLabels bs := by
  fun_induction collectLabels as with
  | case1 => rfl
  | case2 l rest ih => rw [List.cons_append, collectLabels, ih, List.cons_append]
  | case3 e rest ih => rw [List.cons_append, collectLabels, ← List.append_assoc, ih, List.cons_append]

theorem collectLabels_tree (e : Expr) (rest : List Field) :
    collectLabels (.tree e :: rest) = e.labels ++ collectLabels rest :=
  collectLabels_append [.tree e] rest

theorem labels_eq (e : Expr) : e.labels = .text e.kind.text :: collectLabels e.fields := by
  rw [labels, collectLabels, List.append_nil]

theorem pairwiseEqual_labels_iff : PairwiseEqual (a.labels ++ s) (b.labels ++ t) ↔
    a.kind = b.kind ∧ PairwiseEqual (collectLabels a.fields ++ s) (collectLabels b.fields ++ t) := by
  rw [labels_eq, labels_eq, List.cons_append, List.cons_append, pairwiseEqual_cons]
  refine and_congr_left fun _ => ?_
  rw [Label.equals, decide_eq_true_iff]
  exact ⟨Kind.eq_of_text_eq, congrArg Kind.text⟩

/-- The labels of a tree end where the tree ends, so they tell what the tree is. -/
theorem alike_of_pairwiseEqual (h : PairwiseEqual (a.labels ++ s) (b.labels ++ t)) : Alike a b ∧ PairwiseEqual s t := by
  induction a generalizing b s t
  all_goals
    replace h := pairwiseEqual_labels_iff.1 h
    obtain ⟨hkind, h⟩ := h
    cases sameKind_of_kind_eq hkind
    simp only [fields, collectLabels_nil, collectLabels_label, collectLabels_tree, List.cons_append, List.nil_append,
      List.append_nil, List.append_assoc, pairwiseEqual_cons, Label.equals, decide_eq_true_eq] at h
  case number.number u v => exact ⟨.number h.1, h.2⟩
  case name.name r _ =>
    obtain ⟨rfl, h⟩ := h
    exact ⟨.name r, h⟩
  case bare.bare o _ =>
    obtain ⟨rfl, h⟩ := h
    exact ⟨.bare o, h⟩
  case unary.unary o a ih _ b =>
    obtain ⟨rfl, h⟩ := h
    obtain ⟨ha, h⟩ := ih h
    exact ⟨.unary o ha, h⟩
  case binary.binary a o b iha ihb _ c d =>
    obtain ⟨ha, hrest⟩ := iha h
    rw [pairwiseEqual_cons, Label.equals, decide_eq_true_iff] at hrest
    obtain ⟨rfl, hrest⟩ := hrest
    obtain ⟨hb, hrest⟩ := ihb hrest
    exact ⟨.binary o ha hb, hrest⟩
  case call.call f a ih _ b =>
    obtain ⟨rfl, h⟩ := h
    obtain ⟨ha, h⟩ := ih h
    exact ⟨.call f ha, h⟩
  case call₂.call₂ f a b iha ihb _ c d =>
    obtain ⟨rfl, h⟩ := h
    obtain ⟨ha, h⟩ := iha h
    obtain ⟨hb, h⟩ := ihb h
    exact ⟨.call₂ f ha hb, h⟩
  case failure.failure k _ =>
    obtain ⟨rfl, h⟩ := h
    exact ⟨.failure k, h⟩
  case hole.hole => exact ⟨.hole, h⟩

theorem pairwiseEqual_of_alike (h : Alike a b) (hs : PairwiseEqual s t) :
    PairwiseEqual (a.labels ++ s) (b.labels ++ t) := by
  induction h generalizing s t
  all_goals
    refine pairwiseEqual_labels_iff.2 ⟨rfl, ?_⟩
    simp only [fields, collectLabels_nil, collectLabels_label, collectLabels_tree, List.cons_append, List.nil_append,
      List.append_nil, List.append_assoc, pairwiseEqual_cons, Label.equals, decide_true, true_and]
  case number h => exact ⟨h, hs⟩
  case unary ih | call ih => exact ih hs
  case binary o _ _ _ _ _ _ ihl ihr => exact ihl (pairwiseEqual_cons.2 ⟨decide_eq_true rfl, ihr hs⟩)
  case call₂ ih₁ ih₂ => exact ih₁ (ih₂ hs)
  all_goals exact hs

end Labels

theorem equals_iff_pairwiseEqual : a.equals b ↔ PairwiseEqual a.labels b.labels := by
  rw [equals_iff_alike, ← a.labels.append_nil, ← b.labels.append_nil]
  exact ⟨fun h => pairwiseEqual_of_alike h .nil, fun h => (alike_of_pairwiseEqual h).1⟩

/-- **Equality of trees** means the same nodes in the same places and equal numbers, or labels that are equal in pairs; so
a hash that does not tell such labels apart does not tell equal trees apart. Where all numbers are numbers, equality is an
equivalence. -/
theorem equality_of_trees :
    (∀ a b : Expr, a.equals b ↔ Alike a b) ∧ (∀ a b : Expr, a.equals b ↔ PairwiseEqual a.labels b.labels) ∧
      (∀ hash : List Label → Int, (∀ s t, sameLabels s t → hash s = hash t) →
        ∀ a b : Expr, a.equals b → hash a.labels = hash b.labels) ∧
      Equivalence fun a b : {e : Expr // e.numeric} => a.1.equals b.1 := by
  refine ⟨fun a b => equals_iff_alike, fun a b => equals_iff_pairwiseEqual, fun hash hhash a b h => ?_, ?_, ?_, ?_⟩
  · exact hhash _ _ (sameLabels_iff.2 (equals_iff_pairwiseEqual.1 h))
  · exact fun a => equals_iff_alike.2 (.refl a.2)
  · exact fun h => equals_iff_alike.2 (equals_iff_alike.1 h).symm
  · exact fun h h' => equals_iff_alike.2 ((equals_iff_alike.1 h).trans (equals_iff_alike.1 h'))

/-- The two zeros are one number. -/
theorem equality_of_trees_of_zeros :
    (binary (number 0.0) .add (number 1.0)).equals (binary (number (-0.0)) .add (number 1.0)) ∧
      PairwiseEqual (number 0.0).labels (number (-0.0)).labels := by
  refine ⟨(equality_of_trees.1 _ _).2 ?_, (equality_of_trees.2.1 _ _).1 ?_⟩
  · exact .binary .add (.number (by decide +kernel)) (.number (by decide +kernel))
  · exact equals_iff_alike.2 (.number (by decide +kernel))

end Expr

end Calculator
