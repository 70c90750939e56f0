import Calculator.Expr.Rendering
import Calculator.Proofs.TreeEquality
import Calculator.Proofs.WrittenNumber

/-!
# The texts of trees

* `Expr.render_eq_rendering` : the text that is written piece by piece is that of the plain recursion.
* `IsCode` : texts that tell what they stand for, whatever follows them.
* `isCode_memberText`, `isCode_number` and their likes : the fields of nodes are written in codes.
* `Expr.rendering_append_inj` : so are the trees in `x`.
* `Expr.rendering_determines_tree` : trees with the same text are equal.
-/

namespace Calculator

set_option autoImplicit false

open Calculator.Number
open Calculator.Text (quoted)

/-! ## Plain recursion -/

def Piece.rendering : Piece → Text
  | text t => t
  | tree e => e.rendering

theorem Expr.rendering_eq_flatMap_pieces (e : Expr) : e.rendering = e.pieces.flatMap Piece.rendering := by
  cases e <;> simp [Expr.rendering, Expr.pieces, Expr.kind, Expr.fields, Field.piece, Piece.rendering, Label.rendered,
    enclosed, List.intercalate]

theorem writePieces_eq (written : Text) (pieces : List Piece) :
    writePieces written pieces = written.reverse ++ pieces.flatMap Piece.rendering := by
  fun_induction writePieces written pieces with
  | case1 written => simp
  | case2 written t rest ih =>
    rw [ih]
    simp [Piece.rendering]
  | case3 written e rest ih =>
    rw [ih, List.flatMap_append, List.flatMap_cons, ← e.rendering_eq_flatMap_pieces]
    rfl

theorem Expr.render_eq_rendering (e : Expr) : e.render = e.rendering := by
  rw [render, writePieces_eq]
  simp [Piece.rendering]

/-! ## Codes -/

/-- A text of the family tells what it stands for, whatever follows it. -/
def IsCode {α : Type} (f : α → Text) : Prop := ∀ ⦃a b : α⦄ ⦃s t : Text⦄, f a ++ s = f b ++ t → a = b ∧ s = t

section Codes

variable {α : Type} {f : α → Text}

/-- A text ends where a character follows that is not in it. -/
theorem append_delimiter_inj {c : Char} {u v s t : Text} (hu : c ∉ u) (hv : c ∉ v) (h : u ++ c :: s = v ++ c :: t) :
    u = v ∧ s = t := by
  induction u generalizing v with
  | nil =>
    cases v with
    | nil => exact ⟨rfl, (List.cons.inj h).2⟩
    | cons d v => exact absurd (List.mem_cons.2 (.inl (List.cons.inj h).1)) hv
  | cons b u ih =>
    cases v with
    | nil => exact absurd (List.mem_cons.2 (.inl (List.cons.inj h).1.symm)) hu
    | cons d v =>
      obtain ⟨rfl, hrest⟩ := List.cons.inj h
      obtain ⟨rfl, hst⟩ := ih (List.not_mem_of_not_mem_cons hu) (List.not_mem_of_not_mem_cons hv) hrest
      exact ⟨rfl, hst⟩

theorem isCode_delimited {c : Char} (hfree : ∀ a, c ∉ f a) (hinj : ∀ a b, f a = f b → a = b) :
    IsCode fun a => f a ++ [c] := by
  intro a b s t h
  simp only [List.append_assoc, List.singleton_append] at h
  obtain ⟨hf, hst⟩ := append_delimiter_inj (hfree a) (hfree b) h
  exact ⟨hinj a b hf, hst⟩

/-- Where quoting escapes nothing, the text ends at the mark. -/
theorem isCode_quoted (hplain : ∀ a, quoted (f a) = '\'' :: f a ++ ['\'']) (hfree : ∀ a, '\'' ∉ f a)
    (hinj : ∀ a b, f a = f b → a = b) : IsCode fun a => quoted (f a) := by
  intro a b s t h
  simp only [hplain, List.cons_append] at h
  exact isCode_delimited hfree hinj (List.cons.inj h).2

/-- What separates two fields says nothing. -/
theorem IsCode.of_comma (hf : IsCode f) {a b : α} {s t : Text} (h : f a ++ (comma ++ s) = f b ++ (comma ++ t)) :
    a = b ∧ s = t :=
  (hf h).imp_right List.append_cancel_left

theorem isCode_kind : IsCode fun k : Kind => k.text ++ ['('] :=
  isCode_delimited (by intro k; cases k <;> decide) fun _ _ => Kind.eq_of_text_eq

theorem isCode_symbol : IsCode fun op : Operator => quoted op.symbol :=
  isCode_quoted (by intro op; cases op <;> decide +kernel) (by intro op; cases op <;> decide) fun a b h =>
    Option.some.inj ((Operator.ofSymbol?_symbol a).symm.trans (h ▸ Operator.ofSymbol?_symbol b))

theorem isCode_name : IsCode fun f : NamedFunction => quoted f.name :=
  isCode_quoted (by intro f; cases f <;> rfl) (by intro f; cases f <;> decide) fun a b h =>
    Option.some.inj ((NamedFunction.ofName?_name a).symm.trans (h ▸ NamedFunction.ofName?_name b))

theorem isCode_fault : IsCode fun k : ParsingFault => quoted k.text :=
  isCode_quoted (by intro k; cases k <;> rfl) (by intro k; cases k <;> decide) fun a b h =>
    Option.some.inj ((ParsingFault.ofText?_text a).symm.trans (h ▸ ParsingFault.ofText?_text b))

/-- A member of a family is told by its text; its label ends at the colon. -/
theorem isCode_memberText (family : Text) {label text : α → Text} (hlabel : ∀ a, ':' ∉ label a)
    (htext : IsCode fun a => quoted (text a)) : IsCode fun a => memberText family (label a) (text a) := by
  intro a b s t h
  simp only [memberText, List.append_assoc, List.cons_append, List.append_cancel_left_eq, List.cons.injEq, true_and] at h
  obtain ⟨-, hrest⟩ := append_delimiter_inj (hlabel a) (hlabel b) h
  obtain ⟨rfl, hend⟩ := htext (List.cons.inj hrest).2
  exact ⟨rfl, (List.cons.inj hend).2⟩

theorem isCode_operator : IsCode Operator.rendered :=
  isCode_memberText _ (by intro op; cases op <;> decide) isCode_symbol

theorem isCode_function : IsCode NamedFunction.rendered :=
  isCode_memberText _ (by intro f; cases f <;> decide) isCode_name

end Codes

/-! ## Numbers -/

section Numbers

open Json (readNumber readNumber_shortestText)

theorem endsNumber_closing (t : Text) : Json.EndsNumber (')' :: t) := by
  rintro c hc
  obtain rfl := Option.some.inj hc
  decide

theorem shortestText_nan : shortestText (0.0 / 0.0) = "nan".toList := by rfl

theorem shortestText_infinity : shortestText (1.0 / 0.0) = "inf".toList := by rfl

theorem shortestText_minus_infinity : shortestText (-(1.0 / 0.0)) = "-inf".toList := by rfl

/-- The doubles that are written in words. -/
inductive IsWord : Float → Prop where
  | nan : IsWord (0.0 / 0.0)
  | infinity : IsWord (1.0 / 0.0)
  | minusInfinity : IsWord (-(1.0 / 0.0))

variable {x y : Float} {s t : Text}

theorem readNumber_closing (x : Float) (t : Text) :
    readNumber (shortestText x ++ ')' :: t) = .ok (.float x, ')' :: t) ∨ IsWord x := by
  rcases Json.float_cases x with rfl | rfl | rfl | ⟨negative, m, q, hx⟩
  · exact .inr .nan
  · exact .inr .infinity
  · exact .inr .minusInfinity
  · exact .inl (readNumber_shortestText hx (endsNumber_closing t))

theorem IsWord.readNumber_ne (hx : IsWord x) (t : Text) (r : Json × Text) :
    readNumber (shortestText x ++ ')' :: t) ≠ .ok r := by
  cases hx with
  | nan => exact shortestText_nan ▸ nofun
  | infinity => exact shortestText_infinity ▸ nofun
  | minusInfinity => exact shortestText_minus_infinity ▸ nofun

/-- The words differ in their letters. -/
theorem IsWord.eq_of_text (hx : IsWord x) (hy : IsWord y) (h : shortestText x ++ ')' :: s = shortestText y ++ ')' :: t) :
    x = y := by
  cases hx <;> cases hy <;> first
    | rfl
    | simp [shortestText_nan, shortestText_infinity, shortestText_minus_infinity] at h

theorem isCode_number : IsCode fun x : Float => shortestText x ++ [')'] := by
  intro x y s t h
  simp only [List.append_assoc, List.singleton_append] at h
  have hxy : x = y := by
    rcases readNumber_closing x s with hx | hx <;> rcases readNumber_closing y t with hy | hy
    · rw [h, hy] at hx
      exact (Json.float.inj (Prod.mk.inj (Except.ok.inj hx)).1).symm
    · exact absurd (h ▸ hx) (hy.readNumber_ne t _)
    · exact absurd (h ▸ hy) (hx.readNumber_ne s _)
    · exact hx.eq_of_text hy h
  subst hxy
  exact ⟨rfl, (List.cons.inj (List.append_cancel_left h)).2⟩

end Numbers

/-! ## Trees -/

namespace Expr

/-- All names of the tree are that of the variable. -/
def univariate (e : Expr) : Bool := e.forAll fun n => match n with
  | name t => t = ['x']
  | _ => true

variable {a b : Expr} {s t : Text}

/-- Nodes with the same text are of one kind and have the same fields. -/
theorem enclosed_append_inj {k l : Kind} {fields others : List Text}
    (h : enclosed k fields ++ s = enclosed l others ++ t) :
    k = l ∧ comma.intercalate fields ++ ')' :: s = comma.intercalate others ++ ')' :: t := by
  refine isCode_kind ?_
  simpa only [enclosed, List.append_assoc, List.cons_append, List.nil_append] using h

theorem exists_enclosed (e : Expr) : ∃ fields, e.rendering = enclosed e.kind fields := by
  cases e <;> exact ⟨_, rfl⟩

theorem kind_eq_of_rendering (h : a.rendering ++ s = b.rendering ++ t) : a.kind = b.kind := by
  obtain ⟨fields, ha⟩ := a.exists_enclosed
  obtain ⟨others, hb⟩ := b.exists_enclosed
  rw [ha, hb] at h
  exact (enclosed_append_inj h).1

/-- The text of a tree ends where the tree ends, so it tells what the tree is. -/
theorem rendering_append_inj (ha : a.univariate) (hb : b.univariate) (h : a.rendering ++ s = b.rendering ++ t) :
    a = b ∧ s = t := by
  induction a generalizing b s t
  all_goals
    cases sameKind_of_kind_eq (kind_eq_of_rendering h)
    replace h := (enclosed_append_inj h).2
    simp only [List.intercalate_nil, List.intercalate_singleton, List.intercalate_cons_cons, List.append_assoc] at h
  case number.number =>
    obtain ⟨rfl, hend⟩ := isCode_number (by simpa only [List.append_assoc, List.singleton_append] using h)
    exact ⟨rfl, hend⟩
  case name.name =>
    obtain rfl := of_decide_eq_true ha
    obtain rfl := of_decide_eq_true hb
    exact ⟨rfl, (List.cons.inj (List.append_cancel_left h)).2⟩
  case bare.bare =>
    obtain ⟨rfl, hend⟩ := isCode_symbol h
    exact ⟨rfl, (List.cons.inj hend).2⟩
  case unary.unary ih _ b =>
    obtain ⟨rfl, he⟩ := isCode_operator.of_comma h
    obtain ⟨rfl, hend⟩ := ih (b := b) ha hb he
    exact ⟨rfl, (List.cons.inj hend).2⟩
  case binary.binary ihl ihr _ _ _ =>
    obtain ⟨hal, har⟩ := Bool.and_eq_true_iff.1 ha
    obtain ⟨hbl, hbr⟩ := Bool.and_eq_true_iff.1 hb
    obtain ⟨rfl, hop⟩ := ihl hal hbl h
    obtain ⟨rfl, hr⟩ := isCode_operator.of_comma (List.append_cancel_left hop)
    obtain ⟨rfl, hend⟩ := ihr har hbr hr
    exact ⟨rfl, (List.cons.inj hend).2⟩
  case call.call ih _ b =>
    obtain ⟨rfl, he⟩ := isCode_function.of_comma h
    obtain ⟨rfl, hend⟩ := ih (b := b) ha hb he
    exact ⟨rfl, (List.cons.inj hend).2⟩
  case call₂.call₂ ih₁ ih₂ _ _ _ =>
    obtain ⟨ha₁, ha₂⟩ := Bool.and_eq_true_iff.1 ha
    obtain ⟨hb₁, hb₂⟩ := Bool.and_eq_true_iff.1 hb
    obtain ⟨rfl, h₁⟩ := isCode_function.of_comma h
    obtain ⟨rfl, h₂⟩ := ih₁ ha₁ hb₁ h₁
    obtain ⟨rfl, hend⟩ := ih₂ ha₂ hb₂ (List.append_cancel_left h₂)
    exact ⟨rfl, (List.cons.inj hend).2⟩
  case failure.failure =>
    obtain ⟨rfl, hend⟩ := isCode_fault h
    exact ⟨rfl, (List.cons.inj hend).2⟩
  case hole.hole => exact ⟨rfl, (List.cons.inj h).2⟩

/-- **The text of a tree determines the tree**: it is that of the plain recursion, and trees in `x` without undefined
numbers are equal where they have the same text. -/
theorem rendering_determines_tree :
    (∀ e : Expr, e.render = e.rendering) ∧
      ∀ a b : Expr, a.numeric → b.numeric → a.univariate → b.univariate → a.render = b.render → a.equals b := by
  refine ⟨render_eq_rendering, fun a b ha _ hax hbx h => ?_⟩
  rw [render_eq_rendering, render_eq_rendering] at h
  obtain ⟨rfl, -⟩ := rendering_append_inj (s := []) (t := []) hax hbx (by rw [h])
  exact equals_iff_alike.2 (.refl ha)

/-- A tree with a failure, and the tree its text stands for. -/
theorem rendering_determines_tree_of_failure :
    (binary (unary .negate (name ['x'])) .power (failure .evaluationError)).render =
        ("BinaryOperation(UnaryOperation(<Operator.UNARY_MINUS: '_'>, Variable('x')), <Operator.EXPONENT: '^'>, " ++
          "ErrorNode('evaluation-error'))").toList ∧
      (binary (number 0.5) .power (failure .evaluationError)).equals
        (binary (number 0.5) .power (failure .evaluationError)) :=
  ⟨(rendering_determines_tree.1 _).trans (by decide +kernel), rendering_determines_tree.2 _ _ (by decide +kernel)
    (by decide +kernel) (by decide +kernel) (by decide +kernel) rfl⟩

end Expr

end Calculator
