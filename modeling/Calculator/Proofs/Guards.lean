import Calculator.Proofs.Evaluation
import Calculator.Proofs.WellFormed

/-!
# Guarded evaluation

An evaluation takes some faults of the arithmetic for an undefined value, at each place others. Here it stops at every
fault that is not expected at its place, and at every operator and function for which there is no case. The trees of
texts never stop it, and give the values that they have.

* `Abort`, `Attempt` : why an evaluation stops, and its result.
* `Guard`, `guarded` : the faults expected at a place.
* `Expr.attempt` : the value at an `x`, evaluated with guards.
* `Meets` : a computation has no faults but those expected. The functions of one argument and the powers keep to their
  guards (`meets_compute`, `meets_power`).
* `exists_attempt` : a well-formed tree is evaluated to its end.
* `proper_tree_of_text` : so is the tree of every text, all of whose nodes are proper.
-/

namespace Calculator

set_option autoImplicit false

open Calculator.Number

/-! ## Evaluation with guards -/

inductive Abort where
  /-- A fault that is not expected where it happens. -/
  | unexpected (fault : ArithmeticFault)
  /-- An operator or a function for which there is no case. -/
  | noCase
  /-- An argument that is not there. -/
  | missing
  /-- A node of no kind. -/
  | hole
deriving DecidableEq, Repr

/-- The result of an evaluation with guards; `none` is undefined. -/
abbrev Attempt := Except Abort (Option Float)

/-- The faults that are taken for an undefined value. -/
abbrev Guard := ArithmeticFault → Bool

namespace Guard

def nothing : Guard := fun _ => false

def powerOfTen : Guard
  | .overflow => true
  | _ => false

def power : Guard
  | .domain | .overflow => true
  | _ => false

def call : Guard
  | .domain | .overflow | .zeroDivision => true
  | _ => false

def call₂ : Guard
  | .domain | .overflow | .zeroDivision | .negativeFactorial _ | .largeFactorial _ => true

end Guard

/-- A result, an expected fault being undefined. -/
def guarded (expects : Guard) : Except ArithmeticFault (Option Float) → Attempt
  | .ok v? => .ok v?
  | .error fault => if expects fault then .ok none else .error (.unexpected fault)

def squareRoot (x : Float) : Except ArithmeticFault Float := if x < 0.0 then .error .domain else .ok x.sqrt

namespace Operator

def attempt (x : Float) : Operator → Attempt
  | pi => .ok (some Angle.pi)
  | euler => .ok (some eulerNumber)
  | freeVariable => .ok (some x)
  | _ => .error .noCase

def attemptUnary (op : Operator) (v : Float) : Attempt :=
  match op with
  | negate => .ok (some (-v))
  | squareRoot => if v < 0.0 then .ok none else guarded .nothing do return some (← Calculator.squareRoot v)
  | scientific => guarded .powerOfTen do return some (← Number.power 10.0 v)
  | _ => .error .noCase

def attemptBinary (op : Operator) (u v : Float) : Attempt :=
  match op with
  | add => .ok (some (u + v))
  | subtract => .ok (some (u - v))
  | multiply => .ok (some (u * v))
  | divide => if v == 0.0 then .ok none else guarded .nothing do return some (← Number.divide u v)
  | power => guarded .power do return some (← Number.power u v)
  | _ => .error .noCase

end Operator

namespace NamedFunction

def hasCase (f : NamedFunction) : Bool :=
  f.isTrigonometric || f.isInverse ||
    match f with
    | ln | log | abs | floor | ceil | round => true
    | _ => false

def hasCase₂ : NamedFunction → Bool
  | logb | root | mod | hypot | nPr | nCr => true
  | _ => false

def attempt (f : NamedFunction) (mode : AngleMode) (x : Float) : Attempt :=
  if f.hasCase then guarded .call (f.compute mode x) else .error .noCase

def attempt₂ (f : NamedFunction) (x y : Float) : Attempt :=
  if f.hasCase₂ then guarded .call₂ (f.compute₂ x y) else .error .noCase

end NamedFunction

/-- The value of the tree at `x`; an undefined left operand leaves the right one out, but not the second argument. -/
def Expr.attempt (x : Float) (mode : AngleMode) : Expr → Attempt
  | number v => .ok (some v)
  | name _ => .ok (some x)
  | bare op => op.attempt x
  | unary op e => do (← attempt x mode e).elim (.ok none) op.attemptUnary
  | binary l op r => do
    (← attempt x mode l).elim (.ok none) fun u => do
      (← attempt x mode r).elim (.ok none) fun v => op.attemptBinary u v
  | call f e => do (← attempt x mode e).elim (.ok none) (f.attempt mode)
  | call₂ f a b => do
    let u? ← attempt x mode a
    let v? ← attempt x mode b
    u?.elim (.ok none) fun u => v?.elim (.ok none) fun v => f.attempt₂ u v
  | failure _ => .ok none
  | hole => .error .hole

/-! ## Expected faults -/

section Meets

variable {α β : Type} {expects : Guard} {fault : ArithmeticFault}

/-- The computation has no faults but those expected. -/
def Meets (expects : Guard) (r : Except ArithmeticFault α) : Prop := ∀ fault, r = .error fault → expects fault

theorem meets_ok (a : α) : Meets expects (.ok a) := fun _ h => nomatch h

theorem meets_error (h : expects fault) : Meets expects (.error fault : Except ArithmeticFault α) := by
  rintro _ ⟨⟩
  exact h

theorem Meets.bind {r : Except ArithmeticFault α} {f : α → Except ArithmeticFault β} (hr : Meets expects r)
    (hf : ∀ a, Meets expects (f a)) : Meets expects (r >>= f) := by
  intro fault h
  rcases bind_eq_error.1 h with h | ⟨a, -, h⟩
  · exact hr fault h
  · exact hf a fault h

theorem Meets.thenReturn {r : Except ArithmeticFault α} (hr : Meets expects r) (f : α → β) :
    Meets expects (do return f (← r)) :=
  hr.bind fun _ => meets_ok _

theorem Meets.ite {r s : Except ArithmeticFault α} {c : Prop} [Decidable c] (hr : Meets expects r)
    (hs : Meets expects s) : Meets expects (if c then r else s) := by
  split
  · exact hr
  · exact hs

theorem guarded_eq_ok {r : Except ArithmeticFault (Option Float)} (h : Meets expects r) :
    guarded expects r = .ok r.toOption.join := by
  cases r with
  | ok v? => rfl
  | error fault => exact if_pos (h fault rfl)

theorem guarded_some_eq_ok {r : Except ArithmeticFault Float} (h : Meets expects r) :
    guarded expects (do return some (← r)) = .ok r.toOption := by
  rw [guarded_eq_ok (h.thenReturn some)]
  cases r <;> rfl

end Meets

section Arithmetic

variable (x y : Float)

theorem meets_toInt (read : Bool → Nat → Int → Int) : Meets .call (toInt read x) := by
  unfold toInt
  split
  · exact meets_ok _
  · exact meets_error rfl
  · exact meets_error rfl

theorem meets_divide : Meets .call (divide x y) := .ite (meets_error rfl) (meets_ok _)

theorem meets_sine : Meets .call (sine x) := .ite (meets_error rfl) (meets_ok _)

theorem meets_cosine : Meets .call (cosine x) := .ite (meets_error rfl) (meets_ok _)

theorem meets_tangent : Meets .call (tangent x) := .ite (meets_error rfl) (meets_ok _)

theorem meets_arcsine : Meets .call (arcsine x) := .ite (meets_error rfl) (meets_ok _)

theorem meets_arccosine : Meets .call (arccosine x) := .ite (meets_error rfl) (meets_ok _)

theorem meets_zeroPower : Meets .power (zeroPower x y) :=
  .ite (meets_ok _) (.ite (meets_ok _) (.ite (meets_error rfl) (meets_ok _)))

theorem meets_power : Meets .power (power x y) := by
  refine .ite (meets_ok _) (.ite (meets_zeroPower x y) ?_)
  exact .ite (.ite (meets_error rfl) (.ite (meets_error rfl) (meets_ok _))) (meets_ok _)

theorem meets_power_ten : Meets .powerOfTen (power 10.0 x) := by
  intro fault h
  rw [Expr.power_ten x h]
  rfl

end Arithmetic

section Functions

variable (f : NamedFunction) (mode : AngleMode) (x : Float)

theorem meets_ofAngle : Meets .call (f.ofAngle x) := by
  have hnone : Meets .call (.ok none : Except ArithmeticFault (Option Float)) := meets_ok none
  have hzero : Meets .call (.ok (some 0.0) : Except ArithmeticFault (Option Float)) := meets_ok (some 0.0)
  have reciprocal {r : Except ArithmeticFault Float} (hr : Meets .call r) :
      Meets .call (do return some (← divide 1.0 (← r))) := hr.bind fun v => (meets_divide 1.0 v).thenReturn some
  cases f with
  | sin => exact .ite hzero ((meets_sine x).thenReturn some)
  | cos => exact .ite hzero ((meets_cosine x).thenReturn some)
  | tan => exact .ite hzero (.ite hnone ((meets_tangent x).thenReturn some))
  | csc => exact .ite hnone (reciprocal (meets_sine x))
  | sec => exact .ite hnone (reciprocal (meets_cosine x))
  | cot => exact .ite hnone (.ite hzero (reciprocal (meets_tangent x)))
  | _ => exact hnone

theorem meets_toAngle : Meets .call (f.toAngle x) := by
  have hnone : Meets .call (.ok none : Except ArithmeticFault (Option Float)) := meets_ok none
  cases f with
  | asin => exact .ite hnone ((meets_arcsine x).thenReturn some)
  | acos => exact .ite hnone ((meets_arccosine x).thenReturn some)
  | acsc => exact .ite hnone ((meets_divide 1.0 x).bind fun v => (meets_arcsine v).thenReturn some)
  | asec => exact .ite hnone ((meets_divide 1.0 x).bind fun v => (meets_arccosine v).thenReturn some)
  | _ => exact meets_ok _

theorem meets_compute : Meets .call (f.compute mode x) := by
  unfold NamedFunction.compute
  refine .ite (meets_ofAngle f _) (.ite ((meets_toAngle f x).thenReturn _) ?_)
  split
  · exact .ite (meets_ok _) (Meets.thenReturn (.ite (meets_error rfl) (meets_ok _)) some)
  · exact Meets.thenReturn (.ite (meets_error rfl) (meets_ok _)) some
  · exact meets_ok _
  · exact (meets_toInt x _).thenReturn _
  · exact (meets_toInt x _).thenReturn _
  · exact ((meets_toInt _ _).thenReturn _).thenReturn some
  · exact meets_ok _

theorem meets_compute₂ (y : Float) : Meets .call₂ (f.compute₂ x y) := fun fault _ => by cases fault <;> rfl

end Functions

/-! ## Well-formed trees -/

section Nodes

variable {x v u : Float} {mode : AngleMode} {op : Operator} {f : NamedFunction}

theorem applyUnary_scientific (v : Float) : applyUnary .scientific v = .ok (power 10.0 v).toOption := by
  have hfault (fault : ArithmeticFault) : power 10.0 v = .error fault → fault = .overflow := Expr.power_ten v
  unfold applyUnary
  generalize power 10.0 v = r at hfault ⊢
  cases r with
  | ok w => rfl
  | error fault =>
    obtain rfl := hfault fault rfl
    rfl

theorem attemptUnary_eq {e : Expr} (h : (Expr.unary op e).isProper) :
    ∃ v?, op.attemptUnary v = .ok v? ∧ applyUnary op v = .ok v? := by
  cases op with
  | negate => exact ⟨_, rfl, rfl⟩
  | squareRoot =>
    refine ⟨if v < 0.0 then none else some v.sqrt, ?_, rfl⟩
    unfold Operator.attemptUnary Calculator.squareRoot
    by_cases hv : v < 0.0
    · rw [if_pos hv, if_pos hv]
    · rw [if_neg hv, if_neg hv, if_neg hv]
      rfl
  | scientific => exact ⟨_, guarded_some_eq_ok (meets_power_ten v), applyUnary_scientific v⟩
  | _ => cases e <;> exact nomatch h

theorem attemptBinary_eq (h : op.isArithmetic || op == .power) : op.attemptBinary u v = .ok (combine op u v) := by
  cases op with
  | divide =>
    unfold Operator.attemptBinary combine Number.divide
    dsimp only
    split <;> rfl
  | power => exact guarded_some_eq_ok (meets_power u v)
  | add | subtract | multiply => rfl
  | _ => exact nomatch h

theorem hasCase_of_arity (h : f.arity = 1) : f.hasCase := by
  cases f <;> first | rfl | exact nomatch h

theorem hasCase₂_of_arity (h : f.arity = 2) : f.hasCase₂ := by
  cases f <;> first | rfl | exact nomatch h

theorem attempt_call_eq (h : f.arity = 1) : f.attempt mode v = .ok (f.value? mode v) := by
  rw [NamedFunction.attempt, if_pos (hasCase_of_arity h), guarded_eq_ok (meets_compute f mode v), NamedFunction.value?]
  cases f.compute mode v <;> rfl

theorem attempt_call₂_eq (h : f.arity = 2) : f.attempt₂ u v = .ok (f.value₂? u v) := by
  rw [NamedFunction.attempt₂, if_pos (hasCase₂_of_arity h), guarded_eq_ok (meets_compute₂ f u v), NamedFunction.value₂?]
  cases f.compute₂ u v <;> rfl

/-- A well-formed tree is evaluated to its end: no fault is unexpected, and for every operator and function there is a
case. -/
theorem exists_attempt {e : Expr} (h : e.wellFormed) :
    ∃ v?, e.attempt x mode = .ok v? ∧ e.evaluate x mode = .ok v? := by
  induction e with
  | number v => exact ⟨some v, rfl, rfl⟩
  | name t => exact ⟨some x, rfl, rfl⟩
  | bare op =>
    refine ⟨op.value? x, ?_, rfl⟩
    cases op <;> first | rfl | exact nomatch h
  | unary op e ih =>
    obtain ⟨hop, he⟩ := Bool.and_eq_true_iff.1 h
    obtain ⟨u?, hattempt, hvalue⟩ := ih he
    rw [Expr.attempt, Expr.evaluate_unary, hattempt, hvalue]
    cases u? with
    | none => exact ⟨none, rfl, rfl⟩
    | some u => exact attemptUnary_eq hop
  | binary l op r ihl ihr =>
    obtain ⟨hleft, hr⟩ := Bool.and_eq_true_iff.1 h
    obtain ⟨hop, hl⟩ := Bool.and_eq_true_iff.1 hleft
    obtain ⟨u?, hattempt, hvalue⟩ := ihl hl
    obtain ⟨w?, hattempt', hvalue'⟩ := ihr hr
    rw [Expr.attempt, Expr.evaluate_binary, hattempt, hvalue, hattempt', hvalue']
    cases u? with
    | none => exact ⟨none, rfl, rfl⟩
    | some u =>
      cases w? with
      | none => exact ⟨none, rfl, rfl⟩
      | some w => exact ⟨combine op u w, attemptBinary_eq hop, rfl⟩
  | call f e ih =>
    obtain ⟨hf, he⟩ := Bool.and_eq_true_iff.1 h
    obtain ⟨u?, hattempt, hvalue⟩ := ih he
    rw [Expr.attempt, Expr.evaluate_call, hattempt, hvalue]
    refine ⟨_, ?_, rfl⟩
    cases u? with
    | none => rfl
    | some u => exact attempt_call_eq (beq_iff_eq.1 hf)
  | call₂ f a b iha ihb =>
    obtain ⟨hleft, hb⟩ := Bool.and_eq_true_iff.1 h
    obtain ⟨hf, ha⟩ := Bool.and_eq_true_iff.1 hleft
    obtain ⟨u?, hattempt, hvalue⟩ := iha ha
    obtain ⟨w?, hattempt', hvalue'⟩ := ihb hb
    rw [Expr.attempt, Expr.evaluate_call₂, hattempt, hvalue, hattempt', hvalue']
    refine ⟨_, ?_, rfl⟩
    cases u? with
    | none => rfl
    | some u =>
      cases w? with
      | none => rfl
      | some w => exact attempt_call₂_eq (beq_iff_eq.1 hf)
  | failure k => exact ⟨none, rfl, rfl⟩
  | hole => exact nomatch h

end Nodes

/-! ## Trees of texts -/

/-- **The tree of a text is proper at every node, in arguments too, and its evaluation never comes to an operator or a
function for which there is no case.** -/
theorem proper_tree_of_text {strict : Bool} {limit : Int} {text : Text} {e : Expr}
    (h : treeOf strict limit text = .ok e) :
    e.forAll Expr.isProper ∧
      ∀ x mode, ∃ v?, e.attempt x mode = .ok v? ∧ e.evaluate x mode = .ok v? :=
  ⟨wellFormed_treeOf h, fun _ _ => exists_attempt (wellFormed_treeOf h)⟩

/-- Constants, signs, a power of ten, calls with one and with two arguments. -/
theorem proper_tree_of_mixed_text :
    ∃ e, treeOf true 2 "2sin(-π)^logb(√(x+e),E3)÷4".toList = .ok e ∧ e.intact ∧ e.forAll Expr.isProper ∧
      ∀ x mode, ∃ v?, e.attempt x mode = .ok v? ∧ e.evaluate x mode = .ok v? := by
  have hany : (treeOf true 2 "2sin(-π)^logb(√(x+e),E3)÷4".toList).toOption.any Expr.intact := by decide +kernel
  obtain ⟨e, he, hintact⟩ := exists_ok_of_any hany
  exact ⟨e, he, hintact, proper_tree_of_text he⟩

end Calculator
