import Calculator.Expr.Basic
import Calculator.Function.Value

/-!
# The value of an expression

* `Outcome` : a value, undefined, or a fault.
* `applyUnary`, `combine` : what an operator makes of values.
* `Expr.evaluate` : the value at an `x`. The left operands of a chain are followed in a loop, the links of the chain
  being kept until the value at its end is known; the first undefined link ends the chain.
* `Expr.value` : the same by plain recursion, every operand being evaluated.
-/

namespace Calculator

set_option autoImplicit false

open Calculator.Number (ArithmeticFault power)

/-- Why a tree cannot be evaluated. -/
inductive EvaluationFault where
  | arithmetic (fault : ArithmeticFault)
  /-- The tree has a node of no kind. -/
  | hole
deriving DecidableEq, Repr

/-- The result of an evaluation; `none` is undefined. -/
abbrev Outcome := Except EvaluationFault (Option Float)

def eulerNumber : Float := 2.718281828459045

def Operator.value? (x : Float) : Operator → Option Float
  | .pi => some Angle.pi
  | .euler => some eulerNumber
  | .freeVariable => some x
  | _ => none

def applyUnary (op : Operator) (v : Float) : Outcome :=
  match op with
  | .negate => .ok (some (-v))
  | .squareRoot => .ok (if v < 0.0 then none else some v.sqrt)
  | .scientific =>
    match power 10.0 v with
    | .ok r => .ok (some r)
    | .error .overflow => .ok none
    | .error fault => .error (.arithmetic fault)
  | _ => .ok none

def combine (op : Operator) (u v : Float) : Option Float :=
  match op with
  | .add => some (u + v)
  | .subtract => some (u - v)
  | .multiply => some (u * v)
  | .divide => if v == 0.0 then none else some (u / v)
  | .power => (power u v).toOption
  | _ => none

def combine? (op : Operator) (u? v? : Option Float) : Option Float := do combine op (← u?) (← v?)

/-- An operator that waits for its left operand; its right one is evaluated when it is needed. -/
structure Link where
  op : Operator
  right : Unit → Outcome

/-- Carries a value along the links of a chain. -/
def follow : Option Float → List Link → Outcome
  | v?, [] => .ok v?
  | none, _ :: _ => .ok none
  | some v, link :: links => do
    let w? ← link.right ()
    follow (combine? link.op (some v) w?) links

namespace Expr

/-- The value of a chain that begins with the tree and goes on with the links. -/
def evaluateOnto (x : Float) (mode : AngleMode) : Expr → List Link → Outcome
  | binary l op r, links => evaluateOnto x mode l (⟨op, fun _ => evaluateOnto x mode r []⟩ :: links)
  | number v, links => follow (some v) links
  | name _, links => follow (some x) links
  | bare op, links => follow (op.value? x) links
  | unary op e, links => do
    match ← evaluateOnto x mode e [] with
    | none => follow none links
    | some v => follow (← applyUnary op v) links
  | call f e, links => do
    let v? ← evaluateOnto x mode e []
    follow (v?.bind (f.value? mode)) links
  | call₂ f a b, links => do
    let u? ← evaluateOnto x mode a []
    let v? ← evaluateOnto x mode b []
    follow (do f.value₂? (← u?) (← v?)) links
  | failure _, links => follow none links
  | hole, _ => .error .hole

def evaluate (e : Expr) (x : Float) (mode : AngleMode) : Outcome := evaluateOnto x mode e []

/-- The value of the tree at `x`, all operands being evaluated from left to right. -/
def value (x : Float) (mode : AngleMode) : Expr → Outcome
  | number v => .ok (some v)
  | name _ => .ok (some x)
  | bare op => .ok (op.value? x)
  | unary op e => do
    match ← value x mode e with
    | none => return none
    | some v => applyUnary op v
  | binary l op r => do
    let u? ← value x mode l
    let v? ← value x mode r
    return combine? op u? v?
  | call f e => do
    let v? ← value x mode e
    return v?.bind (f.value? mode)
  | call₂ f a b => do
    let u? ← value x mode a
    let v? ← value x mode b
    return do f.value₂? (← u?) (← v?)
  | failure _ => .ok none
  | hole => .error .hole

end Expr

end Calculator
