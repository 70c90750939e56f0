import Calculator.Function.Basic
import Calculator.Function.Angle
import Calculator.Function.Counting

/-!
# Values of functions

* `NamedFunction.value?` : of one argument, in an angle mode.
* `NamedFunction.value₂?` : of two arguments.
* `roundAway` : to the nearest integer, ties away from zero.

Where a function is undefined, or takes another number of arguments, there is no value.
-/

namespace Calculator

set_option autoImplicit false

open Calculator.Number Calculator.Angle

/-- A half is added to the magnitude, which is then cut to an integer. -/
def roundAway (x : Float) : Except ArithmeticFault Float :=
  return withSignOf (Float.ofInt (← toFloor (x.abs + 0.5))) x

namespace NamedFunction

/-- A function of an angle in radians. -/
def ofAngle (f : NamedFunction) (angle : Float) : Except ArithmeticFault (Option Float) := do
  match f with
  | sin => if isNearZeroCrossing angle then return some 0.0 else return some (← sine angle)
  | cos => if isNearHalfPi angle then return some 0.0 else return some (← cosine angle)
  | tan =>
    if isNearZeroCrossing angle then return some 0.0
    else if isNearHalfPi angle then return none
    else return some (← tangent angle)
  | csc => if isNearZeroCrossing angle then return none else return some (← divide 1.0 (← sine angle))
  | sec => if isNearHalfPi angle then return none else return some (← divide 1.0 (← cosine angle))
  | cot =>
    if isNearZeroCrossing angle then return none
    else if isNearHalfPi angle then return some 0.0
    else return some (← divide 1.0 (← tangent angle))
  | _ => return none

/-- A function that gives an angle, in radians. -/
def toAngle (f : NamedFunction) (x : Float) : Except ArithmeticFault (Option Float) := do
  match f with
  | asin => if 1.0 < x.abs then return none else return some (← arcsine x)
  | acos => if 1.0 < x.abs then return none else return some (← arccosine x)
  | atan => return some (arctangent x)
  | acsc => if x.abs < 1.0 then return none else return some (← arcsine (← divide 1.0 x))
  | asec => if x.abs < 1.0 then return none else return some (← arccosine (← divide 1.0 x))
  | acot => return some (halfPi - arctangent x)
  | _ => return none

def compute (f : NamedFunction) (mode : AngleMode) (x : Float) : Except ArithmeticFault (Option Float) :=
  if f.isTrigonometric then f.ofAngle (if mode = .degrees then ofDegrees x else x)
  else if f.isInverse then do
    let angle? ← f.toAngle x
    return if mode = .degrees then angle?.map toDegrees else angle?
  else
    match f with
    | ln => if x ≤ 0.0 then return none else return some (← naturalLog x)
    | log => return some (← commonLog x)
    | abs => return some x.abs
    | floor => return some (Float.ofInt (← toFloor x))
    | ceil => return some (Float.ofInt (← toCeiling x))
    | round => return some (← roundAway x)
    | _ => return none

def compute₂ (f : NamedFunction) (x y : Float) : Except ArithmeticFault (Option Float) := do
  match f with
  | logb =>
    if x ≤ 0.0 || y ≤ 0.0 || y == 1.0 then return none
    else return some (← divide (← naturalLog x) (← naturalLog y))
  | root => return some (← power x (← divide 1.0 y))
  | mod => return some (← remainder x y)
  | hypot => return some (hypotenuse x y)
  | nPr => return some (← Counting.permutations x y)
  | nCr => return some (← Counting.combinations x y)
  | _ => return none

/-- The value at `x`; a fault leaves the function undefined there. -/
def value? (f : NamedFunction) (mode : AngleMode) (x : Float) : Option Float :=
  match f.compute mode x with
  | .ok r => r
  | .error _ => none

def value₂? (f : NamedFunction) (x y : Float) : Option Float :=
  match f.compute₂ x y with
  | .ok r => r
  | .error _ => none

end NamedFunction

end Calculator
