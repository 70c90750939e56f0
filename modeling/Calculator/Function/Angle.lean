import Calculator.Number.Elementary
import Calculator.Text.Basic

/-!
# Angles

* `AngleMode` : the unit of angles.
* `isNearMultiple` : an angle is a multiple of a period, but for an offset and a small tolerance.
* `isNearZeroCrossing` : multiples of π, where sine and tangent vanish, cosecant and cotangent are undefined.
* `isNearHalfPi` : odd multiples of π/2, where cosine and cotangent vanish, tangent and secant are undefined.
-/

namespace Calculator

set_option autoImplicit false

open Calculator.Number (ArithmeticFault modulo floorRem)

inductive AngleMode where
  | radians
  | degrees
deriving DecidableEq, Repr, Inhabited

def AngleMode.name : AngleMode → Text
  | radians => "radians".toList
  | degrees => "degrees".toList

namespace Angle

/-- The double nearest to π. -/
def pi : Float := 3.141592653589793

def halfPi : Float := pi / 2.0

/-- Angles this close to a zero or a pole count as lying there. -/
def tolerance : Float := 1e-10

def ofDegrees (x : Float) : Float := x * (pi / 180.0)

def toDegrees (x : Float) : Float := x * (180.0 / pi)

/-- A remainder close to either end of the period. -/
def isNearEnd (r period : Float) : Bool := r < tolerance || period - r < tolerance

/-- The angle is close to `offset + k * period` for an integer `k`. -/
def isNearMultiple (angle period offset : Float) : Except ArithmeticFault Bool :=
  return isNearEnd (← modulo (angle - offset) period) period

def isNearZeroCrossing (angle : Float) : Bool := isNearEnd (floorRem (angle - 0.0) pi) pi

def isNearHalfPi (angle : Float) : Bool := isNearEnd (floorRem (angle - halfPi) pi) pi

theorem isNearMultiple_pi (angle offset : Float) :
    isNearMultiple angle pi offset = .ok (isNearEnd (floorRem (angle - offset) pi) pi) := by
  have h : (pi == 0.0) = false := by decide +kernel
  simp only [isNearMultiple, modulo, h, Bool.false_eq_true, ↓reduceIte]
  rfl

end Angle

end Calculator
