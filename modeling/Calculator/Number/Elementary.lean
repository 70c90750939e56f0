import Calculator.Number.Remainder

/-!
# Elementary functions and their domains

Each function gives a double or says why there is none: its argument lies outside its domain, the result is too large,
a divisor is zero.

* `ArithmeticFault` : the reasons.
* `toFloor`, `toCeiling`, `toNearest`, `toWhole` : the integers next to a double.
* `divide`, `remainder`, `modulo`, `power`, `naturalLog`, `commonLog`.
* `sine`, `cosine`, `tangent`, `arcsine`, `arccosine`, `arctangent`.

At zero, powers and functions of angles have exact values, which are given here.
-/

namespace Calculator.Number

set_option autoImplicit false

/-- Why an operation has no value. -/
inductive ArithmeticFault where
  /-- The argument lies outside the domain. -/
  | domain
  /-- The result is too large. -/
  | overflow
  | zeroDivision
  /-- The factorial of a negative number. -/
  | negativeFactorial (n : Int)
  /-- A factorial beyond the largest double. -/
  | largeFactorial (n : Int)
deriving DecidableEq, Repr

/-! ## Integers -/

/-- An integer read off the parts of a finite double. -/
def toInt (read : Bool → Nat → Int → Int) (x : Float) : Except ArithmeticFault Int :=
  match Binary.ofFloat x with
  | .finite negative m q => .ok (read negative m q)
  | .infinite _ => .error .overflow
  | .nan => .error .domain

def toFloor (x : Float) : Except ArithmeticFault Int := toInt floorInt x

def toCeiling (x : Float) : Except ArithmeticFault Int := toInt ceilInt x

/-- The integer nearest to `x`, a tie going to the even one. -/
def toNearest (x : Float) : Except ArithmeticFault Int := toInt nearestInt x

def toWhole (x : Float) : Except ArithmeticFault Int := toInt truncInt x

/-! ## Quotients and powers -/

def divide (x y : Float) : Except ArithmeticFault Float :=
  if y == 0.0 then .error .zeroDivision else .ok (x / y)

/-- The remainder with the sign of `x`. -/
def remainder (x y : Float) : Except ArithmeticFault Float :=
  let r := truncRem x y
  if r.isNaN && !x.isNaN && !y.isNaN then .error .domain else .ok r

/-- The remainder with the sign of `y`. -/
def modulo (x y : Float) : Except ArithmeticFault Float :=
  if y == 0.0 then .error .zeroDivision else .ok (floorRem x y)

def isWhole (x : Float) : Bool :=
  match Binary.ofFloat x with
  | .finite _ m q => numerator m q % denominator q == 0
  | _ => false

def isOdd (x : Float) : Bool :=
  match Binary.ofFloat x with
  | .finite _ m q => numerator m q % denominator q == 0 && numerator m q / denominator q % 2 == 1
  | _ => false

/-- The zero `x` to a power `y` other than zero; odd powers keep its sign, and there are no negative powers. -/
def zeroPower (x y : Float) : Except ArithmeticFault Float :=
  if y.isNaN then .ok y
  else if 0.0 < y then .ok (if isOdd y then x else 0.0)
  else if y.isFinite then .error .domain
  else .ok (1.0 / 0.0)

/-- `x` to the power `y`: of finite numbers, zero has no negative powers and a negative number only whole ones, and a
power that is not finite is too large. -/
def power (x y : Float) : Except ArithmeticFault Float :=
  if y == 0.0 then .ok 1.0
  else if x == 0.0 then zeroPower x y
  else
    let r := Float.pow x y
    if x.isFinite && y.isFinite then
      if x < 0.0 && !isWhole y then .error .domain
      else if r.isInf then .error .overflow
      else .ok r
    else .ok r

def naturalLog (x : Float) : Except ArithmeticFault Float :=
  if x ≤ 0.0 then .error .domain else .ok (Float.log x)

def commonLog (x : Float) : Except ArithmeticFault Float :=
  if x ≤ 0.0 then .error .domain else .ok (Float.log10 x)

/-! ## Angles -/

def sine (x : Float) : Except ArithmeticFault Float :=
  if x.isInf then .error .domain else .ok (Float.sin x)

def cosine (x : Float) : Except ArithmeticFault Float :=
  if x.isInf then .error .domain else .ok (if x == 0.0 then 1.0 else Float.cos x)

def tangent (x : Float) : Except ArithmeticFault Float :=
  if x.isInf then .error .domain else .ok (Float.tan x)

def arcsine (x : Float) : Except ArithmeticFault Float :=
  if 1.0 < x.abs then .error .domain else .ok (if x == 0.0 then x else Float.asin x)

/-- At zero it is half of π. -/
def arccosine (x : Float) : Except ArithmeticFault Float :=
  if 1.0 < x.abs then .error .domain else .ok (if x == 0.0 then 1.5707963267948966 else Float.acos x)

def arctangent (x : Float) : Float := if x == 0.0 then x else Float.atan x

end Calculator.Number
