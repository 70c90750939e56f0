import Calculator.Number.Rounding

/-!
# Binary floating point, exactly

* `Binary` : a double taken apart into sign, mantissa and exponent; `Binary.ofFloat` reads it off the bits.
* `Binary.numerator`, `Binary.denominator` : the magnitude of a finite double as a fraction.
* `packFloat`, `roundFloat` : the double of a given mantissa and exponent, exact or nearest.
* `floorInt`, `ceilInt`, `truncInt`, `nearestInt` : the integers next to a finite double.
-/

namespace Calculator.Number

set_option autoImplicit false

/-- A double: `finite negative mantissa exponent` is `mantissa * 2 ^ exponent`, or its negative. -/
inductive Binary where
  | nan
  | infinite (negative : Bool)
  | finite (negative : Bool) (mantissa : Nat) (exponent : Int)
deriving DecidableEq, Repr

namespace Binary

def ofFloat (x : Float) : Binary :=
  let bits : Nat := x.toBits.toNat
  let negative := bits / Nat.pow 2 63 == 1
  let field : Nat := bits / Nat.pow 2 52 % Nat.pow 2 11
  let fraction : Nat := bits % Nat.pow 2 52
  if field = 2047 then if fraction = 0 then infinite negative else nan
  else if field = 0 then finite negative fraction (-1074)
  else finite negative (Nat.pow 2 52 + fraction) (field - 1075)

end Binary

/-- Above the line of the fraction `mantissa * 2 ^ exponent`. -/
def numerator (mantissa : Nat) (exponent : Int) : Nat := mantissa * Nat.pow 2 exponent.toNat

/-- Below the line of the fraction `mantissa * 2 ^ exponent`. -/
def denominator (exponent : Int) : Nat := Nat.pow 2 (-exponent).toNat

theorem denominator_pos (exponent : Int) : 0 < denominator exponent := Nat.pow_pos (by decide)

/-! ## Back to doubles -/

/-- The double `mantissa * 2 ^ exponent`, for a mantissa below `2 ^ 53` and a value that is a double. -/
def packFloat (negative : Bool) (mantissa : Nat) (exponent : Int) : Float :=
  let sign : Nat := if negative then Nat.pow 2 63 else 0
  let shift : Nat := 52 - mantissa.log2
  if mantissa = 0 then Float.ofBits (UInt64.ofNat sign)
  else if -1074 ≤ exponent - shift then
    Float.ofBits (UInt64.ofNat
      (sign + (exponent - shift + 1075).toNat * Nat.pow 2 52 + (mantissa * Nat.pow 2 shift - Nat.pow 2 52)))
  else Float.ofBits (UInt64.ofNat (sign + mantissa * Nat.pow 2 (exponent + 1074).toNat))

/-- The double nearest to `mantissa * 2 ^ exponent`, ties going to the even mantissa. -/
def roundFloat (negative : Bool) (mantissa : Nat) (exponent : Int) : Float :=
  let target := max (exponent + mantissa.log2 - 52) (-1074)
  let kept := if target ≤ exponent then mantissa else divNearest mantissa (Nat.pow 2 (target - exponent).toNat)
  let place := if target ≤ exponent then exponent else target
  if 1024 ≤ place + kept.log2 then
    Float.ofBits (UInt64.ofNat ((if negative then Nat.pow 2 63 else 0) + 2047 * Nat.pow 2 52))
  else if kept = Nat.pow 2 53 then packFloat negative (Nat.pow 2 52) (place + 1)
  else packFloat negative kept place

/-! ## Integers next to a double -/

/-- `mantissa * 2 ^ exponent` with its sign, times the denominator of the fraction. -/
def signedNumerator (negative : Bool) (mantissa : Nat) (exponent : Int) : Int :=
  if negative then -(numerator mantissa exponent : Int) else numerator mantissa exponent

def floorInt (negative : Bool) (mantissa : Nat) (exponent : Int) : Int :=
  signedNumerator negative mantissa exponent / (denominator exponent : Int)

def ceilInt (negative : Bool) (mantissa : Nat) (exponent : Int) : Int :=
  -floorInt (!negative) mantissa exponent

def truncInt (negative : Bool) (mantissa : Nat) (exponent : Int) : Int :=
  let whole : Nat := numerator mantissa exponent / denominator exponent
  if negative then -(whole : Int) else whole

/-- The nearest integer, a tie going to the even one. -/
def nearestInt (negative : Bool) (mantissa : Nat) (exponent : Int) : Int :=
  let whole : Nat := divNearest (numerator mantissa exponent) (denominator exponent)
  if negative then -(whole : Int) else whole

/-! ## Reading the parts of a double -/

/-- The sign bit, set for `-0.0` too. -/
def isNegative (x : Float) : Bool := x.toBits.toNat / Nat.pow 2 63 == 1

/-- `x` with the sign of `y`. -/
def withSignOf (x y : Float) : Float := if isNegative y then -x.abs else x.abs

end Calculator.Number
