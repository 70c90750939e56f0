import Calculator.Number.Binary

/-!
# Remainders and roots of squares, exactly

* `truncRem` : the remainder of the quotient rounded toward zero, with the sign of the dividend.
* `floorRem` : the remainder with the sign of the divisor.
* `roundPlaces` : a double rounded to decimal places.
* `hypotenuse` : the double nearest to the root of a sum of squares.

The first is always a double; the others round once.
-/

namespace Calculator.Number

set_option autoImplicit false

/-- The remainder of `x / y` with the sign of `x`: no number if `x` is infinite or `y` zero, `x` if only `y` is
infinite. -/
def truncRem (x y : Float) : Float :=
  match Binary.ofFloat x, Binary.ofFloat y with
  | .finite negative m q, .finite _ n r =>
    if n = 0 then 0.0 / 0.0 else
    let place := min q r
    packFloat negative (m * Nat.pow 2 (q - place).toNat % (n * Nat.pow 2 (r - place).toNat)) place
  | .finite .., .infinite _ => x
  | _, _ => 0.0 / 0.0

/-- The remainder of `x / y` with the sign of `y`, for a `y` other than zero. -/
def floorRem (x y : Float) : Float :=
  let r := truncRem x y
  if r == 0.0 then withSignOf 0.0 y
  else if (y < 0.0) != (r < 0.0) then r + y
  else r

/-- The double nearest to `n / 10 ^ places`. -/
def ofPlaces (places : Nat) (n : Nat) : Float := Float.ofScientific n true places

/-- `x` rounded half to even to `places` decimals, the nearest double to that; infinities and no numbers stay. -/
def roundPlaces (places : Nat) (x : Float) : Float :=
  match Binary.ofFloat x with
  | .finite negative m q =>
    let y := ofPlaces places (divNearest (numerator m q * Nat.pow 10 places) (denominator q))
    if negative then -y else y
  | _ => x

/-- The double nearest to the root of `x * x + y * y`. -/
def hypotenuse (x y : Float) : Float :=
  match Binary.ofFloat x, Binary.ofFloat y with
  | .finite _ m q, .finite _ n r =>
    let place := min q r
    let a := m * Nat.pow 2 (q - place).toNat
    let b := n * Nat.pow 2 (r - place).toNat
    let square := a * a + b * b
    -- enough digits that the root has more than a double, the last one telling whether it is exact
    let lift := 60 - square.log2 / 2
    let lifted := square * Nat.pow 4 lift
    let root := lifted.sqrt
    roundFloat false (2 * root + if root * root = lifted then 0 else 1) (place - lift - 1)
  | .infinite _, _ => 1.0 / 0.0
  | _, .infinite _ => 1.0 / 0.0
  | _, _ => 0.0 / 0.0

end Calculator.Number
