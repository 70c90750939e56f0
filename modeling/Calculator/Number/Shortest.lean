import Calculator.Number.Places

/-!
# The shortest decimal of a double

A double is told apart from every other double by the reals that round to it. Its text is the decimal of fewest digits
among these reals, and of several the nearest to the double.

* `Basin` : the reals that round to a double, as an interval of fractions.
* `shortest` : the digits and the exponent.
* `shortestText` : positional for exponents from -4 to 15, else with an exponent.
-/

namespace Calculator.Number

set_option autoImplicit false

open Calculator.Text (decimal decimalInt zeroFill dropTail)

/-- The interval from `low / den` to `high / den` around `mid / den`; its ends belong to it if `closed`. -/
structure Basin where
  low : Nat
  mid : Nat
  high : Nat
  den : Nat
  closed : Bool

/-- The reals that round to `m * 2 ^ q`: half way to the neighbours, of which the lower one is nearer at a power of
two; a tie goes to the even mantissa. -/
def Basin.ofFinite (m : Nat) (q : Int) : Basin :=
  let below : Nat := if m = Nat.pow 2 52 ∧ -1074 < q then 1 else 2
  ⟨numerator (4 * m - below) (q - 2), numerator (4 * m) (q - 2), numerator (4 * m + 2) (q - 2),
    denominator (q - 2), m % 2 == 0⟩

/-- The fraction `num / d` lies in the interval. -/
def Basin.holds (b : Basin) (num d : Nat) : Bool :=
  if b.closed then b.low * d ≤ num * b.den && num * b.den ≤ b.high * d
  else b.low * d < num * b.den && num * b.den < b.high * d

/-- The point of the grid `10 ^ g` that lies in the interval and is nearest to its middle, in units of the grid. -/
def Basin.gridPoint? (b : Basin) (g : Int) : Option Nat :=
  let unit := Nat.pow 10 g.toNat
  let parts := Nat.pow 10 (-g).toNat
  let lower := b.mid * parts / (b.den * unit)
  let upper := lower + 1
  let lowerIn := b.holds (lower * unit) parts
  let upperIn := b.holds (upper * unit) parts
  if lowerIn && upperIn then
    -- twice the distance from the lower point, in units of the grid
    let twice := 2 * (b.mid * parts - lower * (b.den * unit))
    if twice < b.den * unit then some lower
    else if b.den * unit < twice then some upper
    else some (lower + lower % 2)
  else if lowerIn then some lower
  else if upperIn then some upper
  else none

/-- The first grid from the one of a single digit downwards that meets the interval, with its point. -/
def Basin.coarsest (b : Basin) (top : Int) : Nat → Nat × Int
  | 0 => (b.mid / b.den, 0)
  | tries + 1 =>
    match b.gridPoint? top with
    | some n => (n, top)
    | none => b.coarsest (top - 1) tries

/-- Digits without trailing zeros and the exponent of their leading digit, for a positive mantissa. -/
def shortest (m : Nat) (q : Int) : Text × Int :=
  let b := Basin.ofFinite m q
  let (n, g) := b.coarsest (decimalExponent (numerator m q) (denominator q)) 17
  let digits := decimal n
  (dropTail (· == '0') digits, g + digits.length - 1)

/-- Digits with the point set by the exponent of the leading one. -/
def placedText (digits : Text) (e : Int) : Text :=
  if e < -4 ∨ 16 ≤ e then
    let head := match digits with
      | [] => []
      | [d] => [d]
      | d :: rest => d :: '.' :: rest
    head ++ 'e' :: exponentText e
  else if e < 0 then "0.".toList ++ List.replicate (-e - 1).toNat '0' ++ digits
  else
    let whole := e.toNat + 1
    let filled := digits ++ List.replicate (whole - digits.length) '0'
    let behind := filled.drop whole
    filled.take whole ++ '.' :: (if behind.isEmpty then ['0'] else behind)

/-- A double as the shortest decimal that reads back to it. -/
def shortestText (x : Float) : Text :=
  match Binary.ofFloat x with
  | .nan => "nan".toList
  | .infinite negative => if negative then "-inf".toList else "inf".toList
  | .finite negative m q =>
    let text := if m = 0 then "0.0".toList else
      let (digits, e) := shortest m q
      placedText digits e
    if negative then '-' :: text else text

end Calculator.Number
