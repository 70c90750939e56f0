import Calculator.Number.Places

/-!
# How results are shown

A number close to an integer is shown as that integer; very large and very small ones with an exponent and seven digits;
all others with twelve digits, trailing zeros removed.

* `Display.isSnapped` : the number counts as the integer next to it.
* `Display.magnitudeText` : the digits of a positive fraction.
* `Display.text` : a double as it is shown.
-/

namespace Calculator.Display

set_option autoImplicit false

open Calculator.Number Calculator.Text

/-- A double as a fraction, its sign left out. -/
def fraction (x : Float) : Nat × Nat :=
  match Binary.ofFloat x with
  | .finite _ m q => (numerator m q, denominator q)
  | _ => (0, 1)

/-- Numbers closer than this to an integer are shown as the integer. -/
def snapTolerance : Nat × Nat := fraction 3e-8

/-- Numbers up to this size are not shown as zero. -/
def snapFloor : Nat × Nat := fraction 0.01

/-- Smaller numbers than this are shown with an exponent. -/
def plainFloor : Nat × Nat := fraction 1e-8

/-- Numbers of this size and larger ones are shown with an exponent. -/
def plainCeiling : Nat := Nat.pow 10 8

def significantDigits : Nat := 12

/-- The decimals of the coefficient of a number that is shown with an exponent. -/
def exponentPlaces : Nat := 6

def fractionLt (a b : Nat × Nat) : Bool := a.1 * b.2 < b.1 * a.2

/-- The fraction `num / den` counts as the integer `n` next to it. -/
def isSnapped (num den n : Nat) : Bool :=
  fractionLt ((num - n * den) + (n * den - num), den) snapTolerance && fractionLt snapFloor (num, den)

/-- Zeros at the end of a number with a point, and a point at its end, are not shown. -/
def trimZeros (t : Text) : Text := dropTail (· == '.') (dropTail (· == '0') t)

def scientificText (num den : Nat) : Text :=
  let s := scientific exponentPlaces num den
  trimZeros (coefficientText exponentPlaces s.coefficient) ++ 'E' :: decimalInt s.exponent

/-- Digits without an exponent, as many as are left for the decimals. -/
def plainText (num den : Nat) : Text :=
  let whole := decimal (num / den)
  if num % den = 0 then whole else trimZeros (fixedText (significantDigits - whole.length) num den)

def digitsText (num den : Nat) : Text :=
  if plainCeiling * den ≤ num || (num != 0 && fractionLt (num, den) plainFloor) then scientificText num den
  else plainText num den

def magnitudeText (num den : Nat) : Text :=
  let n := divNearest num den
  if isSnapped num den n then digitsText n 1 else digitsText num den

def text (x : Float) : Text :=
  match Binary.ofFloat x with
  | .nan => "nan".toList
  | .infinite negative => if negative then "-inf".toList else "inf".toList
  | .finite negative m q =>
    let digits := magnitudeText (numerator m q) (denominator q)
    if negative && m != 0 then '-' :: digits else digits

end Calculator.Display
