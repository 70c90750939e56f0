import Calculator.Number.Binary
import Calculator.Text.Basic

/-!
# Decimal places

A fraction in decimal digits, rounded half to even from its exact value.

* `fixedText` : with a fixed number of places behind the point.
* `decimalExponent` : the exponent of the leading digit.
* `Scientific`, `scientific` : a coefficient of a fixed number of digits and its exponent.
* `exactText` : a double with twelve significant digits, the form in which results are compared.
-/

namespace Calculator.Number

set_option autoImplicit false

open Calculator.Text (decimal zeroFill)

/-- `num / den` with `places` digits behind the point; without places there is no point. -/
def fixedText (places num den : Nat) : Text :=
  let n := divNearest (num * Nat.pow 10 places) den
  let whole := decimal (n / Nat.pow 10 places)
  if places = 0 then whole else whole ++ '.' :: zeroFill places (decimal (n % Nat.pow 10 places))

/-- The `e` with `10 ^ e ≤ num / den < 10 ^ (e + 1)`, for a positive fraction. -/
def decimalExponent (num den : Nat) : Int :=
  if den ≤ num then (decimal (num / den)).length - 1
  else -((decimal ((den + num - 1) / num - 1)).length : Int)

/-- The number `coefficient / 10 ^ places * 10 ^ exponent`, the coefficient having one digit before the point. -/
structure Scientific where
  coefficient : Nat
  exponent : Int
deriving DecidableEq, Repr

def scientific (places num den : Nat) : Scientific :=
  if num = 0 then ⟨0, 0⟩ else
  let e := decimalExponent num den
  let n := divNearest (num * Nat.pow 10 (places - e).toNat) (den * Nat.pow 10 (e - places).toNat)
  if n = Nat.pow 10 (places + 1) then ⟨Nat.pow 10 places, e + 1⟩ else ⟨n, e⟩

/-- The coefficient of `places + 1` digits, with its point. -/
def coefficientText (places coefficient : Nat) : Text :=
  match zeroFill (places + 1) (decimal coefficient) with
  | [] => []
  | [d] => [d]
  | d :: rest => d :: '.' :: rest

/-- A signed exponent of at least two digits. -/
def exponentText (e : Int) : Text :=
  (if e < 0 then '-' else '+') :: zeroFill 2 (decimal e.natAbs)

/-- A double with twelve significant digits. -/
def exactText (x : Float) : Text :=
  match Binary.ofFloat x with
  | .nan => "nan".toList
  | .infinite negative => if negative then "-inf".toList else "inf".toList
  | .finite negative m q =>
    let s := scientific 11 (numerator m q) (denominator q)
    let digits := coefficientText 11 s.coefficient ++ 'E' :: exponentText s.exponent
    if negative then '-' :: digits else digits

end Calculator.Number
