import Calculator.Number.Rounding
import Calculator.Text.Quoted

/-!
# Numerals

How numbers are written where a number is expected: blanks around it, an optional sign, decimal digits of any script,
single underscores between digits.

* `Numeral` : a decimal number, infinity or no number.
* `Numeral.read?` : digits with an optional point and an optional exponent, or one of the words.
* `Numeral.toFloat` : the nearest double.
* `readInt` : a whole number, of at most `maxIntDigits` digits.
-/

namespace Calculator.Number

set_option autoImplicit false

open Calculator.Text (digitValue? trim isNumeralBlank lowerAscii quoted decimal)

/-- A number as written: `decimal negative digits exponent` is `digits * 10 ^ exponent`, or its negative. -/
inductive Numeral where
  | decimal (negative : Bool) (digits : Nat) (exponent : Int)
  | infinite (negative : Bool)
  | nan
deriving DecidableEq, Repr

/-! ## Spelling -/

/-- A digit of any script as the digit of ASCII, any other character itself. -/
def plainDigit (c : Char) : Char :=
  match digitValue? c with
  | some v => Char.ofNat (48 + v)
  | none => c

def plain (t : Text) : Text := (trim isNumeralBlank t).map plainDigit

/-- The text without its underscores, each of which has to stand between two digits; `afterDigit` tells whether a digit
precedes. -/
def dropUnderscores? : (afterDigit : Bool) → Text → Option Text
  | _, [] => some []
  | afterDigit, '_' :: rest =>
    match rest with
    | d :: _ => if afterDigit && d.isDigit then dropUnderscores? false rest else none
    | [] => none
  | _, c :: rest => (dropUnderscores? c.isDigit rest).map (c :: ·)

def splitSign : Text → Bool × Text
  | '-' :: rest => (true, rest)
  | '+' :: rest => (false, rest)
  | t => (false, t)

/-! ## Decimal numbers -/

/-- The exponent behind the mark `e`, zero if nothing is left. -/
def exponent? : Text → Option Int
  | [] => some 0
  | c :: rest =>
    if c = 'e' ∨ c = 'E' then
      let (negative, digits) := splitSign rest
      if digits ≠ [] ∧ digits.all Char.isDigit then
        let n : Nat := Nat.ofDigitChars 10 digits 0
        some (if negative then -(n : Int) else n)
      else none
    else none

/-- Digits, a point with digits, an exponent; at least one digit stands before the exponent. -/
def unsigned? (negative : Bool) (t : Text) : Option Numeral :=
  let whole := t.takeWhile Char.isDigit
  let rest := t.dropWhile Char.isDigit
  let (places, rest) :=
    match rest with
    | '.' :: behind => (behind.takeWhile Char.isDigit, behind.dropWhile Char.isDigit)
    | _ => ([], rest)
  if whole = [] ∧ places = [] then none
  else (exponent? rest).map fun e =>
    .decimal negative (Nat.ofDigitChars 10 (whole ++ places) 0) (e - places.length)

/-- The words for what is no decimal number, in letters of either case. -/
def word? (negative : Bool) (t : Text) : Option Numeral :=
  let small := lowerAscii t
  if small = "inf".toList ∨ small = "infinity".toList then some (.infinite negative)
  else if small = "nan".toList then some .nan
  else none

namespace Numeral

def read? (t : Text) : Option Numeral := do
  let spelled ← dropUnderscores? false (plain t)
  let (negative, rest) := splitSign spelled
  (word? negative rest).or (unsigned? negative rest)

/-- The double nearest to the number. -/
def toFloat : Numeral → Float
  | .decimal negative digits exponent =>
    let x := if exponent < 0 then Float.ofScientific digits true exponent.natAbs
      else Float.ofScientific digits false exponent.natAbs
    if negative then -x else x
  | .infinite negative => if negative then -(1.0 / 0.0) else 1.0 / 0.0
  | .nan => 0.0 / 0.0

end Numeral

def isNumeral (t : Text) : Bool := (Numeral.read? t).isSome

def readFloat? (t : Text) : Option Float := (Numeral.read? t).map Numeral.toFloat

/-! ## Whole numbers -/

/-- Longer whole numbers are neither read nor written. -/
def maxIntDigits : Nat := 4300

inductive IntReadError where
  | invalid (text : Text)
  | tooLong (digits : Nat)
deriving DecidableEq, Repr

def IntReadError.message : IntReadError → Text
  | .invalid t => "invalid literal for int() with base 10: ".toList ++ (quoted t).take 200
  | .tooLong n =>
    "Exceeds the limit (4300 digits) for integer string conversion: value has ".toList ++ decimal n ++
      " digits; use sys.set_int_max_str_digits() to increase the limit".toList

def readInt (t : Text) : Except IntReadError Int :=
  let (negative, rest) := splitSign (plain t)
  let run := rest.takeWhile fun c => c.isDigit || c == '_'
  match dropUnderscores? false run with
  | none | some [] => .error (.invalid t)
  | some digits =>
    if maxIntDigits < digits.length then .error (.tooLong digits.length)
    else if run.length < rest.length then .error (.invalid t)
    else
      let n : Nat := Nat.ofDigitChars 10 digits 0
      .ok (if negative then -(n : Int) else n)

end Calculator.Number
