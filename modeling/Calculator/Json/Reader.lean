import Calculator.Json.Basic

/-!
# Reading JSON

`Json.read` : the value that a text writes. Beside the standard's values `NaN`, `Infinity` and `-Infinity` are read as
doubles; a number with a point or an exponent is a double, any other one whole. A key that is repeated keeps its first
place and its last value. A text that is no JSON is told from one with a whole number too long to be read.
-/

namespace Calculator.Json

set_option autoImplicit false

open Calculator.Number (Numeral maxIntDigits)

inductive ReadError where
  | malformed
  | intTooLong
deriving DecidableEq, Repr

def isJsonBlank (c : Char) : Bool := c == ' ' || c == '\n' || c == '\r' || c == '\t'

def skipBlanks (t : Text) : Text := t.dropWhile isJsonBlank

/-! ## Texts -/

def hexValue? (c : Char) : Option Nat :=
  if c.isDigit then some (c.toNat - 48)
  else if 'a' ≤ c ∧ c ≤ 'f' then some (c.toNat - 87)
  else if 'A' ≤ c ∧ c ≤ 'F' then some (c.toNat - 55)
  else none

def hexQuad? (a b c d : Char) : Option Nat := do
  return (← hexValue? a) * 4096 + (← hexValue? b) * 256 + (← hexValue? c) * 16 + (← hexValue? d)

/-- The character after a backslash that stands for one other character. -/
def escaped? (c : Char) : Option Char :=
  match c with
  | '"' => some '"'
  | '\\' => some '\\'
  | '/' => some '/'
  | 'b' => some '\x08'
  | 'f' => some '\x0c'
  | 'n' => some '\n'
  | 'r' => some '\r'
  | 't' => some '\t'
  | _ => none

def isHighSurrogate (n : Nat) : Bool := 0xD800 ≤ n && n < 0xDC00

def isLowSurrogate (n : Nat) : Bool := 0xDC00 ≤ n && n < 0xE000

/-- The code point of a single escape; half of a pair is no character and is replaced. -/
def loneCodePoint (n : Nat) : Char :=
  if isHighSurrogate n || isLowSurrogate n then '\uFFFD' else Char.ofNat n

/-- A text up to its closing mark, and what follows. -/
def readText : Text → Option (Text × Text)
  | [] => none
  | '"' :: rest => some ([], rest)
  | '\\' :: 'u' :: a :: b :: c :: d :: '\\' :: 'u' :: e :: f :: g :: h :: rest => do
    let first ← hexQuad? a b c d
    if isHighSurrogate first then
      let second ← hexQuad? e f g h
      if isLowSurrogate second then
        let (t, after) ← readText rest
        return (Char.ofNat (0x10000 + (first - 0xD800) * 0x400 + (second - 0xDC00)) :: t, after)
      else
        let (t, after) ← readText ('\\' :: 'u' :: e :: f :: g :: h :: rest)
        return (loneCodePoint first :: t, after)
    else
      let (t, after) ← readText ('\\' :: 'u' :: e :: f :: g :: h :: rest)
      return (loneCodePoint first :: t, after)
  | '\\' :: 'u' :: a :: b :: c :: d :: rest => do
    let n ← hexQuad? a b c d
    let (t, after) ← readText rest
    return (loneCodePoint n :: t, after)
  | '\\' :: c :: rest => do
    let c ← escaped? c
    let (t, after) ← readText rest
    return (c :: t, after)
  | c :: rest => do
    if c.toNat < 0x20 then none
    let (t, after) ← readText rest
    return (c :: t, after)

/-! ## Numbers and words -/

def words : List (Text × Json) :=
  [("null".toList, .null), ("true".toList, .bool true), ("false".toList, .bool false),
    ("NaN".toList, .float (0.0 / 0.0)), ("Infinity".toList, .float (1.0 / 0.0)),
    ("-Infinity".toList, .float (-(1.0 / 0.0)))]

def readWord? (t : Text) : Option (Json × Text) :=
  words.findSome? fun w => (Text.afterPrefix? w.1 t).map (w.2, ·)

/-- An exponent with its mark, if one with digits is there, and what follows. -/
def readExponent (t : Text) : Option Int × Text :=
  match t with
  | mark :: rest =>
    let (negative, digits) := Number.splitSign rest
    let run := digits.takeWhile Char.isDigit
    if (mark = 'e' ∨ mark = 'E') ∧ run ≠ [] then
      let n : Nat := Nat.ofDigitChars 10 run 0
      (some (if negative then -(n : Int) else n), digits.drop run.length)
    else (none, t)
  | [] => (none, t)

def splitMinus : Text → Bool × Text
  | '-' :: rest => (true, rest)
  | t => (false, t)

/-- The digits before the point; a leading zero is alone. -/
def wholeRun : Text → Text
  | '0' :: _ => ['0']
  | t => t.takeWhile Char.isDigit

/-- The digits behind the point, if there is one. -/
def placesRun : Text → Text
  | '.' :: behind => behind.takeWhile Char.isDigit
  | _ => []

def readNumber (t : Text) : Except ReadError (Json × Text) :=
  let (negative, body) := splitMinus t
  let whole := wholeRun body
  if whole.isEmpty then .error .malformed else
  let rest := body.drop whole.length
  let places := placesRun rest
  let rest := if places.isEmpty then rest else rest.drop (places.length + 1)
  let (exponent?, rest) := readExponent rest
  if places.isEmpty && exponent?.isNone then
    if maxIntDigits < whole.length then .error .intTooLong
    else
      let n : Nat := Nat.ofDigitChars 10 whole 0
      .ok (.int (if negative then -(n : Int) else n), rest)
  else
    let digits := Nat.ofDigitChars 10 (whole ++ places) 0
    .ok (.float (Numeral.decimal negative digits (exponent?.getD 0 - places.length)).toFloat, rest)

/-! ## Values -/

mutual

/-- A value and what follows it; every step takes a character, so `steps` need not exceed their number. -/
def readValue : (steps : Nat) → Text → Except ReadError (Json × Text)
  | 0, _ => .error .malformed
  | steps + 1, t =>
    match t with
    | '"' :: rest =>
      match readText rest with
      | some (s, after) => .ok (.text s, after)
      | none => .error .malformed
    | '\x7b' :: rest =>
      match skipBlanks rest with
      | '\x7d' :: after => .ok (.object [], after)
      | rest => do
        let (fields, after) ← readFields steps [] rest
        return (.object fields, after)
    | '[' :: rest =>
      match skipBlanks rest with
      | ']' :: after => .ok (.array [], after)
      | rest => do
        let (items, after) ← readItems steps rest
        return (.array items, after)
    | _ =>
      match readWord? t with
      | some r => .ok r
      | none => readNumber t

/-- The values of an array from one of them on, and what follows the array. -/
def readItems : (steps : Nat) → Text → Except ReadError (List Json × Text)
  | 0, _ => .error .malformed
  | steps + 1, t => do
    let (v, after) ← readValue steps t
    match skipBlanks after with
    | ']' :: rest => return ([v], rest)
    | ',' :: rest =>
      let (vs, after) ← readItems steps (skipBlanks rest)
      return (v :: vs, after)
    | _ => .error .malformed

/-- The fields of an object from one of them on, put to those `before` it, and what follows the object. -/
def readFields : (steps : Nat) → (before : Fields) → Text → Except ReadError (Fields × Text)
  | 0, _, _ => .error .malformed
  | steps + 1, before, t =>
    match t with
    | '"' :: rest =>
      match readText rest with
      | none => .error .malformed
      | some (key, after) =>
        match skipBlanks after with
        | ':' :: rest => do
          let (v, after) ← readValue steps (skipBlanks rest)
          let fields := before.put key v
          match skipBlanks after with
          | '\x7d' :: rest => return (fields, rest)
          | ',' :: rest => readFields steps fields (skipBlanks rest)
          | _ => .error .malformed
        | _ => .error .malformed
    | _ => .error .malformed

end

def read (t : Text) : Except ReadError Json := do
  let (v, after) ← readValue (t.length + 1) (skipBlanks t)
  if (skipBlanks after).isEmpty then return v else .error .malformed

end Calculator.Json
