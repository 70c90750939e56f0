import Calculator.Json.Basic

/-!
# Writing JSON

In ASCII: all other characters are escaped, those beyond the basic plane as a pair.

* `Json.indented` : one item or field a line, four blanks a level; empty arrays and objects stay on their line.
* `Json.compact` : on one line, without blanks.
* `Json.isWritable`, `Json.write?` : no whole number has more digits than can be read.
-/

namespace Calculator.Json

set_option autoImplicit false

open Calculator.Text (decimal decimalInt hex)
open Calculator.Number (shortestText maxIntDigits)

/-! ## Texts and numbers -/

def unitEscape (n : Nat) : Text := '\\' :: 'u' :: hex 4 n

def writtenChar (c : Char) : Text :=
  match c with
  | '"' => ['\\', '"']
  | '\\' => ['\\', '\\']
  | '\n' => ['\\', 'n']
  | '\r' => ['\\', 'r']
  | '\t' => ['\\', 't']
  | '\x08' => ['\\', 'b']
  | '\x0c' => ['\\', 'f']
  | c =>
    if 0x20 ≤ c.toNat ∧ c.toNat ≤ 0x7E then [c]
    else if c.toNat < 0x10000 then unitEscape c.toNat
    else unitEscape (0xD800 + (c.toNat - 0x10000) / 0x400) ++ unitEscape (0xDC00 + (c.toNat - 0x10000) % 0x400)

def writtenText (t : Text) : Text := '"' :: t.flatMap writtenChar ++ ['"']

def writtenFloat (x : Float) : Text :=
  if x.isNaN then "NaN".toList
  else if x.isInf then (if x < 0.0 then "-Infinity".toList else "Infinity".toList)
  else shortestText x

/-! ## Lines -/

/-- The end of a line and the blanks that begin the next one. -/
def newLine (level : Nat) : Text := '\n' :: List.replicate (4 * level) ' '

mutual

/-- A value that begins on a line of the given level. -/
def lines (level : Nat) : Json → Text
  | null => "null".toList
  | bool b => if b then "true".toList else "false".toList
  | int n => decimalInt n
  | float x => writtenFloat x
  | text t => writtenText t
  | array [] => ['[', ']']
  | array (v :: vs) => '[' :: newLine (level + 1) ++ lines (level + 1) v ++ moreItems (level + 1) vs ++ newLine level ++ [']']
  | object [] => ['\x7b', '\x7d']
  | object ((k, v) :: fs) =>
    '\x7b' :: newLine (level + 1) ++ writtenText k ++ [':', ' '] ++ lines (level + 1) v ++ moreFields (level + 1) fs ++
      newLine level ++ ['\x7d']

def moreItems (level : Nat) : List Json → Text
  | [] => []
  | v :: vs => ',' :: newLine level ++ lines level v ++ moreItems level vs

def moreFields (level : Nat) : List (Text × Json) → Text
  | [] => []
  | (k, v) :: fs => ',' :: newLine level ++ writtenText k ++ [':', ' '] ++ lines level v ++ moreFields level fs

end

def indented (v : Json) : Text := lines 0 v

mutual

def compact : Json → Text
  | null => "null".toList
  | bool b => if b then "true".toList else "false".toList
  | int n => decimalInt n
  | float x => writtenFloat x
  | text t => writtenText t
  | array items => '[' :: compactItems items ++ [']']
  | object fields => '\x7b' :: compactFields fields ++ ['\x7d']

def compactItems : List Json → Text
  | [] => []
  | [v] => compact v
  | v :: vs => compact v ++ ',' :: compactItems vs

def compactFields : List (Text × Json) → Text
  | [] => []
  | [(k, v)] => writtenText k ++ ':' :: compact v
  | (k, v) :: fs => writtenText k ++ ':' :: compact v ++ ',' :: compactFields fs

end

/-! ## What can be written -/

mutual

/-- No whole number in the value is too long to be written. -/
def isWritable : Json → Bool
  | int n => (decimal n.natAbs).length ≤ maxIntDigits
  | array items => areWritable items
  | object fields => areWritableFields fields
  | _ => true

def areWritable : List Json → Bool
  | [] => true
  | v :: vs => isWritable v && areWritable vs

def areWritableFields : List (Text × Json) → Bool
  | [] => true
  | (_, v) :: fs => isWritable v && areWritableFields fs

end

/-- The value over several lines, if it can be written. -/
def write? (v : Json) : Option Text := if isWritable v then some (indented v) else none

end Calculator.Json
