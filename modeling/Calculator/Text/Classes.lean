import Calculator.Text.Basic
import Calculator.Text.LetterTable
import Calculator.Text.UnprintableTable

/-!
# Classes of characters

* `isLetter` : the letters, of which the names of functions are made.
* `isBlank`, `strip` : the blanks, and a text without the blanks at its ends.
* `digitValue?` : the value of a decimal digit of any script.
* `isPrintable` : the characters that stand for themselves in a quoted text, and that a key may type.

ASCII is decided by comparison, all else by the tables.
-/

namespace Calculator.Text

set_option autoImplicit false

def inRanges (n : Nat) (ranges : List (Nat × Nat)) : Bool := ranges.any fun r => r.1 ≤ n && n ≤ r.2

def isLetter (c : Char) : Bool :=
  if c.toNat < 0x80 then c.isAlpha else inRanges c.toNat letterRanges

/-- The blanks beyond ASCII. -/
def wideBlanks : List (Nat × Nat) :=
  [(0x85, 0x85), (0xA0, 0xA0), (0x1680, 0x1680), (0x2000, 0x200A), (0x2028, 0x2029), (0x202F, 0x202F),
    (0x205F, 0x205F), (0x3000, 0x3000)]

/-- White space: the blank, the controls that move the print position or separate records, and their wide kin. -/
def isBlank (c : Char) : Bool :=
  inRanges c.toNat [(0x09, 0x0D), (0x1C, 0x20)] || inRanges c.toNat wideBlanks

/-- The blanks that may surround a numeral: the separators of records are none of them. -/
def isNumeralBlank (c : Char) : Bool :=
  inRanges c.toNat [(0x09, 0x0D), (0x20, 0x20)] || inRanges c.toNat wideBlanks

def trim (p : Char → Bool) (t : Text) : Text := dropTail p (t.dropWhile p)

def strip (t : Text) : Text := trim isBlank t

/-- The zeros of the scripts that have decimal digits; the digits of a script follow each other. -/
def digitZeros : List Nat :=
  [0x30, 0x660, 0x6F0, 0x7C0, 0x966, 0x9E6, 0xA66, 0xAE6, 0xB66, 0xBE6, 0xC66, 0xCE6, 0xD66, 0xDE6, 0xE50, 0xED0,
    0xF20, 0x1040, 0x1090, 0x17E0, 0x1810, 0x1946, 0x19D0, 0x1A80, 0x1A90, 0x1B50, 0x1BB0, 0x1C40, 0x1C50, 0xA620,
    0xA8D0, 0xA900, 0xA9D0, 0xA9F0, 0xAA50, 0xABF0, 0xFF10, 0x104A0, 0x10D30, 0x11066, 0x110F0, 0x11136, 0x111D0,
    0x112F0, 0x11450, 0x114D0, 0x11650, 0x116C0, 0x11730, 0x118E0, 0x11950, 0x11C50, 0x11D50, 0x11DA0, 0x16A60,
    0x16AC0, 0x16B50, 0x1D7CE, 0x1D7D8, 0x1D7E2, 0x1D7EC, 0x1D7F6, 0x1E140, 0x1E2F0, 0x1E950, 0x1FBF0]

def digitValue? (c : Char) : Option Nat :=
  (digitZeros.find? fun z => z ≤ c.toNat && c.toNat < z + 10).map (c.toNat - ·)

def isPrintable (c : Char) : Bool :=
  if c.toNat < 0x80 then 0x20 ≤ c.toNat && c.toNat < 0x7F else !inRanges c.toNat unprintableRanges

/-- A capital letter of ASCII made small, any other character itself. -/
def lowerAscii (t : Text) : Text := t.map Char.toLower

end Calculator.Text
