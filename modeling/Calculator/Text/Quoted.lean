import Calculator.Text.Classes

/-!
# Quoted texts

`quoted t` : `t` between quotation marks, in printable characters only. The marks are single ones, unless `t` holds a
single mark and no double one; the mark, the backslash and what cannot be printed are escaped.
-/

namespace Calculator.Text

set_option autoImplicit false

/-- The mark around `t`: the double one only where it spares escapes. -/
def quoteMark (t : Text) : Char := if t.contains '\'' && !t.contains '"' then '"' else '\''

/-- One character of a text that is quoted with `mark`. -/
def quotedChar (mark c : Char) : Text :=
  if c = mark || c = '\\' then ['\\', c]
  else if c = '\t' then ['\\', 't']
  else if c = '\n' then ['\\', 'n']
  else if c = '\r' then ['\\', 'r']
  else if isPrintable c then [c]
  else if c.toNat < 0x100 then '\\' :: 'x' :: hex 2 c.toNat
  else if c.toNat < 0x10000 then '\\' :: 'u' :: hex 4 c.toNat
  else '\\' :: 'U' :: hex 8 c.toNat

def quoted (t : Text) : Text :=
  let mark := quoteMark t
  mark :: t.flatMap (quotedChar mark) ++ [mark]

end Calculator.Text
