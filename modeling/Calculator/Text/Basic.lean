/-!
# Texts

* `Text` : what is typed, shown and stored, a sequence of code points.
* `Text.decimal`, `Text.decimalInt` : a number in decimal digits.
* `Text.hex` : a number in lower case hexadecimal digits of a given width.
* `Text.afterPrefix?` : what follows a given beginning.
-/

namespace Calculator

set_option autoImplicit false

/-- A sequence of code points; positions and lengths count code points. -/
abbrev Text := List Char

namespace Text

/-- The decimal digits of `n`, without leading zeros. -/
def decimal (n : Nat) : Text := Nat.toDigits 10 n

/-- The decimal digits of `n`, a minus sign before them if `n` is negative. -/
def decimalInt : Int → Text
  | .ofNat n => decimal n
  | .negSucc n => '-' :: decimal (n + 1)

/-- `t` filled up with zeros on the left to `width` characters. -/
def zeroFill (width : Nat) (t : Text) : Text := List.replicate (width - t.length) '0' ++ t

/-- `n` in hexadecimal digits, filled up to `width`. -/
def hex (width n : Nat) : Text := zeroFill width (Nat.toDigits 16 n)

/-- The rest of `t` after `head`, if `t` begins with `head`. -/
def afterPrefix? : (head t : Text) → Option Text
  | [], t => some t
  | _ :: _, [] => none
  | a :: head, b :: t => if a = b then afterPrefix? head t else none

/-- `t` without the longest run of characters of the class `p` at its end. -/
def dropTail (p : Char → Bool) (t : Text) : Text := (t.reverse.dropWhile p).reverse

end Text

end Calculator
