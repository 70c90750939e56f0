import Calculator.Text.Basic

/-!
# The catalog of functions

* `NamedFunction` : the functions an expression may call.
* `NamedFunction.name`, `NamedFunction.ofName?` : their names.
* `NamedFunction.arity` : one argument or two.
* `NamedFunction.isTrigonometric`, `NamedFunction.isInverse` : the functions that see the angle mode.
-/

namespace Calculator

set_option autoImplicit false

inductive NamedFunction where
  | sin | cos | tan | csc | sec | cot
  | asin | acos | atan | acsc | asec | acot
  | log | ln | abs | floor | ceil | round
  | logb | root | mod | hypot | nPr | nCr
deriving DecidableEq, Repr

namespace NamedFunction

def all : List NamedFunction :=
  [sin, cos, tan, csc, sec, cot, asin, acos, atan, acsc, asec, acot, log, ln, abs, floor, ceil, round,
    logb, root, mod, hypot, nPr, nCr]

def name : NamedFunction → Text
  | sin => "sin".toList
  | cos => "cos".toList
  | tan => "tan".toList
  | csc => "csc".toList
  | sec => "sec".toList
  | cot => "cot".toList
  | asin => "asin".toList
  | acos => "acos".toList
  | atan => "atan".toList
  | acsc => "acsc".toList
  | asec => "asec".toList
  | acot => "acot".toList
  | log => "log".toList
  | ln => "ln".toList
  | abs => "abs".toList
  | floor => "floor".toList
  | ceil => "ceil".toList
  | round => "round".toList
  | logb => "logb".toList
  | root => "root".toList
  | mod => "mod".toList
  | hypot => "hypot".toList
  | nPr => "nPr".toList
  | nCr => "nCr".toList

/-- The name in capitals. -/
def label (f : NamedFunction) : Text := f.name.map Char.toUpper

def ofName? (t : Text) : Option NamedFunction := all.find? fun f => f.name = t

theorem ofName?_name (f : NamedFunction) : ofName? f.name = some f := by cases f <;> decide

theorem name_of_ofName? {t : Text} {f : NamedFunction} (h : ofName? t = some f) : f.name = t := by
  simpa using List.find?_some h

def arity : NamedFunction → Nat
  | logb | root | mod | hypot | nPr | nCr => 2
  | _ => 1

def isTrigonometric : NamedFunction → Bool
  | sin | cos | tan | csc | sec | cot => true
  | _ => false

def isInverse : NamedFunction → Bool
  | asin | acos | atan | acsc | asec | acot => true
  | _ => false

end NamedFunction

end Calculator
