import Calculator.Text.Basic

/-!
# Operators

The signs of an expression that stand for one token each: operators, parentheses, constants and the free variable.

* `Operator.symbol`, `Operator.label` : the sign and the name.
* `Operator.ofText?` : the operator a text spells, keyboard spellings included.
* `Operator.precedence`, `Operator.isRightAssociative`.
* `Operator.endsValue`, `Operator.startsValue` : where two neighbours mean a product.
* `Operator.precedesSign`, `Operator.isArithmetic` : where a minus is a sign, and which operators need an operand in
  front of them.
-/

namespace Calculator

set_option autoImplicit false

inductive Operator where
  | add
  | subtract
  /-- The sign of a number, `_`. -/
  | negate
  | multiply
  | divide
  | opening
  | closing
  | pi
  | euler
  /-- The place of the previous answer, `(ans)`. -/
  | answer
  /-- The mark of a power of ten, `E`. -/
  | scientific
  | power
  | squareRoot
  | freeVariable
deriving DecidableEq, Repr

namespace Operator

def all : List Operator :=
  [add, subtract, negate, multiply, divide, opening, closing, pi, euler, answer, scientific, power, squareRoot,
    freeVariable]

def symbol : Operator → Text
  | add => ['+']
  | subtract => ['-']
  | negate => ['_']
  | multiply => ['⋅']
  | divide => ['÷']
  | opening => ['(']
  | closing => [')']
  | pi => ['π']
  | euler => ['e']
  | answer => ['(', 'a', 'n', 's', ')']
  | scientific => ['E']
  | power => ['^']
  | squareRoot => ['√']
  | freeVariable => ['x']

def label : Operator → Text
  | add => "ADD".toList
  | subtract => "SUBTRACT".toList
  | negate => "UNARY_MINUS".toList
  | multiply => "MULTIPLY".toList
  | divide => "DIVIDE".toList
  | opening => "OPEN_PARENTHESIS".toList
  | closing => "CLOSE_PARENTHESIS".toList
  | pi => "CONSTANT_PI".toList
  | euler => "CONSTANT_E".toList
  | answer => "CONSTANT_ANS".toList
  | scientific => "SCIENTIFIC_E".toList
  | power => "EXPONENT".toList
  | squareRoot => "SQUARE_ROOT".toList
  | freeVariable => "VARIABLE_X".toList

def ofSymbol? (t : Text) : Option Operator := all.find? fun o => o.symbol = t

/-- The operator that `t` spells: by its sign, or as on a keyboard. -/
def ofText? (t : Text) : Option Operator :=
  if t = ['*'] then some multiply else if t = ['/'] then some divide else ofSymbol? t

theorem ofSymbol?_symbol (o : Operator) : ofSymbol? o.symbol = some o := by cases o <;> decide

theorem symbol_of_ofSymbol? {t : Text} {o : Operator} (h : ofSymbol? t = some o) : o.symbol = t := by
  simpa using List.find?_some h

def precedence : Operator → Nat
  | add | subtract => 1
  | multiply | divide => 2
  | power => 3
  | negate | squareRoot => 4
  | scientific => 6
  | _ => 5

def isRightAssociative (o : Operator) : Bool := o == power

/-- A value ends with this operator. -/
def endsValue : Operator → Bool
  | pi | euler | freeVariable | closing => true
  | _ => false

/-- A value begins with this operator, so that behind a value it means a product. -/
def startsValue : Operator → Bool
  | opening | squareRoot | pi | euler | freeVariable => true
  | _ => false

/-- A minus behind this operator is a sign. -/
def precedesSign : Operator → Bool
  | add | subtract | negate | multiply | divide | opening | power | squareRoot => true
  | _ => false

def isArithmetic : Operator → Bool
  | add | subtract | multiply | divide => true
  | _ => false

end Operator

end Calculator
