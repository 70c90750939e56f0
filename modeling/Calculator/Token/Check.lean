import Calculator.Expr.Basic

/-!
# The order of tokens

`findFault` : the first fault in a sequence of tokens. An operator of a sum or a product needs an operand in front of
it, parentheses hold something, and each of them has a partner.
-/

namespace Calculator

set_option autoImplicit false

/-- The operator needs an operand that is not there. -/
def lacksOperand (previous : Option Operator) : Bool := previous.any fun p => p.isArithmetic || p == .opening

/-- The first fault of the tokens behind `previous`, with `pending` parentheses open. -/
def findFaultFrom : (pending : Nat) → (previous : Option Operator) → List Expr → Option ParsingFault
  | pending, _, [] => if pending = 0 then none else some .unmatchedParenthesis
  | pending, previous, t :: ts =>
    match t.operator? with
    | some .opening => findFaultFrom (pending + 1) (some .opening) ts
    | some .closing =>
      if previous = some .opening then some .unexpectedToken
      else if pending = 0 then some .unmatchedParenthesis
      else findFaultFrom (pending - 1) (some .closing) ts
    | some op =>
      if op.isArithmetic && lacksOperand previous then some .unexpectedToken
      else findFaultFrom pending (some op) ts
    | none => findFaultFrom pending none ts

def findFault (ts : List Expr) : Option ParsingFault := findFaultFrom 0 none ts

end Calculator
