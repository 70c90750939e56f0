import Calculator.Number.Numeral
import Calculator.Token.Lexeme
import Calculator.Token.Check
import Calculator.Token.Tree

/-!
# From a text to tokens

A literal becomes a number, or a power of ten if it begins with the exponent mark; a minus is a sign where no value
precedes it; two neighbouring values are multiplied; the arguments of a call become trees of their own.

* `Lexeme.tokens` : the tokens of a piece behind another token.
* `tokenize` : the tokens of a text. In strict mode their order is checked, in arguments too.
* `treeOf` : the tree of a text.
-/

namespace Calculator

set_option autoImplicit false

open Calculator.Number (readFloat?)

/-- The sign of a product where a value follows the token `previous`. -/
def glue (previous : Option Expr) : List Expr :=
  if previous.any Expr.isValue then [.bare .multiply] else []

def literalTokens (previous : Option Expr) (literal : Text) : Except LexicalFault (List Expr) :=
  match readFloat? literal with
  | some v => .ok (glue previous ++ [.number v])
  | none =>
    match literal with
    | ['E'] => .ok [.bare .scientific]
    | 'E' :: exponent =>
      match readFloat? exponent with
      | some v => .ok [.bare .scientific, .number v]
      | none => .error (.badLiteral literal)
    | _ => .error (.badLiteral literal)

/-- The tokens of a sign: a value multiplies a value before it, and a minus may be the sign of a number. -/
def signTokens (previous : Option Expr) (op : Operator) : List Expr :=
  if op.startsValue then glue previous ++ [.bare op]
  else if op = .subtract ∧ previous.all (fun t => t.operator?.any Operator.precedesSign) then [.bare .negate]
  else [.bare op]

def callToken (f : NamedFunction) : List Expr → Expr
  | [a] => .call f a
  | [a, b] => .call₂ f a b
  | _ => .failure .unexpectedToken

namespace Lexeme

def tokens (text : Text) (argument : Text → Except TokenError Expr) (previous : Option Expr) :
    Lexeme → Except TokenError (List Expr)
  | literal t => (literalTokens previous t).mapError (⟨·, text⟩)
  | call f arguments => do
    let trees ← arguments.mapM argument
    return glue previous ++ [callToken f trees]
  | sign op => .ok (signTokens previous op)
  | fault k => .error ⟨k, text⟩

end Lexeme

/-- The tokens of the pieces of `text` behind the token `previous`. -/
def tokensFrom (text : Text) (argument : Text → Except TokenError Expr) :
    (previous : Option Expr) → List Lexeme → Except TokenError (List Expr)
  | _, [] => .ok []
  | previous, l :: ls => do
    let ts ← l.tokens text argument previous
    return ts ++ (← tokensFrom text argument (ts.getLast?.or previous) ls)

def inOrder (strict : Bool) (text : Text) (ts : List Expr) : Except TokenError (List Expr) :=
  match if strict then findFault ts else none with
  | some k => .error ⟨.misplaced k, text⟩
  | none => .ok ts

/-- The tokens of a text whose calls nest less than `levels` deep. -/
def tokensWithin (strict : Bool) (limit : Int) : (levels : Nat) → Text → Except TokenError (List Expr)
  | 0, text => .error ⟨.tooDeep limit, text⟩
  | levels + 1, text => do
    let argument (a : Text) := return treeOfTokens limit (← tokensWithin strict limit levels a)
    inOrder strict text (← tokensFrom text argument none (lexemes text))

/-- The tokens of a text that stands inside `depth` calls, of which `limit` may be open. -/
def tokenize (strict : Bool) (limit depth : Int) (text : Text) : Except TokenError (List Expr) :=
  tokensWithin strict limit (limit - depth + 1).toNat text

def treeOf (strict : Bool) (limit : Int) (text : Text) : Except TokenError Expr :=
  return treeOfTokens limit (← tokenize strict limit 0 text)

end Calculator
