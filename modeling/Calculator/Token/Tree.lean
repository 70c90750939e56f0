import Calculator.Expr.Basic

/-!
# From tokens to a tree

An expression is a sum of terms, a term a product of factors, a factor a base or a base to the power of a factor. A base
is a number, a call, a constant, the variable, a power of ten, an expression in parentheses, or a base behind a minus or
a root. What fits nowhere becomes a failure in the tree and is not taken.

* `Reading` : a tree and the tokens left, which end the tokens given.
* `Level`, `readAt` : reading at a level, with so many constructs left to open inside one another.
* `treeOfTokens` : the tree of a whole sequence.
-/

namespace Calculator

set_option autoImplicit false

/-- A tree read off the beginning of `ts`, and the rest of `ts`. -/
structure Reading (ts : List Expr) where
  tree : Expr
  rest : List Expr
  suffix : rest <:+ ts

namespace Reading

def position {ts : List Expr} (r : Reading ts) : Nat := ts.length - r.rest.length

def extend {ts us : List Expr} (r : Reading ts) (tree : Expr) (h : ts <:+ us) : Reading us :=
  ⟨tree, r.rest, r.suffix.trans h⟩

def first {t : Expr} {ts : List Expr} (tree : Expr) : Reading (t :: ts) := ⟨tree, ts, List.suffix_cons ..⟩

def behind {t : Expr} {ts : List Expr} (r : Reading ts) (tree : Expr) : Reading (t :: ts) :=
  r.extend tree (List.suffix_cons ..)

end Reading

abbrev Reader := (ts : List Expr) → Reading ts

def refuse (fault : ParsingFault) : Reader := fun ts => ⟨.failure fault, ts, List.suffix_rfl⟩

inductive Level where
  | expression
  | term
  | factor
  | base
deriving DecidableEq, Repr

/-! ## One level of nesting

`nested` reads inside parentheses, behind a sign and behind the operator of powers. -/

/-- Closes a parenthesis, or fails without taking anything more. -/
def closeParenthesis {ts : List Expr} (inner : Reading ts) : Reading ts :=
  match _h : inner.rest with
  | .bare .closing :: rest => ⟨inner.tree, rest, (List.suffix_cons ..).trans (_h ▸ inner.suffix)⟩
  | _ => ⟨.failure .unmatchedParenthesis, inner.rest, inner.suffix⟩

/-- The power of ten of the number that begins `ts`. -/
def readPowerOfTen : Reader
  | .number v :: ts => ⟨.unary .scientific (.number v), ts, List.suffix_cons ..⟩
  | ts => refuse .unexpectedToken ts

def readBase (nested : Level → Reader) : Reader
  | [] => refuse .unexpectedToken []
  | t :: ts =>
    match t with
    | .number _ | .call .. | .call₂ .. => .first t
    | .bare .opening =>
      let r := closeParenthesis (nested .expression ts)
      r.behind r.tree
    | .bare .scientific =>
      let r := readPowerOfTen ts
      r.behind r.tree
    | .bare .pi | .bare .euler => .first t
    | .bare .freeVariable => .first (.name Operator.freeVariable.symbol)
    | .bare .negate =>
      let r := nested .base ts
      r.behind (.unary .negate r.tree)
    | .bare .squareRoot =>
      let r := nested .base ts
      r.behind (.unary .squareRoot r.tree)
    | t => refuse .unexpectedToken (t :: ts)

def readFactor (nested : Level → Reader) : Reader := fun ts =>
  let left := readBase nested ts
  match _h : left.rest with
  | .bare .power :: rest =>
    let right := nested .factor rest
    right.extend (.binary left.tree .power right.tree) ((List.suffix_cons ..).trans (_h ▸ left.suffix))
  | _ => left

/-- Goes on with operators of one kind and their right operands, each joined to all that stands left of it. -/
def chain (operand : Reader) (continues : Operator → Bool) (left : Expr) (ts : List Expr) : Reading ts :=
  match ts with
  | .bare op :: rest =>
    if continues op then
      let right := operand rest
      let all := chain operand continues (.binary left op right.tree) right.rest
      all.extend all.tree (right.suffix.trans (List.suffix_cons ..))
    else ⟨left, _, List.suffix_rfl⟩
  | ts => ⟨left, ts, List.suffix_rfl⟩
termination_by ts.length
decreasing_by
  have := (operand rest).suffix.length_le
  simp; omega

/-- Operands of one kind, with operators between them. -/
def readChain (operand : Reader) (continues : Operator → Bool) : Reader := fun ts =>
  let first := operand ts
  let all := chain operand continues first.tree first.rest
  all.extend all.tree first.suffix

def readTerm (nested : Level → Reader) : Reader :=
  readChain (readFactor nested) fun op => op.precedence == Operator.multiply.precedence

def readExpression (nested : Level → Reader) : Reader :=
  readChain (readTerm nested) fun op => op.precedence == Operator.add.precedence

def Level.read (nested : Level → Reader) : Level → Reader
  | expression => readExpression nested
  | term => readTerm nested
  | factor => readFactor nested
  | base => readBase nested

/-! ## All levels of nesting -/

/-- Reads with at most `depth` constructs open inside one another. -/
def readAt : (depth : Nat) → Level → Reader
  | 0, level => level.read fun _ => refuse .unexpectedToken
  | depth + 1, level => level.read (readAt depth)

/-- The tree of the whole sequence; tokens left over make it a failure. -/
def treeOfTokens (limit : Int) (ts : List Expr) : Expr :=
  let r := readAt limit.toNat .expression ts
  if r.rest.isEmpty then r.tree else .failure .unexpectedToken

end Calculator
