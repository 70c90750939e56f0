import Calculator.Token.Tree

/-!
# The grammar of expressions

    expression := term (('+' | '-') term)*
    term := factor (('⋅' | '÷') factor)*
    factor := base ('^' factor)?
    base := call | number | 'π' | 'e' | 'x' | 'E' number | '(' expression ')' | ('_' | '√') base

The chains of the first two rules grow by one operand at their right end, so that their operators fold to the left.

* `Derivation` : the derivations from a level of the grammar.
* `Derivation.tokens`, `Derivation.tree` : the sequence that is derived, and the tree the derivation gives to it.
* `Derivation.nesting` : the greatest number of constructs open inside one another. Parentheses are such a construct,
  and so are the operand behind a sign and the right operand of a power.
* `Expr.readable`, `Expr.forAll` : no failure outside calls; a test of all nodes, those in calls included.
-/

namespace Calculator

set_option autoImplicit false

inductive Derivation : Level → Type where
  | ofTerm (t : Derivation .term) : Derivation .expression
  | sum (left : Derivation .expression) (op : Operator) (hop : op = .add ∨ op = .subtract)
      (right : Derivation .term) : Derivation .expression
  | ofFactor (f : Derivation .factor) : Derivation .term
  | product (left : Derivation .term) (op : Operator) (hop : op = .multiply ∨ op = .divide)
      (right : Derivation .factor) : Derivation .term
  | ofBase (b : Derivation .base) : Derivation .factor
  | power (b : Derivation .base) (exponent : Derivation .factor) : Derivation .factor
  | call (f : NamedFunction) (operand : Expr) : Derivation .base
  | call₂ (f : NamedFunction) (first second : Expr) : Derivation .base
  | number (value : Float) : Derivation .base
  | constant (op : Operator) (hop : op = .pi ∨ op = .euler) : Derivation .base
  | freeVariable : Derivation .base
  | powerOfTen (exponent : Float) : Derivation .base
  | parentheses (inner : Derivation .expression) : Derivation .base
  | signed (op : Operator) (hop : op = .negate ∨ op = .squareRoot) (operand : Derivation .base) : Derivation .base

namespace Derivation

def tokens {level : Level} : Derivation level → List Expr
  | ofTerm t => t.tokens
  | sum left op _ right => left.tokens ++ .bare op :: right.tokens
  | ofFactor f => f.tokens
  | product left op _ right => left.tokens ++ .bare op :: right.tokens
  | ofBase b => b.tokens
  | power b exponent => b.tokens ++ .bare .power :: exponent.tokens
  | call f operand => [.call f operand]
  | call₂ f first second => [.call₂ f first second]
  | number value => [.number value]
  | constant op _ => [.bare op]
  | freeVariable => [.bare .freeVariable]
  | powerOfTen exponent => [.bare .scientific, .number exponent]
  | parentheses inner => .bare .opening :: (inner.tokens ++ [.bare .closing])
  | signed op _ operand => .bare op :: operand.tokens

def tree {level : Level} : Derivation level → Expr
  | ofTerm t => t.tree
  | sum left op _ right => .binary left.tree op right.tree
  | ofFactor f => f.tree
  | product left op _ right => .binary left.tree op right.tree
  | ofBase b => b.tree
  | power b exponent => .binary b.tree .power exponent.tree
  | call f operand => .call f operand
  | call₂ f first second => .call₂ f first second
  | number value => .number value
  | constant op _ => .bare op
  | freeVariable => .name Operator.freeVariable.symbol
  | powerOfTen exponent => .unary .scientific (.number exponent)
  | parentheses inner => inner.tree
  | signed op _ operand => .unary op operand.tree

def nesting {level : Level} : Derivation level → Nat
  | ofTerm t => t.nesting
  | sum left _ _ right => max left.nesting right.nesting
  | ofFactor f => f.nesting
  | product left _ _ right => max left.nesting right.nesting
  | ofBase b => b.nesting
  | power b exponent => max b.nesting (exponent.nesting + 1)
  | parentheses inner => inner.nesting + 1
  | signed _ _ operand => operand.nesting + 1
  | _ => 0

end Derivation

namespace Expr

/-- No failure stands outside the calls. -/
def readable : Expr → Bool
  | failure _ => false
  | unary _ e => e.readable
  | binary l _ r => l.readable && r.readable
  | _ => true

/-- The test holds of every node, the nodes in arguments of calls included. -/
def forAll (p : Expr → Bool) : Expr → Bool
  | unary op e => p (unary op e) && e.forAll p
  | binary l op r => p (binary l op r) && l.forAll p && r.forAll p
  | call f e => p (call f e) && e.forAll p
  | call₂ f a b => p (call₂ f a b) && a.forAll p && b.forAll p
  | e => p e

/-- No node is a failure. -/
def intact (e : Expr) : Bool := e.forAll fun n => !n.isFailure

@[simp] theorem intact_unary (op : Operator) (e : Expr) : (unary op e).intact = e.intact := rfl

@[simp] theorem intact_binary (l : Expr) (op : Operator) (r : Expr) :
    (binary l op r).intact = (l.intact && r.intact) := rfl

@[simp] theorem intact_call (f : NamedFunction) (e : Expr) : (call f e).intact = e.intact := rfl

@[simp] theorem intact_call₂ (f : NamedFunction) (a b : Expr) : (call₂ f a b).intact = (a.intact && b.intact) := rfl

theorem readable_of_intact {e : Expr} (h : e.intact) : e.readable := by
  induction e with
  | unary op e ih => exact ih h
  | binary l op r ihl ihr =>
    simp only [intact_binary, Bool.and_eq_true] at h
    simp only [readable, Bool.and_eq_true]
    exact ⟨ihl h.1, ihr h.2⟩
  | failure k => exact nomatch h
  | _ => rfl

end Expr

namespace Derivation

theorem readable_tree {level : Level} (D : Derivation level) : D.tree.readable := by
  induction D with
  | sum _ _ _ _ ihl ihr | product _ _ _ _ ihl ihr | power _ _ ihl ihr => simp [tree, Expr.readable, ihl, ihr]
  | ofTerm _ ih | ofFactor _ ih | ofBase _ ih | parentheses _ ih | signed _ _ _ ih => simpa [tree, Expr.readable] using ih
  | _ => rfl

/-- What holds of every node of the tree holds of every node of the tokens that are no operators. -/
theorem forAll_token {p : Expr → Bool} {level : Level} (D : Derivation level) (h : D.tree.forAll p)
    (hop : ∀ op, p (.bare op)) {t : Expr} (ht : t ∈ D.tokens) : t.forAll p := by
  have bare : ∀ op, (Expr.bare op).forAll p := hop
  induction D with
  | sum l op _ r ihl ihr | product l op _ r ihl ihr | power l r ihl ihr =>
    simp only [tree, Expr.forAll, Bool.and_eq_true] at h
    simp only [tokens, List.mem_append, List.mem_cons] at ht
    rcases ht with ht | rfl | ht
    · exact ihl h.1.2 ht
    · exact bare _
    · exact ihr h.2 ht
  | ofTerm _ ih | ofFactor _ ih | ofBase _ ih => exact ih h ht
  | parentheses inner ih =>
    simp only [tokens, List.mem_cons, List.mem_append, List.not_mem_nil, or_false] at ht
    rcases ht with rfl | ht | rfl
    · exact bare _
    · exact ih h ht
    · exact bare _
  | signed op _ operand ih =>
    simp only [tree, Expr.forAll, Bool.and_eq_true] at h
    rcases List.mem_cons.1 ht with rfl | ht
    · exact bare _
    · exact ih h.2 ht
  | powerOfTen v =>
    simp only [tree, Expr.forAll, Bool.and_eq_true] at h
    simp only [tokens, List.mem_cons, List.not_mem_nil, or_false] at ht
    rcases ht with rfl | rfl
    · exact bare _
    · exact h.2
  | freeVariable =>
    obtain rfl := List.mem_singleton.1 ht
    exact bare _
  | _ =>
    obtain rfl := List.mem_singleton.1 ht
    exact h

end Derivation

end Calculator
