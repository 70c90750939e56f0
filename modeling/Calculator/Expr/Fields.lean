import Calculator.Expr.Basic

/-!
# Kinds and fields of expressions

To compare, to hash and to write a tree it is enough to know of each node its kind and its fields, in a fixed order.

* `Label` : a field that is no subtree.
* `Field` : a label or a subtree.
* `Kind`, `Expr.kind`, `Expr.fields` : the kind of a node and its fields.
* `Expr.weight_fields_lt` : a node weighs more than its fields.
-/

namespace Calculator

set_option autoImplicit false

/-- The kind of a node, or a field of it that is no subtree. -/
inductive Label where
  /-- The name of a kind or of a variable. -/
  | text (t : Text)
  | number (value : Float)
  | operator (op : Operator)
  | function (f : NamedFunction)
  | fault (k : ParsingFault)

/-- Numbers are equal as numbers, so that `0.0` equals `-0.0` and what is no number equals nothing. -/
def Label.equals : Label → Label → Bool
  | text s, text t => s = t
  | number u, number v => u == v
  | operator o, operator p => o = p
  | function f, function g => f = g
  | fault j, fault k => j = k
  | _, _ => false

inductive Field where
  | label (l : Label)
  | tree (e : Expr)

/-- What is left to be done for a field: every node is worth more than its fields. -/
def Field.weight : Field → Nat
  | label _ => 1
  | tree e => 2 * e.size

inductive Kind where
  | number | name | bare | unary | binary | call | call₂ | failure | hole
deriving DecidableEq, Repr

/-- What nodes of the kind are called. -/
def Kind.text : Kind → Text
  | number => "Number".toList
  | name => "Variable".toList
  | bare => "Operation".toList
  | unary => "UnaryOperation".toList
  | binary => "BinaryOperation".toList
  | call => "FunctionCall".toList
  | call₂ => "FunctionCall2".toList
  | failure => "ErrorNode".toList
  | hole => "Expression".toList

def Kind.all : List Kind := [.number, .name, .bare, .unary, .binary, .call, .call₂, .failure, .hole]

theorem Kind.mem_all (k : Kind) : k ∈ all := by cases k <;> decide

/-- No two kinds are called alike. -/
theorem Kind.eq_of_text_eq {k l : Kind} (h : k.text = l.text) : k = l := by
  have hall : ∀ k ∈ all, ∀ l ∈ all, k.text = l.text → k = l := by decide +kernel
  exact hall k k.mem_all l l.mem_all h

namespace Expr

def kind : Expr → Kind
  | number _ => .number
  | name _ => .name
  | bare _ => .bare
  | unary .. => .unary
  | binary .. => .binary
  | call .. => .call
  | call₂ .. => .call₂
  | failure _ => .failure
  | hole => .hole

def fields : Expr → List Field
  | number v => [.label (.number v)]
  | name t => [.label (.text t)]
  | bare op => [.label (.operator op)]
  | unary op e => [.label (.operator op), .tree e]
  | binary l op r => [.tree l, .label (.operator op), .tree r]
  | call f e => [.label (.function f), .tree e]
  | call₂ f a b => [.label (.function f), .tree a, .tree b]
  | failure k => [.label (.fault k)]
  | hole => []

theorem weight_fields_lt (e : Expr) : total Field.weight e.fields < 2 * e.size := by
  cases e <;> simp [fields, Field.weight, size] <;> omega

end Expr

end Calculator
