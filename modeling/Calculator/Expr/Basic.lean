import Calculator.Operator
import Calculator.Function.Basic
import Calculator.Fault

/-!
# Expressions

Tokens and trees are of one type: a call is a finished subtree before the tokens around it are put into a tree.

* `Expr` : the nodes.
* `Expr.operator?` : the operator of a bare token.
* `Expr.isValue` : a value ends with this token.
* `Expr.size` : the number of nodes.
* `total` : the sum of the sizes of what a list holds.
-/

namespace Calculator

set_option autoImplicit false

inductive Expr where
  | number (value : Float)
  /-- The free variable. -/
  | name (text : Text)
  /-- An operator by itself; constants stay in a tree in this form. -/
  | bare (op : Operator)
  | unary (op : Operator) (operand : Expr)
  | binary (left : Expr) (op : Operator) (right : Expr)
  | call (f : NamedFunction) (operand : Expr)
  | call₂ (f : NamedFunction) (first second : Expr)
  /-- A part of the input that could not be understood. -/
  | failure (fault : ParsingFault)
  /-- A node of no kind, which cannot be evaluated. -/
  | hole
deriving Inhabited

namespace Expr

def operator? : Expr → Option Operator
  | bare op => some op
  | _ => none

def isValue : Expr → Bool
  | number _ | name _ | call .. | call₂ .. => true
  | bare op => op.endsValue
  | _ => false

def isFailure : Expr → Bool
  | failure _ => true
  | _ => false

def size : Expr → Nat
  | unary _ e | call _ e => e.size + 1
  | binary l _ r => l.size + r.size + 1
  | call₂ _ a b => a.size + b.size + 1
  | _ => 1

end Expr

section Total

variable {α : Type} (size : α → Nat)

/-- The sum of the sizes of the elements. -/
def total : List α → Nat
  | [] => 0
  | a :: rest => size a + total rest

@[simp] theorem total_nil : total size [] = 0 := rfl

@[simp] theorem total_cons (a : α) (rest : List α) : total size (a :: rest) = size a + total size rest := rfl

@[simp] theorem total_append (l m : List α) : total size (l ++ m) = total size l + total size m := by
  induction l with
  | nil => simp
  | cons a l ih => simp [ih, Nat.add_assoc]

end Total

end Calculator
