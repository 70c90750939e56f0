import Calculator.Expr.Fields
import Calculator.Number.Shortest
import Calculator.Text.Quoted

/-!
# Expressions as texts

* `Label.rendered` : a field that is no subtree.
* `Piece`, `Expr.pieces` : a node as the texts and subtrees it is written with.
* `Expr.render` : the text of a tree. The pieces still to be written are kept in a list, so that a chain may be as deep
  as it is long.
* `Expr.rendering` : the same by plain recursion.
-/

namespace Calculator

set_option autoImplicit false

open Calculator.Text (quoted)
open Calculator.Number (shortestText)

/-- A member of a family of names, each of which stands for a text. -/
def memberText (family label text : Text) : Text :=
  '<' :: family ++ '.' :: label ++ ':' :: ' ' :: quoted text ++ ['>']

def Operator.rendered (op : Operator) : Text := memberText "Operator".toList op.label op.symbol

def NamedFunction.rendered (f : NamedFunction) : Text := memberText "Function".toList f.label f.name

def Label.rendered : Label → Text
  | text t => quoted t
  | number v => shortestText v
  | operator op => op.rendered
  | function f => f.rendered
  | fault k => memberText "ParsingErrorKind".toList k.label k.text

inductive Piece where
  | text (t : Text)
  | tree (e : Expr)

/-- The weight of what is to be written: every node is worth more than its pieces. -/
def Piece.weight : Piece → Nat
  | text _ => 1
  | tree e => 8 * e.size

def Field.piece : Field → Piece
  | label l => .text l.rendered
  | tree e => .tree e

def comma : Text := [',', ' ']

/-- The name of a kind with fields in parentheses. -/
def enclosed (kind : Kind) (fields : List Text) : Text := kind.text ++ '(' :: comma.intercalate fields ++ [')']

namespace Expr

/-- A node as it is written. The nodes of operators and failures show the text they stand for. -/
def pieces : Expr → List Piece
  | bare op => [.text (enclosed .bare [quoted op.symbol])]
  | failure k => [.text (enclosed .failure [quoted k.text])]
  | e => .text (e.kind.text ++ ['(']) :: (e.fields.map Field.piece).intersperse (.text comma) ++ [.text [')']]

theorem weight_pieces_lt (e : Expr) : total Piece.weight e.pieces < 8 * e.size := by
  cases e <;> simp [pieces, fields, Field.piece, Piece.weight, size] <;> omega

end Expr

/-- Writes the pieces in order behind what is `written`, which is kept backwards. -/
def writePieces (written : Text) : List Piece → Text
  | [] => written.reverse
  | .text t :: rest => writePieces (t.reverseAux written) rest
  | .tree e :: rest => writePieces written (e.pieces ++ rest)
termination_by pieces => total Piece.weight pieces
decreasing_by
  · simp [Piece.weight]
  · have := e.weight_pieces_lt
    simpa [Piece.weight] using this

namespace Expr

def render (e : Expr) : Text := writePieces [] [.tree e]

/-- The text of a tree, node by node. -/
def rendering : Expr → Text
  | number v => enclosed .number [shortestText v]
  | name t => enclosed .name [quoted t]
  | bare op => enclosed .bare [quoted op.symbol]
  | unary op e => enclosed .unary [op.rendered, e.rendering]
  | binary l op r => enclosed .binary [l.rendering, op.rendered, r.rendering]
  | call f e => enclosed .call [f.rendered, e.rendering]
  | call₂ f a b => enclosed .call₂ [f.rendered, a.rendering, b.rendering]
  | failure k => enclosed .failure [quoted k.text]
  | hole => enclosed .hole []

end Expr

end Calculator
