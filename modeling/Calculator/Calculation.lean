import Calculator.Display
import Calculator.Expr.Evaluation
import Calculator.Token.Sequence

/-!
# Calculation

* `substituteAnswer` : every `ans` in a text replaced by the previous answer.
* `Setup` : the angle mode, the strictness and the nesting limit of a calculation.
* `Setup.evaluate` : what a text gives at an `x`.
* `calculate` : the text shown for a problem: its value at zero, or what kept it from having one.
-/

namespace Calculator

set_option autoImplicit false

open Calculator.Number (readFloat?)

/-- `text` with every `ans` replaced. -/
def substituteAnswer (answer : Text) : (text : Text) → Text
  | 'a' :: 'n' :: 's' :: rest => answer ++ substituteAnswer answer rest
  | c :: rest => c :: substituteAnswer answer rest
  | [] => []

def failureText : Text := "Error1".toList

def noResultText : Text := "Error2".toList

structure Setup where
  angleMode : AngleMode
  /-- Half-typed input is tolerated, in order to follow it with a graph. -/
  graphing : Bool
  /-- The nesting limit. -/
  maxDepth : Int
deriving DecidableEq, Repr

def defaultMaxDepth : Int := 64

namespace Setup

def treeOf (s : Setup) (text : Text) : Except TokenError Expr := Calculator.treeOf (!s.graphing) s.maxDepth text

def evaluate (s : Setup) (x : Float) (text : Text) : Except TokenError Outcome :=
  return (← s.treeOf text).evaluate x s.angleMode

/-- The value of a tree at `x`; the trees of texts can always be evaluated. -/
def value? (s : Setup) (x : Float) (tree : Expr) : Option Float :=
  match tree.evaluate x s.angleMode with
  | .ok v? => v?
  | .error _ => none

def finiteValue? (s : Setup) (x : Float) (tree : Expr) : Option Float := (s.value? x tree).filter Float.isFinite

end Setup

def isFiniteNumeral (t : Text) : Bool := (readFloat? t).any Float.isFinite

/-- What a tree gives, `text` standing for a value that is not there. -/
def shownValue (s : Setup) (text : Text) (tree : Expr) : Text :=
  if tree.isFailure then failureText
  else
    match s.finiteValue? 0.0 tree with
    | some v => Display.text v
    | none => text

/-- The text shown for `problem`, in which `ans` means the previous answer. A result that merely repeats the problem is
no result, unless it is a finite number. -/
def calculate (s : Setup) (answer problem : Text) : Text :=
  let text := substituteAnswer answer problem
  let shown :=
    match s.treeOf text with
    | .error e => e.kind.text
    | .ok tree => shownValue s text tree
  if shown = text ∧ !isFiniteNumeral text then noResultText else shown

end Calculator
