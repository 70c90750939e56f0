import Calculator.Function.Basic

/-!
# The layout of the window

* `Button` : a button, its place, and the text that a click on it presses.
* `functionPanel`, `buttonGrid` : the buttons, in order.
* `mainColumn` : the parts of the window from top to bottom, by the share of the height they take.
-/

namespace Calculator

set_option autoImplicit false

structure Button where
  label : Text
  row : Nat
  column : Nat
  /-- What a click presses. -/
  value : Text
  /-- Whether it is pressed again and again while it is held down. -/
  repeats : Bool
deriving DecidableEq, Repr

namespace Layout

def title : Text := "Calculator Plus".toList

def size : Nat × Nat := (520, 720)

/-- History, display, label, function panel and buttons; a part without a share is as high as it has to be. -/
def mainColumn : List (Option Nat) := [some 1, none, none, some 2, some 3]

/-! ## Functions -/

/-- The call of a function without its arguments. -/
def callTemplate (f : NamedFunction) : Text := f.name ++ (if f.arity = 2 then "(,)".toList else "()".toList)

def functionRows : List (List NamedFunction) :=
  [[.sin, .cos, .tan, .csc, .sec, .cot],
    [.asin, .acos, .atan, .acsc, .asec, .acot],
    [.log, .ln, .abs, .floor, .ceil, .round],
    [.logb, .root, .mod, .hypot, .nPr, .nCr]]

def functionPanel : List Button :=
  functionRows.zipIdx.flatMap fun (fs, row) =>
    fs.zipIdx.map fun (f, column) => ⟨f.name, row, column, callTemplate f, false⟩

/-! ## Other buttons -/

def buttonRows : List (List Text) :=
  [["⚙", "📋", "←", "→", "Ans", "x"],
    ["⌫", "C", "7", "8", "9", "÷"],
    ["EE", ",", "4", "5", "6", "⋅"],
    ["(", ")", "1", "2", "3", "-"],
    ["√", "^", "0", ".", "=", "+"],
    ["e", "π", "Save"]].map fun labels => labels.map String.toList

/-- The buttons that are pressed again and again while they are held down. -/
def repeating : List Text :=
  ["0", "1", "2", "3", "4", "5", "6", "7", "8", "9", "⌫", "←", "→"].map String.toList

def buttonGrid : List Button :=
  buttonRows.zipIdx.flatMap fun (labels, row) =>
    labels.zipIdx.map fun (label, column) => ⟨label, row, column, label, repeating.contains label⟩

def buttons : List Button := functionPanel ++ buttonGrid

def button? (label : Text) : Option Button := buttons.find? fun b => b.label = label

end Layout

end Calculator
