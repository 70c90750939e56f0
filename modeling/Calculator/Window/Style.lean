import Calculator.Text.Basic

/-!
# Style sheets

The style sheets of the window, of its buttons, of the dialog and of message boxes, in light and in dark colours.
-/

namespace Calculator.Style

set_option autoImplicit false

def window (dark : Bool) : Text :=
  if dark then "background-color: #121212; color: white;".toList else []

def displayLine (dark : Bool) : Text :=
  if dark then "background-color: #121212; color: white; font-weight: bold;".toList else "font-weight: bold;".toList

/-- Every button but the one that calculates. -/
def button (dark : Bool) : Text :=
  if dark then "background-color: #121212; color: white; font-weight: bold;".toList else "font-weight: normal;".toList

/-- The button that calculates: red while a calculation runs, else blue, in light and in dark colours. -/
def calculateButton (running : Bool) : Text :=
  if running then "background-color: #FF0000; color: white; font-weight: bold;".toList
  else "background-color: #007bff; color: white; font-weight: bold;".toList

/-- One rule of a style sheet: a selector and its declarations in braces. -/
def rule (selector declarations : String) : Text :=
  selector.toList ++ " \x7b".toList ++ declarations.toList ++ ['\x7d']

def sheet (rules : List Text) : Text := List.intercalate [' '] rules

def dialog (dark : Bool) : Text :=
  if dark then
    sheet [rule "QDialog" "background-color: #121212;", rule "QLabel" "color: white;", rule "QCheckBox" "color: white;",
      rule "QComboBox" "background-color: #444444;color: white;",
      rule "QLineEdit" "background-color: #444444;color: white;border: 1px solid #666666;",
      rule "QDialogButtonBox QPushButton" "background-color: #666666;color: white;"]
  else []

def messageBox (dark : Bool) : Text :=
  if dark then
    sheet [rule "QMessageBox" " background-color: #121212; color: white; ", rule "QLabel" " color: white; ",
      rule "QPushButton" " background-color: #2e2e2e; color: white; border: 1px solid #444444; padding: 5px 15px; "]
  else []

end Calculator.Style
