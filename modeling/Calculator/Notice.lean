import Calculator.Fault

/-!
# Message boxes

* `Notice` : a message box about something that failed.
* `Notice.ofReport` : the one about a failed calculation.
-/

namespace Calculator

set_option autoImplicit false

structure Notice where
  title : Text
  text : Text
  /-- What stands below the text. -/
  details : Option Text
  /-- The style sheet, if the box has one of its own. -/
  style : Option Text
deriving DecidableEq, Repr

namespace Notice

def unknownText : Text := "Unknown error".toList

/-- A failed calculation: its group as the title, the general wording of its code, and below them its own message and the
expression. -/
def ofReport (r : Report) (style : Text) : Notice where
  title := category r.code
  text := "Error ".toList ++ r.code ++ ": ".toList ++ (codeMessage? r.code).getD unknownText
  details := some ("Details: ".toList ++ r.message ++ "\nEquation: ".toList ++ r.equation.getD "None".toList)
  style := some style

end Notice

end Calculator
