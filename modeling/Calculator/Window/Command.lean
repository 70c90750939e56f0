import Calculator.Session
import Calculator.Text.Classes

/-!
# Commands

* `Command` : what a pressed text asks for.
* `Command.ofText` : the commands of the buttons that do not just insert their text.
* `Key`, `Key.text?` : the keys with a meaning of their own, and the text that a key presses.
-/

namespace Calculator

set_option autoImplicit false

inductive Command where
  | openSettings
  /-- Copies the display; with Shift, inserts what was copied. -/
  | useClipboard
  | moveCursor (offset : Int)
  | deleteBack
  | clear
  | saveGraph
  | calculate
  /-- Inserts a text as a button does. -/
  | enter (text : Text)
deriving DecidableEq, Repr

namespace Command

def table : List (Text × Command) :=
  [("⚙".toList, openSettings),
    ("📋".toList, useClipboard),
    ("←".toList, moveCursor (-1)),
    ("→".toList, moveCursor 1),
    ("⌫".toList, deleteBack),
    ("C".toList, clear),
    ("Ans".toList, enter Session.answerSign),
    ("EE".toList, enter "E".toList),
    ("Save".toList, saveGraph),
    ("=".toList, calculate)]

/-- The command of a pressed text; a text without one is inserted. -/
def ofText (t : Text) : Command := (table.lookup t).getD (enter t)

end Command

inductive Key where
  | shift
  | enter
  | backspace
  | left
  | right
  | escape
  | other
deriving DecidableEq, Repr

/-- The text that a key presses, if it writes `t`: a key without a meaning of its own presses what it writes, as far as that
can be seen. -/
def Key.text? (t : Text) : Key → Option Text
  | shift => none
  | enter => some "=".toList
  | backspace => some "⌫".toList
  | left => some "←".toList
  | right => some "→".toList
  | escape => some "C".toList
  | other => if !t.isEmpty && t.all Text.isPrintable then some t else none

end Calculator
