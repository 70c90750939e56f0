import Calculator.Window.Layout

/-!
# Buttons that are held down

* `Hold` : which button is held down, and the timer that presses it again and again.
* `Hold.after` : what an event of the pointer or of the timer does, and the text that it presses.

A click that ends a hold presses nothing, since the timer has done so already.
-/

namespace Calculator

set_option autoImplicit false

structure Timer where
  running : Bool
  /-- In milliseconds. -/
  interval : Nat
deriving DecidableEq, Repr

structure Hold where
  timer : Timer
  /-- What the button presses that is held down. -/
  held : Option Text
  /-- The timer has pressed it. -/
  wasHeld : Bool
deriving DecidableEq, Repr

namespace Hold

/-- The time before the first press, in milliseconds. -/
def initialDelay : Nat := 500

/-- The time between later presses, in milliseconds. -/
def repeatInterval : Nat := 100

def idle : Hold := ⟨⟨false, 0⟩, none, false⟩

inductive Event where
  | pressed (button : Button)
  | released (button : Button)
  | clicked (button : Button)
  | tick
deriving DecidableEq, Repr

def after (h : Hold) : Event → Hold × Option Text
  | .pressed b => (if b.repeats then ⟨⟨true, initialDelay⟩, some b.value, false⟩ else h, none)
  | .released b => (if b.repeats then { h with timer := { h.timer with running := false }, held := none } else h, none)
  | .clicked b => if h.wasHeld then ({ h with wasHeld := false }, none) else (h, some b.value)
  | .tick =>
    if h.timer.running then
      let interval := if h.timer.interval = initialDelay then repeatInterval else h.timer.interval
      ({ h with timer := { h.timer with interval := interval }, wasHeld := true }, h.held)
    else (h, none)

end Hold

end Calculator
