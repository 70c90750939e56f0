import Calculator.Window.Basic

/-!
# Events of the window

* `Window.Event` : what can happen to a window: pointer and timer, keys, the clipboard, and the two ends of a calculation.
* `Window.after` : the window after an event.
-/

namespace Calculator.Window

set_option autoImplicit false

inductive Event where
  /-- The pointer or the timer; `user` is what the user does if a dialog opens. -/
  | pointer (event : Hold.Event) (user : List Dialog.Action)
  /-- A key goes down that writes a text. -/
  | keyDown (key : Key) (text : Text)
  | keyUp (key : Key)
  /-- A text is copied elsewhere. -/
  | copied (text : Text)
  /-- A calculation that was started ends. -/
  | calculated
  /-- The first message on its way arrives. -/
  | delivered

def pressSome (user : List Dialog.Action) (w : Window) : Option Text → Window × Reaction
  | none => (w, .quiet)
  | some t => w.press user t

def after (w : Window) : Event → Window × Reaction
  | .pointer e user =>
    let (hold, t?) := w.hold.after e
    pressSome user { w with hold := hold } t?
  | .keyDown key t => pressSome [] { w with shift := w.shift || key = .shift } (key.text? t)
  | .keyUp key => ({ w with shift := w.shift && key ≠ .shift }, .quiet)
  | .copied t => ({ w with clipboard := t }, .quiet)
  | .calculated => (w.calculate, .quiet)
  | .delivered =>
    let (w, notices) := w.deliver
    (w, { Reaction.quiet with notices := notices })

end Calculator.Window
