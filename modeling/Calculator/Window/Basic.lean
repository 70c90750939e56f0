import Calculator.Settings.Dialog
import Calculator.Window.Command
import Calculator.Window.Hold

/-!
# The window

* `View` : the texts of the window, as they were drawn last.
* `Window` : the session with its settings and files, the texts and colours on the screen, and the calculation that runs.
* `Window.start` : a new window.
* `Window.refresh` : draws the session.
* `Window.reload` : takes over the settings from the file.
* `Window.press` : what a pressed text does. While a calculation runs it does nothing.
* `Window.calculate`, `Window.receive` : a calculation ends in two steps: the session gets its result, and the message
  about it arrives.
-/

namespace Calculator

set_option autoImplicit false

open Calculator.Text (decimal)

/-! ## Texts on the screen -/

structure View where
  /-- The display with the mark of the cursor. -/
  line : Text
  /-- The rows of the history. -/
  rows : List Text
  /-- The angle mode, and the sizes of the graph and of the list of saved ones. -/
  label : Text
deriving DecidableEq, Repr

namespace View

def cursorMark : Char := '│'

def labelOf (s : Session) : Text :=
  let mode := s.setup.angleMode.name
  let graph := if s.points.isEmpty then [] else " | graph: ".toList ++ decimal s.points.length ++ " points".toList
  let saved := if s.saved.isEmpty then [] else " | saved: ".toList ++ decimal s.saved.length
  mode ++ graph ++ saved

def ofSession (s : Session) : View := ⟨s.left ++ cursorMark :: s.right, s.history, labelOf s⟩

end View

/-! ## State -/

inductive Message where
  | result (text : Text)
  | failure (report : Report)
deriving DecidableEq, Repr

structure Window where
  store : Store
  /-- The settings as loaded last. -/
  settings : Settings
  session : Session
  view : View
  /-- The colours on the screen are the dark ones. -/
  dark : Bool
  /-- A calculation was started, and its message has not arrived. -/
  running : Bool
  /-- Calculations that were started and have not ended. -/
  started : Nat
  /-- Messages on their way, in order. -/
  messages : List Message
  hold : Hold
  shift : Bool
  clipboard : Text

/-- What an event shows beside the state of the window. -/
structure Reaction where
  notices : List Notice
  /-- The dialog as it opened, and the whole visit to it. -/
  visit : Option (Dialog × Visit)
  fault : Option SettingsFault

def Reaction.quiet : Reaction := ⟨[], none, none⟩

namespace Window

def refresh (w : Window) : Window := { w with view := .ofSession w.session }

def recolour (w : Window) : Window := { w with dark := w.settings.isDark }

def start (s : Store) : Except SettingsFault Window := do
  let settings ← s.loadSettings
  let session ← Session.start settings
  return ⟨s, settings, session, .ofSession session, settings.isDark, false, 0, [], .idle, false, []⟩

/-! ## Settings -/

/-- The value of a setting; tables that were loaded have all of those in use. -/
def setting (w : Window) (key : Text) : Json := (w.settings.get? key).getD .null

/-- Takes over the settings from the file: the nesting limit, the angle mode, the tolerance, the colours. A fault ends this
and leaves what was changed before it. -/
def reload (w : Window) : Window × Option SettingsFault :=
  match w.store.loadSettings with
  | .error e => (w, some e)
  | .ok settings =>
    let w := { w with settings := settings }
    match Session.maxDepthOf (w.setting Settings.maxDepthKey) with
    | .error e => (w, some e)
    | .ok limit =>
      let w := { w with session := w.session.setMaxDepth limit }
      match w.session.setAngleMode (w.setting Settings.angleModeKey) with
      | .error e => (w, some e)
      | .ok session =>
        let session := session.setGraphing (w.setting Settings.graphingKey).holds
        ((recolour { w with session := session }).refresh, none)

/-- Opens the dialog of the settings for a user and takes over the settings when it is closed. -/
def visitSettings (user : List Dialog.Action) (w : Window) : Window × Reaction :=
  match Dialog.opened w.store with
  | .error e => (w, ⟨[], none, some e⟩)
  | .ok d =>
    let v := (Visit.start w.store d).run user
    let (w, fault) := reload { w with store := v.store }
    (w, ⟨v.notices, some (d, v), fault⟩)

/-! ## Commands -/

def edit (f : Session → Session) (w : Window) : Window := refresh { w with session := f w.session }

/-- Inserts a text that was copied, without the blanks around it. -/
def paste (t : Text) (s : Session) : Session := if t.isEmpty then s else s.insert (Text.strip t)

/-- Carries out a command; `user` is what the user does if a dialog opens. -/
def carryOut (user : List Dialog.Action) (w : Window) : Command → Window × Reaction
  | .openSettings => w.visitSettings user
  | .useClipboard =>
    let w := if w.shift then w.edit (paste w.clipboard) else refresh { w with clipboard := w.session.display }
    (w, .quiet)
  | .moveCursor offset => (w.edit (·.moveCursor offset), .quiet)
  | .deleteBack => (w.edit Session.deleteBack, .quiet)
  | .clear => (w.edit Session.clear, .quiet)
  | .saveGraph => (w.edit (·.saveGraph.1), .quiet)
  | .calculate => ({ w with running := true, started := w.started + 1 }, .quiet)
  | .enter t => (w.edit (·.press t), .quiet)

/-- Presses a text; while a calculation runs nothing happens. -/
def press (user : List Dialog.Action) (w : Window) (t : Text) : Window × Reaction :=
  if w.running then (w, .quiet) else w.carryOut user (.ofText t)

/-! ## Calculations -/

/-- A calculation that was started puts its result into the session and sends a message. -/
def calculate (w : Window) : Window :=
  match w.started with
  | 0 => w
  | n + 1 =>
    let session := w.session.calculate
    { w with session := session, started := n, messages := w.messages ++ [.result session.lastResult] }

/-- The message of a calculation arrives: the session is drawn, after a message box about a failure. -/
def receive (w : Window) (m : Message) : Window × List Notice :=
  let notices := match m with
    | .result _ => []
    | .failure r => [.ofReport r (Style.messageBox w.settings.isDark)]
  (refresh { w with running := false }, notices)

def deliver (w : Window) : Window × List Notice :=
  match w.messages with
  | [] => (w, [])
  | m :: rest => receive { w with messages := rest } m

end Window

end Calculator
