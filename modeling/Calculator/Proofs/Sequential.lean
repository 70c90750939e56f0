import Calculator.Proofs.Except
import Calculator.Window.Event

/-!
# One calculation at a time

A calculation runs beside the window. It may take its time to put the result into the session, and the message about it
may take longer; meanwhile buttons, keys and the timer go on. While one runs nothing else is carried out, and so any
interleaving is as good as carrying out one action after another.

* `Contents` : what the window keeps: files, settings, session, clipboard. `Window.contents` reads it off.
* `Action`, `Contents.act` : what an event asks for, and what it does when nothing else goes on.
* `Window.accepts`, `Window.accepted` : the action that a window takes from an event, and those of a run of events.
* `Phase` : how far a calculation has come, and what the contents are worth in sequence.
* `contents_carryOut` : a command does to the contents of a window what it does in sequence.
* `Phase.after`, `Phase.run` : an event, and a run of events, in sequence.
* `runs_one_calculation_at_a_time` : any run of a new window.
-/

namespace Calculator

set_option autoImplicit false

/-! ## In sequence -/

/-- What a window keeps. -/
structure Contents where
  store : Store
  settings : Settings
  session : Session
  clipboard : Text

/-- What an event asks for. -/
inductive Action where
  /-- A text is pressed, by a user of the dialogs that it opens, with the shift key up or down. -/
  | press (text : Text) (user : List Dialog.Action) (shift : Bool)
  /-- A text is copied elsewhere. -/
  | copied (text : Text)

def Window.contents (w : Window) : Contents := ⟨w.store, w.settings, w.session, w.clipboard⟩

namespace Contents

/-- A window with these contents, in which nothing goes on. -/
def window (c : Contents) : Window :=
  ⟨c.store, c.settings, c.session, .ofSession c.session, c.settings.isDark, false, 0, [], .idle, false, c.clipboard⟩

def carryOut (c : Contents) (user : List Dialog.Action) (shift : Bool) : Command → Contents
  | .openSettings => (c.window.visitSettings user).1.contents
  | .useClipboard =>
    if shift then { c with session := Window.paste c.clipboard c.session } else { c with clipboard := c.session.display }
  | .moveCursor offset => { c with session := c.session.moveCursor offset }
  | .deleteBack => { c with session := c.session.deleteBack }
  | .clear => { c with session := c.session.clear }
  | .saveGraph => { c with session := c.session.saveGraph.1 }
  | .calculate => { c with session := c.session.calculate }
  | .enter t => { c with session := c.session.press t }

def act (c : Contents) : Action → Contents
  | .press t user shift => c.carryOut user shift (.ofText t)
  | .copied t => { c with clipboard := t }

end Contents

/-! ## Side by side -/

namespace Window

/-- The action that a window takes from an event; while a calculation runs it takes none from pointer, timer and keys. -/
def accepts (w : Window) : Event → Option Action
  | .pointer e user => if w.running then none else (w.hold.after e).2.map (.press · user w.shift)
  | .keyDown key t => if w.running then none else (key.text? t).map (.press · [] w.shift)
  | .copied t => some (.copied t)
  | .keyUp _ | .calculated | .delivered => none

def run (w : Window) : List Event → Window
  | [] => w
  | e :: es => (w.after e).1.run es

def accepted (w : Window) : List Event → List Action
  | [] => []
  | e :: es => (w.accepts e).toList ++ (w.after e).1.accepted es

/-- How far calculations have come: whether one runs, how many have not ended, and what those that ended say. -/
def progress (w : Window) : Bool × Nat × List Message := (w.running, w.started, w.messages)

/-- The event comes from the user of this window: a button, a key or the timer of a held button. -/
def Event.isInput : Event → Bool
  | .pointer .. | .keyDown .. | .keyUp _ => true
  | _ => false

end Window

/-! ## Commands -/

section Commands

variable {w : Window}

/-- Taking over the settings from the file needs nothing but the contents. -/
theorem contents_reload {w w' : Window} (h : w.contents = w'.contents) : w.reload.1.contents = w'.reload.1.contents := by
  obtain ⟨store, settings, session, view, dark, running, started, messages, hold, shift, clipboard⟩ := w
  obtain ⟨store', settings', session', view', dark', running', started', messages', hold', shift', clipboard'⟩ := w'
  obtain ⟨rfl, rfl, rfl, rfl⟩ := Contents.mk.inj h
  unfold Window.reload
  simp only [Window.setting]
  split
  · rfl
  · split
    · rfl
    · split
      · rfl
      · rfl

theorem contents_visitSettings {w w' : Window} (h : w.contents = w'.contents) (user : List Dialog.Action) :
    (w.visitSettings user).1.contents = (w'.visitSettings user).1.contents := by
  have hstore : w.store = w'.store := congrArg Contents.store h
  unfold Window.visitSettings
  rw [hstore]
  split
  · exact h
  · rename_i d _
    have hvisit : Window.contents { w with store := ((Visit.start w'.store d).run user).store } =
        Window.contents { w' with store := ((Visit.start w'.store d).run user).store } :=
      congrArg (fun c : Contents => { c with store := ((Visit.start w'.store d).run user).store }) h
    exact contents_reload hvisit

/-- A command that ends at once does to the contents of a window what it does in sequence. -/
theorem contents_carryOut (w : Window) (user : List Dialog.Action) {c : Command} (h : c ≠ .calculate) :
    (w.carryOut user c).1.contents = w.contents.carryOut user w.shift c := by
  cases c with
  | openSettings =>
    have hidle : w.contents = w.contents.window.contents := rfl
    exact contents_visitSettings hidle user
  | useClipboard =>
    simp only [Window.carryOut, Contents.carryOut]
    split
    · rfl
    · rfl
  | calculate => exact absurd rfl h
  | _ => rfl

theorem progress_reload (w : Window) : w.reload.1.progress = w.progress := by
  unfold Window.reload
  simp only
  split
  · rfl
  · split
    · rfl
    · split
      · rfl
      · rfl

theorem progress_visitSettings (w : Window) (user : List Dialog.Action) :
    (w.visitSettings user).1.progress = w.progress := by
  unfold Window.visitSettings
  split
  · rfl
  · exact progress_reload _

/-- Such a command leaves alone how far calculations have come. -/
theorem progress_carryOut (w : Window) (user : List Dialog.Action) {c : Command} (h : c ≠ .calculate) :
    (w.carryOut user c).1.progress = w.progress := by
  cases c with
  | openSettings => exact progress_visitSettings w user
  | useClipboard =>
    simp only [Window.carryOut]
    split
    · rfl
    · rfl
  | calculate => exact absurd rfl h
  | _ => rfl

end Commands

/-! ## Phases -/

/-- How far a calculation has come, and what the contents of the window are worth in sequence. -/
inductive Phase (w : Window) (c : Contents) : Prop where
  /-- No calculation. -/
  | idle : w.running = false → w.started = 0 → w.messages = [] → w.contents = c → Phase w c
  /-- The result is not in the session yet. -/
  | working : w.running = true → w.started = 1 → w.messages = [] →
      { w.contents with session := w.session.calculate } = c → Phase w c
  /-- The result is in the session, and the message is on its way. -/
  | reporting (m : Message) : w.running = true → w.started = 0 → w.messages = [m] → w.contents = c → Phase w c

namespace Phase

variable {w : Window} {c : Contents}

/-- Flags of buttons and keys have no part in it. -/
theorem withFlags (h : Phase w c) (hold : Hold) (shift : Bool) : Phase { w with hold := hold, shift := shift } c := by
  cases h with
  | idle hr hs hm h => exact .idle hr hs hm h
  | working hr hs hm h => exact .working hr hs hm h
  | reporting m hr hs hm h => exact .reporting m hr hs hm h

theorem copied (h : Phase w c) (t : Text) : Phase { w with clipboard := t } { c with clipboard := t } := by
  cases h with
  | idle hr hs hm h => exact .idle hr hs hm (h ▸ rfl)
  | working hr hs hm h => exact .working hr hs hm (h ▸ rfl)
  | reporting m hr hs hm h => exact .reporting m hr hs hm (h ▸ rfl)

theorem calculated (h : Phase w c) : Phase w.calculate c := by
  cases h with
  | idle hr hs hm h =>
    rw [Window.calculate, hs]
    exact .idle hr hs hm h
  | working hr hs hm h =>
    rw [Window.calculate, hs]
    exact .reporting _ hr rfl (by rw [hm]; rfl) h
  | reporting m hr hs hm h =>
    rw [Window.calculate, hs]
    exact .reporting m hr hs hm h

theorem delivered (h : Phase w c) : Phase w.deliver.1 c := by
  cases h with
  | idle hr hs hm h =>
    rw [Window.deliver, hm]
    exact .idle hr hs hm h
  | working hr hs hm h =>
    rw [Window.deliver, hm]
    exact .working hr hs hm h
  | reporting m hr hs hm h =>
    rw [Window.deliver, hm]
    exact .idle rfl hs rfl h

theorem pressSome (h : Phase w c) (user : List Dialog.Action) (t? : Option Text) :
    Phase (w.pressSome user t?).1
      ((if w.running then none else t?.map (Action.press · user w.shift)).elim c c.act) := by
  cases t? with
  | none =>
    rw [Option.map_none, ite_self]
    exact h
  | some t =>
    show Phase (w.press user t).1 _
    unfold Window.press
    cases h with
    | working hr hs hm h =>
      rw [hr]
      exact .working hr hs hm h
    | reporting m hr hs hm h =>
      rw [hr]
      exact .reporting m hr hs hm h
    | idle hr hs hm h =>
      subst h
      rw [hr]
      show Phase (w.carryOut user (.ofText t)).1 (w.contents.carryOut user w.shift (.ofText t))
      by_cases hc : Command.ofText t = .calculate
      · rw [hc]
        exact .working rfl (by show w.started + 1 = 1; rw [hs]) hm rfl
      · have hprogress := progress_carryOut w user hc
        obtain ⟨hr', hs', hm'⟩ : _ ∧ _ ∧ _ := by simpa only [Window.progress, Prod.mk.injEq] using hprogress
        exact .idle (hr'.trans hr) (hs'.trans hs) (hm'.trans hm) (contents_carryOut w user hc)

/-- **One event**: what the window takes from it is done in sequence. -/
theorem after (h : Phase w c) (e : Window.Event) : Phase (w.after e).1 ((w.accepts e).elim c c.act) := by
  cases e with
  | pointer e user => exact (h.withFlags (w.hold.after e).1 w.shift).pressSome user (w.hold.after e).2
  | keyDown key t =>
    show Phase (Window.pressSome [] { w with shift := w.shift || key = .shift } (key.text? t)).1 _
    by_cases hkey : key = .shift
    · subst hkey
      rw [Window.accepts, Key.text?, Option.map_none, ite_self]
      exact h.withFlags w.hold _
    · rw [decide_eq_false hkey, Bool.or_false]
      exact h.pressSome [] (key.text? t)
  | keyUp key => exact h.withFlags w.hold _
  | copied t => exact h.copied t
  | calculated => exact h.calculated
  | delivered => exact h.delivered

theorem run (h : Phase w c) (es : List Window.Event) : Phase (w.run es) ((w.accepted es).foldl Contents.act c) := by
  induction es generalizing w c with
  | nil => exact h
  | cons e es ih =>
    have hnext := ih (h.after e)
    rw [Window.run, Window.accepted, List.foldl_append]
    cases ha : w.accepts e with
    | none =>
      rw [ha] at hnext
      exact hnext
    | some a =>
      rw [ha] at hnext
      exact hnext

theorem count_eq (h : Phase w c) : w.started + w.messages.length = if w.running then 1 else 0 := by
  cases h with
  | idle hr hs hm h => rw [hr, hs, hm]; rfl
  | working hr hs hm h => rw [hr, hs, hm]; rfl
  | reporting m hr hs hm h => rw [hr, hs, hm]; rfl

theorem contents_eq (h : Phase w c) :
    c = if w.started = 0 then w.contents else { w.contents with session := w.session.calculate } := by
  cases h with
  | idle hr hs hm h => rw [hs, ← h]; rfl
  | working hr hs hm h => rw [hs, ← h]; rfl
  | reporting m hr hs hm h => rw [hs, ← h]; rfl

end Phase

theorem phase_start {s : Store} {w : Window} (h : Window.start s = .ok w) : Phase w w.contents := by
  obtain ⟨settings, -, h⟩ := bind_eq_ok.1 h
  obtain ⟨session, -, h⟩ := bind_eq_ok.1 h
  obtain rfl := Except.ok.inj h
  exact .idle rfl rfl rfl rfl

/-- While a calculation runs nothing is pressed. -/
theorem pressSome_of_running {w : Window} (hr : w.running) (user : List Dialog.Action) (t? : Option Text) :
    w.pressSome user t? = (w, .quiet) := by
  cases t? with
  | none => rfl
  | some t =>
    show w.press user t = _
    rw [Window.press, if_pos hr]

/-- While a calculation runs buttons, keys and the timer change nothing but their own flags. -/
theorem after_of_running {w : Window} {e : Window.Event} (hr : w.running) (he : e.isInput) :
    ∃ hold shift, w.after e = ({ w with hold := hold, shift := shift }, .quiet) := by
  cases e with
  | pointer e user =>
    have hpress := pressSome_of_running (w := { w with hold := (w.hold.after e).1 }) hr user (w.hold.after e).2
    exact ⟨_, _, hpress⟩
  | keyDown key t =>
    have hpress := pressSome_of_running (w := { w with shift := w.shift || key = .shift }) hr [] (key.text? t)
    exact ⟨_, _, hpress⟩
  | keyUp key => exact ⟨_, _, rfl⟩
  | _ => cases he

/-- **One calculation at a time, and nothing is lost.** Whatever happens to a new window, in whatever order: while a
calculation runs there is one of it, either without its result or with its message on the way, and else there is none;
while it runs, buttons, keys and the timer change only their own flags; and apart from a result that is still to come the
window holds what the actions taken while none ran make one after another, of which each `=` is one calculation with one
entry in the history. -/
theorem runs_one_calculation_at_a_time {s : Store} {w : Window} (h : Window.start s = .ok w) (es : List Window.Event) :
    (w.run es).started + (w.run es).messages.length = (if (w.run es).running then 1 else 0) ∧
    ((w.run es).running → ∀ e : Window.Event, e.isInput →
      ∃ hold shift, (w.run es).after e = ({ w.run es with hold := hold, shift := shift }, .quiet)) ∧
    (w.accepted es).foldl Contents.act w.contents =
      (if (w.run es).started = 0 then (w.run es).contents
        else { (w.run es).contents with session := (w.run es).session.calculate }) ∧
    ∀ (c : Contents) user shift, c.act (.press ['='] user shift) = { c with session := c.session.calculate } ∧
      ∃ entry, c.session.calculate.history = c.session.history ++ [entry] := by
  have hphase := (phase_start h).run es
  refine ⟨hphase.count_eq, fun hr e => after_of_running hr, hphase.contents_eq, fun c user shift => ⟨rfl, _, rfl⟩⟩

/-- The keys `2` and Enter start a calculation; the key `3`, which comes while it runs, is lost. -/
theorem runs_two_without_three : ∃ w, Window.start ⟨.absent, .absent⟩ = .ok w ∧
    (w.run [.keyDown .other ['2'], .keyDown .enter []]).running ∧
    (∃ hold shift, (w.run [.keyDown .other ['2'], .keyDown .enter []]).after (.keyDown .other ['3']) =
      ({ w.run [.keyDown .other ['2'], .keyDown .enter []] with hold := hold, shift := shift }, .quiet)) ∧
    (w.run [.keyDown .other ['2'], .keyDown .enter [], .keyDown .other ['3'], .calculated, .delivered]).contents =
      (w.contents.act (.press ['2'] [] false)).act (.press ['='] [] false) := by
  let w : Window := ⟨⟨.absent, .absent⟩, Settings.defaults, .empty ⟨.radians, true, defaultMaxDepth⟩,
    .ofSession (.empty ⟨.radians, true, defaultMaxDepth⟩), false, false, 0, [], .idle, false, []⟩
  have hstart : Window.start ⟨.absent, .absent⟩ = .ok w := rfl
  have hrunning : (w.run [.keyDown .other ['2'], .keyDown .enter []]).running := by decide +kernel
  have hended : (w.run [.keyDown .other ['2'], .keyDown .enter [], .keyDown .other ['3'], .calculated,
    .delivered]).started = 0 := by decide +kernel
  have hinput := (runs_one_calculation_at_a_time hstart _).2.1 hrunning (.keyDown .other ['3']) rfl
  have hcontents := (runs_one_calculation_at_a_time hstart
    [.keyDown .other ['2'], .keyDown .enter [], .keyDown .other ['3'], .calculated, .delivered]).2.2.1
  rw [if_pos hended] at hcontents
  exact ⟨w, hstart, hrunning, hinput, hcontents.symm⟩

end Calculator
