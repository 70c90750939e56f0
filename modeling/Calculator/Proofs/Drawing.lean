import Calculator.Proofs.Sequential
import Calculator.Proofs.TakingOver

/-!
# What the window shows is the session

The texts on the screen are drawn, and not every event draws them: a calculation puts its result into the session before its
message arrives, and settings that cannot be taken over leave in the middle. What was changed and not drawn is either nothing
that can be seen, or it is drawn before the window takes another action.

* `View.labelText` : the text under the display, from what it tells.
* `Window.Reached` : the windows that are reached, also by events that fail.
* `Window.Drawn` : no calculation runs that is not known to, and unless one runs the screen shows the session.
* `Drawn.reload`, `Drawn.carryOut`, `Drawn.after` : a command and an event keep it so. `Reached.drawn` : so does any run.
* `window_shows_session` : the screen of a reached window.
-/

namespace Calculator

set_option autoImplicit false

open Calculator.Text (decimal)

/-! ## The label -/

/-- The text under the display: the angle mode, the points of the graph if it has any, and the saved graphs if there are. -/
def View.labelText (mode : AngleMode) (points saved : ℕ) : Text :=
  mode.name ++ (if points = 0 then [] else " | graph: ".toList ++ decimal points ++ " points".toList) ++
    if saved = 0 then [] else " | saved: ".toList ++ decimal saved

theorem View.labelOf_eq (s : Session) :
    View.labelOf s = labelText s.setup.angleMode s.points.length s.saved.length := by
  unfold labelOf labelText
  simp only [List.length_eq_zero_iff, List.isEmpty_iff]

/-- The nesting limit is not to be seen. -/
theorem View.ofSession_setMaxDepth (s : Session) (limit : ℤ) : View.ofSession (s.setMaxDepth limit) = .ofSession s := rfl

namespace Window

/-! ## Windows that are reached -/

/-- The windows that are reached from a new one over some files. -/
inductive Reached (files : Store) : Window → Prop where
  | start {w : Window} : Window.start files = .ok w → Reached files w
  | event {w : Window} (e : Event) : Reached files w → Reached files (w.after e).1
  /-- The files are changed elsewhere. -/
  | filesChanged {w : Window} (s : Store) : Reached files w → Reached files { w with store := s }
  /-- The clipboard fails in the middle of an event, of which only flags of buttons and keys are left. -/
  | clipboardFailed {w : Window} (hold : Hold) (shift : Bool) : Reached files w →
      Reached files { w with hold := hold, shift := shift }
  /-- A dialog is closed that was open while other events went on. -/
  | dialogClosed {w : Window} : Reached files w → w.running = false → Reached files w.reload.1
  /-- A calculation breaks off, whatever it leaves of the session, and says so. -/
  | brokenOff {w : Window} {n : ℕ} (s : Session) (r : Report) : Reached files w → w.started = n + 1 →
      Reached files { w with session := s, started := n, messages := w.messages ++ [.failure r] }

/-- How far calculations have come is known, and unless one runs the screen shows the session. -/
structure Drawn (w : Window) : Prop where
  phase : ∃ c, Phase w c
  shown : w.running = false → w.view = .ofSession w.session

section Steps

variable {w w' : Window}

/-- A phase is a matter of how far calculations have come. -/
theorem exists_phase_of_progress (h : ∃ c, Phase w c) (hprogress : w'.progress = w.progress) : ∃ c, Phase w' c := by
  obtain ⟨hr', hs', hm'⟩ : w'.running = w.running ∧ w'.started = w.started ∧ w'.messages = w.messages := by
    simpa only [progress, Prod.mk.injEq] using hprogress
  obtain ⟨c, h⟩ := h
  cases h with
  | idle hr hs hm => exact ⟨_, .idle (hr'.trans hr) (hs'.trans hs) (hm'.trans hm) rfl⟩
  | working hr hs hm => exact ⟨_, .working (hr'.trans hr) (hs'.trans hs) (hm'.trans hm) rfl⟩
  | reporting m hr hs hm => exact ⟨_, .reporting m (hr'.trans hr) (hs'.trans hs) (hm'.trans hm) rfl⟩

theorem Drawn.started_eq_zero (h : w.Drawn) (hidle : w.running = false) : w.started = 0 := by
  obtain ⟨c, hphase⟩ := h.phase
  have hcount := hphase.count_eq
  rw [hidle] at hcount
  simp only [Bool.false_eq_true, ↓reduceIte] at hcount
  omega

/-! ## What is drawn -/

theorem shown_reload (h : w.view = .ofSession w.session) : w.reload.1.view = .ofSession w.reload.1.session := by
  rcases reload_cases w with ⟨hview, limit, hsession⟩ | ⟨hview, -⟩
  · rw [hview, hsession, View.ofSession_setMaxDepth, h]
  · exact hview

theorem shown_visitSettings (h : w.view = .ofSession w.session) (user : List Dialog.Action) :
    (w.visitSettings user).1.view = .ofSession (w.visitSettings user).1.session := by
  unfold visitSettings
  split
  · exact h
  · rename_i d _
    exact shown_reload (w := { w with store := ((Visit.start w.store d).run user).store }) h

/-- A command draws what it changes, but for the start of a calculation, which changes nothing yet. -/
theorem shown_carryOut (h : w.view = .ofSession w.session) (user : List Dialog.Action) (c : Command) :
    (w.carryOut user c).1.view = .ofSession (w.carryOut user c).1.session := by
  cases c with
  | openSettings => exact shown_visitSettings h user
  | useClipboard =>
    unfold carryOut
    simp only
    split
    · rfl
    · rfl
  | calculate => exact h
  | _ => rfl

/-- A pressed text leaves the screen as it is while a calculation runs. -/
theorem shown_pressSome (h : w.running = false → w.view = .ofSession w.session) (user : List Dialog.Action)
    (t? : Option Text) (hidle : (w.pressSome user t?).1.running = false) :
    (w.pressSome user t?).1.view = .ofSession (w.pressSome user t?).1.session := by
  cases t? with
  | none => exact h hidle
  | some t =>
    change (w.press user t).1.running = false at hidle
    show (w.press user t).1.view = .ofSession (w.press user t).1.session
    unfold press at hidle ⊢
    cases hrunning : w.running with
    | true =>
      simp only [hrunning, ↓reduceIte] at hidle
      exact absurd hidle (by decide)
    | false =>
      simp only [Bool.false_eq_true, ↓reduceIte]
      exact shown_carryOut (h hrunning) user _

/-! ## Events and runs -/

theorem Drawn.after (h : w.Drawn) (e : Event) : (w.after e).1.Drawn := by
  obtain ⟨c, hphase⟩ := h.phase
  refine ⟨⟨_, hphase.after e⟩, ?_⟩
  cases e with
  | pointer e user => exact shown_pressSome (w := { w with hold := (w.hold.after e).1 }) h.shown user (w.hold.after e).2
  | keyDown key t => exact shown_pressSome (w := { w with shift := w.shift || key = .shift }) h.shown [] (key.text? t)
  | keyUp | copied => exact h.shown
  | calculated =>
    intro hidle
    change w.calculate.running = false at hidle
    show w.calculate.view = .ofSession w.calculate.session
    cases hstarted : w.started with
    | zero =>
      rw [calculate, hstarted] at hidle ⊢
      exact h.shown hidle
    | succ n =>
      rw [calculate, hstarted] at hidle
      have hnone : w.started = 0 := h.started_eq_zero hidle
      omega
  | delivered =>
    show w.deliver.1.running = false → w.deliver.1.view = .ofSession w.deliver.1.session
    unfold deliver
    split
    · exact h.shown
    · exact fun _ => rfl

/-- A calculation that breaks off leaves its message, which draws the session. -/
theorem Drawn.brokenOff {n : ℕ} (h : w.Drawn) (hstarted : w.started = n + 1) (s : Session) (r : Report) :
    Drawn { w with session := s, started := n, messages := w.messages ++ [.failure r] } := by
  obtain ⟨c, hphase⟩ := h.phase
  cases hphase with
  | idle hr hs => omega
  | working hr hs hm =>
    have hn : n = 0 := by omega
    refine ⟨⟨_, .reporting (.failure r) hr hn ?_ rfl⟩, fun hidle => ?_⟩
    · show w.messages ++ [.failure r] = [.failure r]
      rw [hm]
      rfl
    · exact absurd (hr.symm.trans hidle) (by decide)
  | reporting m hr hs => omega

/-- **Any run**, whatever failed in it. -/
theorem Reached.drawn {files : Store} (h : Reached files w) : w.Drawn := by
  induction h with
  | start h =>
    refine ⟨⟨_, phase_start h⟩, fun _ => ?_⟩
    obtain ⟨settings, -, h⟩ := bind_eq_ok.1 h
    obtain ⟨session, -, h⟩ := bind_eq_ok.1 h
    obtain rfl := Except.ok.inj h
    rfl
  | event e _ ih => exact ih.after e
  | filesChanged s _ ih => exact ⟨exists_phase_of_progress ih.phase rfl, ih.shown⟩
  | clipboardFailed hold shift _ ih => exact ⟨exists_phase_of_progress ih.phase rfl, ih.shown⟩
  | dialogClosed _ hidle ih =>
    exact ⟨exists_phase_of_progress ih.phase (progress_reload _), fun _ => shown_reload (ih.shown hidle)⟩
  | brokenOff s r _ hstarted ih => exact ih.brokenOff hstarted s r

end Steps

/-- **What the window shows is the session.** Whatever happened to a window, also if it failed: unless a calculation runs, the
display line is the text of the session with the mark of the cursor at the place of the cursor, the rows are its history,
and the label tells its angle mode, how many points its graph has, and how many graphs are saved. -/
theorem window_shows_session {files : Store} {w : Window} (h : Reached files w) (hidle : w.running = false) :
    w.view.line = w.session.display.take w.session.cursor ++ '│' :: w.session.display.drop w.session.cursor ∧
    w.view.rows = w.session.history ∧
    w.view.label = View.labelText w.session.setup.angleMode w.session.points.length w.session.saved.length := by
  rw [h.drawn.shown hidle, ← View.labelOf_eq]
  exact ⟨rfl, rfl, rfl⟩

/-- Settings with a nesting limit, but without an angle mode that is known. -/
def unknownMode : Text := "\x7b\"max_nesting_depth\": 3, \"angle_mode\": \"gon\"\x7d".toList

/-- Settings are taken over as far as the nesting limit, and nothing is drawn. -/
theorem window_shows_session_after_fault : ∃ w, Reached ⟨.absent, .absent⟩ w ∧ w.running = false ∧
    w.session.setup.maxDepth = 3 ∧ w.view.line = "│".toList ∧ w.view.rows = [] ∧ w.view.label = "radians".toList := by
  let w : Window := ⟨⟨.absent, .absent⟩, Settings.defaults, .empty ⟨.radians, true, defaultMaxDepth⟩,
    .ofSession (.empty ⟨.radians, true, defaultMaxDepth⟩), false, false, 0, [], .idle, false, []⟩
  let changed : Window := { w with store := ⟨.file unknownMode, .absent⟩ }
  have hreached : Reached ⟨.absent, .absent⟩ (changed.after (.keyDown .other "⚙".toList)).1 :=
    .event _ (.filesChanged _ (.start rfl))
  have hidle : (changed.after (.keyDown .other "⚙".toList)).1.running = false := by decide +kernel
  have hdepth : (changed.after (.keyDown .other "⚙".toList)).1.session.setup.maxDepth = 3 := by decide +kernel
  obtain ⟨hline, hrows, hlabel⟩ := window_shows_session hreached hidle
  refine ⟨_, hreached, hidle, hdepth, hline.trans ?_, hrows.trans ?_, hlabel.trans ?_⟩
  · decide +kernel
  · decide +kernel
  · decide +kernel

end Window

end Calculator
