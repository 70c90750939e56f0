import Calculator.Proofs.Refusals
import Calculator.Proofs.Sequential
import Calculator.Proofs.TakingOver

/-!
# File, window and session agree

* `Dialog.Action.isOnDialog`, `Window.Event.isOnWindow` : nobody else changes the files.
* `Visit.EndsWell`, `endsWell_run` : a visit ends with the file as it was, or with what one confirmation has written.
* `Window.InStep` : what file, window and session say about the settings is the same, and the graph is fresh.
* `InStep.visitSettings` : a visit to the settings. `InStep.after`, `InStep.run` : it stays so.
* `Window.Agrees`, `Dialog.HeldBy` : what the file holds is everywhere, and it is what the controls say.
* `settings_agree` : a visit to the settings of any window.
-/

namespace Calculator

set_option autoImplicit false

open Settings (IsTable ofFields savedFields keyText)

/-! ## Visits -/

def Dialog.Action.isOnDialog : Dialog.Action → Bool
  | .set .. | .confirm | .cancel => true
  | .block | .unblock => false

namespace Visit

variable {v : Visit} {user : List Dialog.Action}

theorem store_act_of_ended (h : v.dialog.ended.isSome) {a : Dialog.Action} (ha : a.isOnDialog) :
    (v.act a).store = v.store := by
  cases a with
  | set => rfl
  | confirm | cancel => simp [act, h, noted]
  | block | unblock => simp [Dialog.Action.isOnDialog] at ha

/-- Nothing happens to a dialog that has ended, and to its file. -/
theorem run_of_ended (h : v.dialog.ended.isSome) (huser : ∀ a ∈ user, a.isOnDialog) :
    (v.run user).store = v.store ∧ (v.run user).dialog.ended = v.dialog.ended := by
  induction user generalizing v with
  | nil => exact ⟨rfl, rfl⟩
  | cons a user ih =>
    obtain ⟨ha, huser⟩ := List.forall_mem_cons.1 huser
    have hended := ended_act h a
    obtain ⟨hstore, hend⟩ := ih (hended ▸ h) huser
    exact ⟨hstore.trans (store_act_of_ended h ha), hend.trans hended⟩

/-- The confirmation after `before` ends the dialog, over the file as it was. -/
structure EndsAfter (v : Visit) (before : List Dialog.Action) : Prop where
  isOpen : (v.run before).dialog.ended = none
  store : (v.run before).store = v.store
  hasLimit : (v.run before).dialog.table.HasLimit
  accepted : ((v.run before).act .confirm).dialog.ended = some .accepted

theorem EndsAfter.cons {a : Dialog.Action} {before : List Dialog.Action} (h : (v.act a).EndsAfter before)
    (hstore : (v.act a).store = v.store) : v.EndsAfter (a :: before) :=
  ⟨h.isOpen, h.store.trans hstore, h.hasLimit, h.accepted⟩

/-- How a visit ends: with the file as it was, or with what the confirmation that was accepted has written. -/
def EndsWell (v : Visit) (user : List Dialog.Action) : Prop :=
  ((v.run user).dialog.ended ≠ some .accepted ∧ (v.run user).store = v.store) ∨
    ∃ before later, user = before ++ .confirm :: later ∧ v.EndsAfter before ∧
      (v.run user).dialog.ended = some .accepted ∧ (v.run user).store = ((v.run before).act .confirm).store

/-- An action that leaves the file as it was begins a longer visit of the same kind. -/
theorem EndsWell.cons {a : Dialog.Action} (h : (v.act a).EndsWell user) (hstore : (v.act a).store = v.store) :
    v.EndsWell (a :: user) := by
  rcases h with ⟨hended, hsame⟩ | ⟨before, later, rfl, hbefore, hended, hwritten⟩
  · exact .inl ⟨hended, hsame.trans hstore⟩
  · exact .inr ⟨a :: before, later, rfl, hbefore.cons hstore, hended, hwritten⟩

theorem endsWell_run (h : v.IsSound) (hopen : v.dialog.ended = none) (hlimit : v.dialog.table.HasLimit)
    (huser : ∀ a ∈ user, a.isOnDialog) : v.EndsWell user := by
  induction user generalizing v with
  | nil =>
    left
    exact ⟨by simp [run, hopen], rfl⟩
  | cons a user ih =>
    obtain ⟨ha, hlater⟩ := List.forall_mem_cons.1 huser
    cases a with
    | set key value => exact (ih (h.act (.set key value)) hopen hlimit hlater).cons rfl
    | confirm =>
      rcases h.confirm_cases hopen with ⟨hopen', hstore⟩ | ⟨haccepted, -, -⟩
      · have hlimit' : (v.act .confirm).dialog.table.HasLimit := by
          rw [h.table_confirm hopen]
          exact Dialog.IsSound.hasLimit_collect h hlimit
        exact (ih (h.act .confirm) hopen' hlimit' hlater).cons hstore
      · obtain ⟨hstore, hended⟩ := run_of_ended (v := v.act .confirm) (by simp [haccepted]) hlater
        right
        exact ⟨[], user, rfl, ⟨hopen, rfl, hlimit, haccepted⟩, hended.trans haccepted, hstore⟩
    | cancel =>
      have hstore : (v.act .cancel).store = v.store := by simp [act, hopen, noted]
      have hrejected : (v.act .cancel).dialog.ended = some .rejected := by simp [act, hopen, noted, Dialog.cancel]
      obtain ⟨hsame, hended⟩ := run_of_ended (v := v.act .cancel) (by simp [hrejected]) hlater
      left
      refine ⟨?_, hsame.trans hstore⟩
      show ((v.act .cancel).run user).dialog.ended ≠ _
      simp [hended, hrejected]
    | block | unblock => simp [Dialog.Action.isOnDialog] at ha

end Visit

/-! ## What is everywhere -/

namespace Window

/-- File, window and session hold the same settings: those that are read of the file. -/
structure Agrees (w : Window) (fields : Fields) : Prop where
  file : ∃ content, w.store.config = .file content ∧ Json.read content = .ok (.object fields)
  loaded : w.store.loadSettings = .ok (ofFields fields)
  settings : w.settings = ofFields fields
  setup : (ofFields fields).Gives w.session.setup

/-- The settings of window and session are those that are loaded from the file, and the graph is fresh. -/
structure InStep (w : Window) : Prop where
  loaded : w.store.loadSettings = .ok w.settings
  setup : w.settings.Gives w.session.setup
  fresh : w.session.IsFresh

end Window

/-- The fields hold what the controls of a dialog say, as far as no two keys of its table are written alike; numbers of
input fields are not too small. -/
def Dialog.HeldBy (d : Dialog) (fields : Fields) : Prop :=
  ∀ e ∈ d.controls, ∃ v?, e.2.value = .ok v? ∧ ∀ v, v? = some v →
    ((∀ e' ∈ d.table, keyText e'.1 = keyText e.1 → e'.1 = e.1) → fields.get? (keyText e.1) = some v) ∧
    ∀ n, v = .int n → Settings.leastInput ≤ n

theorem Control.least_of_value {c : Control} {n : ℤ} (h : c.value = .ok (some (.int n))) : Settings.leastInput ≤ n := by
  cases c with
  | checkBox | choice => simp [Control.value] at h
  | input caption placeholder t =>
    obtain ⟨m, hm, hread⟩ := value_input h
    obtain rfl : n = m := by simpa using hm
    exact (readInput_least hread).1

/-- What was written of a dialog holds what its controls said. -/
theorem Dialog.IsSound.heldBy_saved {d : Dialog} (h : d.IsSound) (hall : ∀ e ∈ d.controls, ∃ v?, e.2.value = .ok v?) :
    d.HeldBy (savedFields (Dialog.collect d.controls d.table).1) := by
  intro e he
  have hvalue := Dialog.value_eq_taken (h.keys.distinct h.table) hall he (h.keys.self h.table he)
  refine ⟨_, hvalue, fun v hv => ⟨fun halike => ?_, ?_⟩⟩
  · obtain ⟨⟨k, old⟩, hold, hk⟩ := List.mem_map.1 (h.keys.mem he)
    obtain rfl : k = e.1 := hk
    rw [Dialog.collect_eq h.table h.keys]
    apply Settings.get?_savedFields
    · exact List.mem_map.2 ⟨(e.1, old), hold, by simp [hv]⟩
    · -- A key that is written alike is this one, and so has this value.
      intro e' he' hkey
      obtain ⟨f, hf, rfl⟩ := List.mem_map.1 he'
      have hsame : f.1 = e.1 := halike f hf hkey
      simp [hsame, hv]
  · rintro n rfl
    exact Control.least_of_value (hv ▸ hvalue)

/-! ## Windows -/

namespace Window.InStep

variable {w w' : Window}

theorem of_start {s : Store} (h : Window.start s = .ok w) : w.InStep := by
  obtain ⟨settings, hsettings, h⟩ := bind_eq_ok.1 h
  obtain ⟨session, hsession, h⟩ := bind_eq_ok.1 h
  obtain rfl := Except.ok.inj h
  exact ⟨hsettings, Settings.gives_of_start (Settings.isTable_of_loadSettings hsettings) hsession,
    Session.isFresh_start hsession⟩

theorem of_session (h : w.InStep) (hstore : w'.store = w.store) (hsettings : w'.settings = w.settings)
    (hsetup : w'.session.setup = w.session.setup) (hfresh : w'.session.IsFresh) : w'.InStep := by
  refine ⟨?_, ?_, hfresh⟩
  · rw [hstore, hsettings]
    exact h.loaded
  · rw [hsettings, hsetup]
    exact h.setup

/-- Settings that are loaded again change nothing. -/
theorem reload (h : w.InStep) : w.reload.2 = none ∧ w.reload.1.store = w.store ∧ w.reload.1.settings = w.settings ∧
    w.reload.1.session = w.session := by
  obtain ⟨hfault, hstore, hsettings, hsession⟩ := reload_of_gives h.loaded h.setup
  exact ⟨hfault, hstore, hsettings, hsession.trans h.fresh.withSetup_self⟩

end Window.InStep

/-- A table that was written is taken over. -/
theorem reload_of_saved {w : Window} {table : Settings} {u : Setup} (htable : IsTable table) (hgives : table.Gives u)
    (hstore : w.store = ⟨.file (Json.indented table.toJson), w.store.captions⟩) : w.reload.2 = none ∧
      w.reload.1.Agrees (savedFields table) ∧ w.reload.1.InStep ∧ w.reload.1.session = w.session.withSetup u := by
  have hload : w.store.loadSettings = .ok (ofFields (savedFields table)) := by
    rw [hstore]
    exact Settings.loadSettings_saved htable w.store.captions
  have hsaved : (ofFields (savedFields table)).Gives u := Settings.gives_saved htable hgives
  obtain ⟨hfault, hkept, hsettings, hsession⟩ := reload_of_gives hload hsaved
  have hsetup : w.reload.1.session.setup = u := by
    rw [hsession]
    rfl
  refine ⟨hfault, ⟨⟨_, ?_, Settings.read_saved htable⟩, ?_, hsettings, ?_⟩, ⟨?_, ?_, ?_⟩, hsession⟩
  · rw [hkept, hstore]
  · rw [hkept, hload]
  · rw [hsetup]
    exact hsaved
  · rw [hkept, hsettings, hload]
  · rw [hsettings, hsetup]
    exact hsaved
  · rw [hsession]
    exact Session.isFresh_redraw _

/-- After the confirmation that was accepted a window takes over what it has written. -/
theorem agrees_of_endsAfter {v : Visit} {before : List Dialog.Action} (hsound : v.IsSound) (h : v.EndsAfter before)
    {w : Window} (hstore : w.store = ((v.run before).act .confirm).store) : ∃ fields, w.reload.2 = none ∧
      w.reload.1.Agrees fields ∧ w.reload.1.InStep ∧ (v.run before).dialog.HeldBy fields := by
  have hthen : (v.run before).IsSound := hsound.run before
  obtain ⟨hall, hwritten⟩ := hthen.accepted h.isOpen h.accepted
  obtain ⟨u, hu⟩ := Dialog.IsSound.gives_collect hthen h.hasLimit hall
  rw [hwritten] at hstore
  obtain ⟨hfault, hagrees, hstep, -⟩ :=
    reload_of_saved (Dialog.isTable_collect hthen.table hthen.keys) hu (by rw [hstore])
  exact ⟨_, hfault, hagrees, hstep, Dialog.IsSound.heldBy_saved hthen hall⟩

namespace Window.InStep

variable {w : Window}

/-- **A visit to the settings** of a window in step: if a confirmation is accepted, file, window and session agree
afterwards, and else they are as they were. -/
theorem visitSettings_of_opened (h : w.InStep) {d : Dialog} (hopened : Dialog.opened w.store = .ok d)
    {user : List Dialog.Action} (huser : ∀ a ∈ user, a.isOnDialog) :
    (w.visitSettings user).2.fault = none ∧ (w.visitSettings user).1.InStep ∧
    ((((Visit.start w.store d).run user).dialog.ended ≠ some .accepted ∧ (w.visitSettings user).1.store = w.store ∧
        (w.visitSettings user).1.settings = w.settings ∧ (w.visitSettings user).1.session = w.session) ∨
      ∃ before later fields, user = before ++ .confirm :: later ∧ (Visit.start w.store d).EndsAfter before ∧
        ((Visit.start w.store d).run user).dialog.ended = some .accepted ∧
        (w.visitSettings user).1.Agrees fields ∧ ((Visit.start w.store d).run before).dialog.HeldBy fields) := by
  obtain ⟨captions, hload, -, hopen⟩ := Dialog.opened_eq_ok hopened
  have hsound : (Visit.start w.store d).IsSound := Dialog.isSound_of_opened hopened
  have hlimit : d.table.HasLimit := by
    have htable : w.settings = d.table := Except.ok.inj (h.loaded.symm.trans hload)
    exact htable ▸ h.setup.hasLimit
  have hvisit : (w.visitSettings user).1 = (Window.reload { w with store := ((Visit.start w.store d).run user).store }).1 ∧
      (w.visitSettings user).2.fault =
        (Window.reload { w with store := ((Visit.start w.store d).run user).store }).2 := by
    unfold visitSettings
    rw [hopened]
    exact ⟨rfl, rfl⟩
  rw [hvisit.1, hvisit.2]
  rcases Visit.endsWell_run hsound hopen hlimit huser with ⟨hended, hstore⟩ | ⟨before, later, rfl, hends, hended, hstore⟩
  · have hsame : InStep { w with store := ((Visit.start w.store d).run user).store } :=
      h.of_session hstore rfl rfl h.fresh
    obtain ⟨hfault, hstore', hsettings, hsession⟩ := hsame.reload
    refine ⟨hfault, ?_, .inl ⟨hended, hstore'.trans hstore, hsettings, hsession⟩⟩
    exact hsame.of_session hstore' hsettings (by rw [hsession]) (by rw [hsession]; exact h.fresh)
  · obtain ⟨fields, hfault, hagrees, hstep, hheld⟩ := agrees_of_endsAfter hsound hends
      (w := { w with store := ((Visit.start w.store d).run (before ++ .confirm :: later)).store }) hstore
    exact ⟨hfault, hstep, .inr ⟨before, later, fields, rfl, hends, hended, hagrees, hheld⟩⟩

theorem visitSettings (h : w.InStep) {user : List Dialog.Action} (huser : ∀ a ∈ user, a.isOnDialog) :
    (w.visitSettings user).1.InStep := by
  cases hopened : Dialog.opened w.store with
  | ok d => exact (h.visitSettings_of_opened hopened huser).2.1
  | error e =>
    unfold Window.visitSettings
    rw [hopened]
    exact h

end Window.InStep

/-! ## Events -/

namespace Session

/-- The operation leaves the setup alone. -/
def Operation.isEdit : Operation → Bool
  | .setAngleMode _ | .setGraphing _ => false
  | _ => true

theorem setup_insertTemplate (s : Session) (t : Text) : (s.insertTemplate t).setup = s.setup := by
  unfold insertTemplate
  dsimp only
  split <;> split <;> rfl

theorem setup_attempt {s t : Session} {o : Operation} (ho : o.isEdit) (h : s.attempt o = .ok t) : t.setup = s.setup := by
  cases o with
  | insertTemplate text => exact Except.ok.inj h ▸ setup_insertTemplate s text
  | press text =>
    obtain rfl := Except.ok.inj h
    unfold Session.press
    split
    · rfl
    · exact setup_insertTemplate s text
  | deleteBack =>
    obtain rfl := Except.ok.inj h
    unfold Session.deleteBack
    split <;> rfl
  | saveGraph =>
    obtain rfl := Except.ok.inj h
    unfold Session.saveGraph
    split <;> rfl
  | setAngleMode | setGraphing => simp [Operation.isEdit] at ho
  | _ =>
    obtain rfl := Except.ok.inj h
    rfl

theorem setup_after {o : Operation} (ho : o.isEdit) (s : Session) : (s.after o).setup = s.setup := by
  unfold Session.after
  split
  · rename_i t ht
    exact setup_attempt ho ht
  · rfl

end Session

def Window.Event.isOnWindow : Window.Event → Bool
  | .pointer _ user => user.all Dialog.Action.isOnDialog
  | _ => true

namespace Window.InStep

variable {w w' : Window}

/-- An edit of the session keeps a window in step, whatever becomes of the rest. -/
theorem of_after (h : w.InStep) {o : Session.Operation} (ho : o.isEdit) (hstore : w'.store = w.store)
    (hsettings : w'.settings = w.settings) (hsession : w'.session = w.session.after o) : w'.InStep := by
  apply h.of_session hstore hsettings
  · rw [hsession]
    exact Session.setup_after ho w.session
  · rw [hsession]
    exact h.fresh.after o

theorem of_same (h : w.InStep) (hstore : w'.store = w.store) (hsettings : w'.settings = w.settings)
    (hsession : w'.session = w.session) : w'.InStep := by
  apply h.of_session hstore hsettings
  · rw [hsession]
  · rw [hsession]
    exact h.fresh

theorem carryOut (h : w.InStep) {user : List Dialog.Action} (huser : ∀ a ∈ user, a.isOnDialog) (c : Command) :
    (w.carryOut user c).1.InStep := by
  cases c with
  | openSettings => exact h.visitSettings huser
  | useClipboard =>
    unfold Window.carryOut
    dsimp only
    split
    · unfold Window.edit Window.paste
      split
      · exact h.of_same rfl rfl rfl
      · exact h.of_after (o := .insert (Text.strip w.clipboard)) rfl rfl rfl rfl
    · exact h.of_same rfl rfl rfl
  | moveCursor offset => exact h.of_after (o := .moveCursor offset) rfl rfl rfl rfl
  | deleteBack => exact h.of_after (o := .deleteBack) rfl rfl rfl rfl
  | clear => exact h.of_after (o := .clear) rfl rfl rfl rfl
  | saveGraph => exact h.of_after (o := .saveGraph) rfl rfl rfl rfl
  | calculate => exact h.of_same rfl rfl rfl
  | enter t => exact h.of_after (o := .press t) rfl rfl rfl rfl

theorem pressSome (h : w.InStep) {user : List Dialog.Action} (huser : ∀ a ∈ user, a.isOnDialog) (t? : Option Text) :
    (w.pressSome user t?).1.InStep := by
  cases t? with
  | none => exact h
  | some t =>
    show (w.press user t).1.InStep
    unfold Window.press
    split
    · exact h
    · exact h.carryOut huser _

theorem after (h : w.InStep) {e : Window.Event} (he : e.isOnWindow) : (w.after e).1.InStep := by
  cases e with
  | pointer e user =>
    have hflag : InStep { w with hold := (w.hold.after e).1 } := h.of_same rfl rfl rfl
    exact hflag.pressSome (List.all_eq_true.1 he) _
  | keyDown key t =>
    have hflag : InStep { w with shift := w.shift || key = .shift } := h.of_same rfl rfl rfl
    apply hflag.pressSome
    simp
  | keyUp | copied => exact h.of_same rfl rfl rfl
  | calculated =>
    show w.calculate.InStep
    unfold Window.calculate
    split
    · exact h
    · exact h.of_after (o := .calculate) rfl rfl rfl rfl
  | delivered =>
    show w.deliver.1.InStep
    unfold Window.deliver
    split
    · exact h
    · exact h.of_same rfl rfl rfl

theorem run (h : w.InStep) {es : List Window.Event} (hes : ∀ e ∈ es, e.isOnWindow) : (w.run es).InStep := by
  induction es generalizing w with
  | nil => exact h
  | cons e es ih =>
    obtain ⟨he, hlater⟩ := List.forall_mem_cons.1 hes
    exact ih (h.after he) hlater

end Window.InStep

/-! ## A visit to the settings of any window -/

/-- **File, window and session agree after a visit to the settings.** Whatever happened to a window before, and whatever the
user does in the dialog, taking over the settings is no fault. If a confirmation is accepted, then the file holds fields
that are what is loaded, what the window holds, and what gives the setup of the session; and they hold the value of each
control as it was at that confirmation, unless JSON could not tell its key from another one. If none is accepted, file,
window and session are as before. -/
theorem settings_agree {s : Store} {w : Window} (hstart : Window.start s = .ok w) {es : List Window.Event}
    (hes : ∀ e ∈ es, e.isOnWindow) {d : Dialog} (hopened : Dialog.opened (w.run es).store = .ok d)
    {user : List Dialog.Action} (huser : ∀ a ∈ user, a.isOnDialog) :
    let v := Visit.start (w.run es).store d
    let w' := ((w.run es).visitSettings user).1
    ((w.run es).visitSettings user).2.fault = none ∧
    ((v.run user).dialog.ended = some .accepted → ∃ before later fields, user = before ++ .confirm :: later ∧
      (v.run before).dialog.ended = none ∧ ((v.run before).act .confirm).dialog.ended = some .accepted ∧
      w'.Agrees fields ∧ (v.run before).dialog.HeldBy fields) ∧
    ((v.run user).dialog.ended ≠ some .accepted →
      w'.store = (w.run es).store ∧ w'.settings = (w.run es).settings ∧ w'.session = (w.run es).session) := by
  intro v w'
  have hstep : (w.run es).InStep := (Window.InStep.of_start hstart).run hes
  obtain ⟨hfault, -, hends⟩ := hstep.visitSettings_of_opened hopened huser
  refine ⟨hfault, ?_, ?_⟩
  · intro haccepted
    rcases hends with ⟨hnot, -⟩ | ⟨before, later, fields, huser', hbefore, -, hagrees, hheld⟩
    · exact absurd haccepted hnot
    · exact ⟨before, later, fields, huser', hbefore.isOpen, hbefore.accepted, hagrees, hheld⟩
  · intro hnot
    rcases hends with ⟨-, hsame⟩ | ⟨before, later, fields, -, -, haccepted, -⟩
    · exact hsame
    · exact absurd haccepted hnot

/-- The nesting limit 1 is refused, and then 32 is accepted. -/
def limitAtSecondTry : List Dialog.Action :=
  [.set Settings.maxDepthKey (.text ['1']), .confirm, .set Settings.maxDepthKey (.text "32".toList), .confirm]

/-- All agree on the limit that was accepted. -/
theorem settings_agree_limit : ∃ w, Window.start ⟨.absent, .absent⟩ = .ok w ∧
    (∃ fields, (w.visitSettings limitAtSecondTry).1.Agrees fields) ∧
    (w.visitSettings limitAtSecondTry).1.session.setup.maxDepth = 32 := by
  let w : Window := ⟨⟨.absent, .absent⟩, Settings.defaults, .empty ⟨.radians, true, defaultMaxDepth⟩,
    .ofSession (.empty ⟨.radians, true, defaultMaxDepth⟩), false, false, 0, [], .idle, false, []⟩
  have hstart : Window.start ⟨.absent, .absent⟩ = .ok w := rfl
  have hlimit : (w.visitSettings limitAtSecondTry).1.session.setup.maxDepth = 32 := by decide +kernel
  have hvisit : (Dialog.opened w.store).toOption.any fun d =>
      ((Visit.start w.store d).run limitAtSecondTry).dialog.ended = some .accepted := by decide +kernel
  obtain ⟨d, hopened, haccepted⟩ := exists_ok_of_any hvisit
  have hnone : ∀ e ∈ ([] : List Window.Event), e.isOnWindow := List.forall_mem_nil _
  have huser : ∀ a ∈ limitAtSecondTry, a.isOnDialog := by decide
  obtain ⟨-, hagree, -⟩ := settings_agree hstart hnone hopened huser
  obtain ⟨before, later, fields, -, -, -, hagrees, -⟩ := hagree (of_decide_eq_true haccepted)
  exact ⟨w, hstart, ⟨fields, hagrees⟩, hlimit⟩

end Calculator
