import Calculator.Proofs.Agreement

/-!
# Confirming an untouched dialog

A dialog that is confirmed as it opened writes the values that its controls show. A check box and a blank field show the
value they were made for; a choice shows an angle mode by its exact name only, and the first one for all else.

* `Control.modeShown`, `modeShown_eq_degrees_iff` : what a choice shows as it opens.
* `Control.untouchedValue` : what the control of a setting stands for as it opens.
* `Dialog.taken_opened` : what an untouched dialog puts under a key.
* `Dialog.accepted_opened`, `get?_opened` : its confirmation.
* `Window.InStep.confirm_untouched` : the setup after it.
* `untouched_confirm_keeps_setup_iff` : when it is the one before it.
-/

namespace Calculator

set_option autoImplicit false

open Settings (IsTable angleModeKey graphingKey maxDepthKey)

/-! ## Controls as they open -/

namespace Control

/-- The angle mode that a choice shows as it opens. -/
def modeShown : Json → AngleMode
  | .text t => (modeOf? t).getD .radians
  | _ => .radians

/-- Only the exact name shows degrees. -/
theorem modeShown_eq_degrees_iff {v : Json} : modeShown v = .degrees ↔ v = .text AngleMode.degrees.name := by
  constructor
  · intro h
    unfold modeShown at h
    split at h
    · rename_i t
      cases hmode : modeOf? t with
      | none => simp [hmode] at h
      | some m =>
        obtain rfl : m = .degrees := by simpa [hmode] using h
        have hname := List.find?_some hmode
        simpa using (of_decide_eq_true hname).symm
    · simp at h
  · rintro rfl
    decide

/-- The value that the control of a setting stands for as it opens, if it has one. -/
def untouchedValue (key : Json) : (value : Json) → Option Json
  | .bool b => some (.bool b)
  | value => if sameKey key (.text angleModeKey) then some (.text (modeShown value).name) else none

theorem value_of_ofSetting {key caption value : Json} {c : Control} (h : ofSetting key caption value = .ok (some c)) :
    c.value = .ok (untouchedValue key value) := by
  unfold ofSetting at h
  split at h
  · obtain rfl := Option.some.inj (Except.ok.inj h)
    rfl
  · rename_i hbool
    rw [untouchedValue]
    · split_ifs at h with hkey
      · obtain rfl := Option.some.inj (Except.ok.inj h)
        rw [if_pos hkey]
        rfl
      · rw [if_neg hkey]
        split at h
        · obtain rfl := Option.some.inj (Except.ok.inj h)
          rfl
        all_goals simp at h
    · exact hbool

/-- A setting without a control has no value. -/
theorem untouchedValue_of_ofSetting {key caption value : Json} (h : ofSetting key caption value = .ok none) :
    untouchedValue key value = none := by
  unfold ofSetting at h
  split at h
  · simp at h
  · rename_i hbool
    rw [untouchedValue]
    · split_ifs at h with hkey
      · simp at h
      · exact if_neg hkey
    · exact hbool

/-- Apart from the angle mode an untouched control keeps its value. -/
theorem untouchedValue_getD {key value : Json} (hkey : ¬sameKey key (.text angleModeKey)) :
    (untouchedValue key value).getD value = value := by
  unfold untouchedValue
  split
  · rfl
  · rw [if_neg hkey]
    rfl

end Control

/-! ## Dialogs as they open -/

namespace Dialog

variable {s : Store} {d : Dialog}

theorem exists_value_of_opened (hopened : opened s = .ok d) : ∀ e ∈ d.controls, ∃ v?, e.2.value = .ok v? := by
  obtain ⟨captions, -, hcontrols, -⟩ := opened_eq_ok hopened
  intro e he
  obtain ⟨v, -, hset⟩ := exists_of_mem_controlsOf hcontrols he
  exact ⟨_, Control.value_of_ofSetting hset⟩

theorem taken_opened (hopened : opened s = .ok d) {k : Text} {v : Json} (hv : d.table.get? k = some v) :
    taken (.text k) d.controls = Control.untouchedValue (.text k) v := by
  obtain ⟨captions, -, hcontrols, -⟩ := opened_eq_ok hopened
  have hsound : d.IsSound := isSound_of_opened hopened
  obtain ⟨control?, hset, hmem⟩ := control_of_mem hcontrols (Settings.mem_of_get?_eq_some hv)
  cases control? with
  | some c =>
    have hvalue := value_eq_taken (hsound.keys.distinct hsound.table) (exists_value_of_opened hopened) (hmem c rfl)
      (sameKey_self rfl)
    exact Except.ok.inj (hvalue.symm.trans (Control.value_of_ofSetting hset))
  | none =>
    rw [Control.untouchedValue_of_ofSetting hset]
    apply taken_eq_none
    intro e he
    by_contra hsame
    obtain ⟨v', hv', hset'⟩ := exists_of_mem_controlsOf hcontrols he
    have hk : e.1 = .text k := sameKey_text_iff.1 (by simpa using hsame)
    rw [hk] at hv' hset'
    obtain rfl : v' = v := Option.some.inj ((Settings.get?_eq_some_of_mem hsound.table hv').symm.trans hv)
    simp [hset] at hset'

theorem config_ne_directory {table : Settings} (h : s.loadSettings = .ok table) : s.config ≠ .directory := by
  intro hdirectory
  obtain ⟨v, hv, -⟩ := bind_eq_ok.1 h
  obtain ⟨loaded, hloaded, -⟩ := bind_eq_ok.1 hv
  simp [hdirectory, Entry.load] at hloaded

theorem accepted_opened (hopened : opened s = .ok d) :
    ((Visit.start s d).act .confirm).dialog.ended = some .accepted := by
  obtain ⟨captions, hload, -, hopen⟩ := opened_eq_ok hopened
  have hsound : d.IsSound := isSound_of_opened hopened
  have hconfirm : ((Visit.start s d).act .confirm).dialog = (d.confirm s).2.1 := (Visit.act_confirm hopen).2
  rw [hconfirm]
  rcases confirm_cases s hsound.table hsound.keys with ⟨hrefused | hdirectory, -⟩ | ⟨-, -, heq⟩
  · obtain ⟨e, he, hvalue⟩ := hrefused
    obtain ⟨v?, hv⟩ := exists_value_of_opened hopened e he
    exact absurd hv (hvalue v?)
  · exact absurd hdirectory (config_ne_directory hload)
  · rw [heq]

theorem get?_opened (hopened : opened s = .ok d) {k : Text} {v : Json} (hv : d.table.get? k = some v) :
    (collect d.controls d.table).1.get? k = some ((Control.untouchedValue (.text k) v).getD v) := by
  rw [(isSound_of_opened hopened).get?_collect hv, taken_opened hopened hv]

end Dialog

/-! ## The angle mode -/

theorem ofSetting?_name (m : AngleMode) : AngleMode.ofSetting? (.text m.name) = some m := by cases m <;> decide

/-- The untouched control of the angle mode gives a mode. It is another one if degrees were not set by a truth value or by
their exact name. -/
theorem ofSetting?_untouched {v : Json} {m : AngleMode} (h : AngleMode.ofSetting? v = some m) :
    ∃ m', AngleMode.ofSetting? ((Control.untouchedValue (.text angleModeKey) v).getD v) = some m' ∧
      (m' = m ↔ m = .radians ∨ (∃ b, v = .bool b) ∨ v = .text AngleMode.degrees.name) := by
  by_cases hbool : ∃ b, v = .bool b
  · obtain ⟨b, rfl⟩ := hbool
    exact ⟨m, h, by simp⟩
  · have huntouched : Control.untouchedValue (.text angleModeKey) v = some (.text (Control.modeShown v).name) := by
      rw [Control.untouchedValue]
      · rfl
      · intro b hb
        exact hbool ⟨b, hb⟩
    refine ⟨Control.modeShown v, by rw [huntouched]; exact ofSetting?_name _, ?_⟩
    have hshown := @Control.modeShown_eq_degrees_iff v
    have hdegrees : v = .text AngleMode.degrees.name → m = .degrees := by
      rintro rfl
      exact Option.some.inj (h.symm.trans (ofSetting?_name .degrees))
    cases hm : Control.modeShown v <;> cases m <;> simp_all

/-! ## The window -/

/-- The setup after an untouched dialog was confirmed. -/
theorem Window.InStep.confirm_untouched {w : Window} (h : w.InStep) {d : Dialog} (hopened : Dialog.opened w.store = .ok d)
    {v : Json} (hv : w.settings.get? angleModeKey = some v) : ∃ m,
      (w.visitSettings [.confirm]).1.session.setup = { w.session.setup with angleMode := m } ∧
      AngleMode.ofSetting? ((Control.untouchedValue (.text angleModeKey) v).getD v) = some m := by
  obtain ⟨captions, hload, -, hopen⟩ := Dialog.opened_eq_ok hopened
  have htable : w.settings = d.table := Except.ok.inj (h.loaded.symm.trans hload)
  have hsound : (Visit.start w.store d).IsSound := Dialog.isSound_of_opened hopened
  obtain ⟨⟨v', hv', hmode⟩, ⟨g, hg, hgraphing⟩, ⟨n, hn, hdepth⟩⟩ := h.setup
  obtain rfl : v = v' := Option.some.inj (hv.symm.trans hv')
  obtain ⟨m, hm, -⟩ := ofSetting?_untouched hmode
  rw [htable] at hv hg hn
  have hwritten : (Dialog.collect d.controls d.table).1.Gives { w.session.setup with angleMode := m } := by
    refine ⟨⟨_, Dialog.get?_opened hopened hv, hm⟩, ⟨g, ?_, hgraphing⟩, ⟨n, ?_, hdepth⟩⟩
    · rw [Dialog.get?_opened hopened hg, Control.untouchedValue_getD (by decide)]
    · rw [Dialog.get?_opened hopened hn, Control.untouchedValue_getD (by decide)]
  have hstore := (hsound.accepted hopen (Dialog.accepted_opened hopened)).2
  obtain ⟨-, -, -, hsession⟩ := reload_of_saved
    (w := { w with store := ((Visit.start w.store d).act .confirm).store })
    (Dialog.isTable_collect hsound.table hsound.keys) hwritten (by rw [hstore])
  refine ⟨m, ?_, hm⟩
  unfold Window.visitSettings
  rw [hopened]
  show (Window.reload { w with store := ((Visit.start w.store d).act .confirm).store }).1.session.setup = _
  rw [hsession]
  rfl

/-- **Confirming an untouched dialog.** In any window, whatever happened to it before, the dialog is accepted if it opens,
and graphing and the nesting limit stay as they were. So does the angle mode, if and only if the dialog does not open, or
the mode is radians, or degrees are set by a truth value or by their exact name. -/
theorem untouched_confirm_keeps_setup_iff {s : Store} {w : Window} (hstart : Window.start s = .ok w)
    {es : List Window.Event} (hes : ∀ e ∈ es, e.isOnWindow) :
    let before := (w.run es).session.setup
    let later := ((w.run es).visitSettings [.confirm]).1.session.setup
    (∀ d, Dialog.opened (w.run es).store = .ok d →
      ((Visit.start (w.run es).store d).run [.confirm]).dialog.ended = some .accepted) ∧
    later.graphing = before.graphing ∧ later.maxDepth = before.maxDepth ∧
    (later.angleMode = before.angleMode ↔ (∃ e, Dialog.opened (w.run es).store = .error e) ∨ before.angleMode = .radians ∨
      (∃ b, (w.run es).setting angleModeKey = .bool b) ∨
      (w.run es).setting angleModeKey = .text AngleMode.degrees.name) := by
  intro before later
  have hstep : (w.run es).InStep := (Window.InStep.of_start hstart).run hes
  refine ⟨fun d hd => Dialog.accepted_opened hd, ?_⟩
  cases hopened : Dialog.opened (w.run es).store with
  | error e =>
    have hsame : later = before := by
      unfold later Window.visitSettings
      rw [hopened]
    simp [hsame]
  | ok d =>
    obtain ⟨v, hv, hmode⟩ := hstep.setup.angleMode
    obtain ⟨m, hsetup, hm⟩ := hstep.confirm_untouched hopened hv
    obtain ⟨m', hm', hiff⟩ := ofSetting?_untouched hmode
    obtain rfl : m = m' := Option.some.inj (hm.symm.trans hm')
    have hlater : later = { before with angleMode := m } := hsetup
    have hsetting : (w.run es).setting angleModeKey = v := by simp [Window.setting, hv]
    rw [hlater, hsetting]
    simpa using hiff

def storeByPlace : Store := ⟨.file "\x7b\"angle_mode\": 1\x7d".toList, .absent⟩

/-- The mode is degrees before the untouched dialog is confirmed, and radians after it. -/
theorem exists_window_byPlace : ∃ w, Window.start storeByPlace = .ok w ∧ (Dialog.opened w.store).toOption.isSome ∧
    w.session.setup.angleMode = .degrees ∧ (w.setting angleModeKey).describe = ['1'] ∧
    (w.visitSettings [.confirm]).1.session.setup.angleMode = .radians := by
  have hwindow : (Window.start storeByPlace).toOption.any fun w => (Dialog.opened w.store).toOption.isSome ∧
      w.session.setup.angleMode = .degrees ∧ (w.setting angleModeKey).describe = ['1'] ∧
      (w.visitSettings [.confirm]).1.session.setup.angleMode = .radians := by decide +kernel
  obtain ⟨w, hstart, hw⟩ := exists_ok_of_any hwindow
  exact ⟨w, hstart, of_decide_eq_true hw⟩

/-- Graphing and the nesting limit are kept, and the angle mode is not. -/
theorem untouched_confirm_byPlace : ∃ w, Window.start storeByPlace = .ok w ∧
    (w.visitSettings [.confirm]).1.session.setup.graphing = w.session.setup.graphing ∧
    (w.visitSettings [.confirm]).1.session.setup.maxDepth = w.session.setup.maxDepth ∧
    (w.visitSettings [.confirm]).1.session.setup.angleMode ≠ w.session.setup.angleMode := by
  obtain ⟨w, hstart, hopened, hmode, hsetting, -⟩ := exists_window_byPlace
  have hnone : ∀ e ∈ ([] : List Window.Event), e.isOnWindow := List.forall_mem_nil _
  obtain ⟨-, hgraphing, hdepth, hiff⟩ := untouched_confirm_keeps_setup_iff hstart hnone
  refine ⟨w, hstart, hgraphing, hdepth, fun hkept => ?_⟩
  rcases hiff.1 hkept with ⟨e, he⟩ | hradians | ⟨b, hb⟩ | hname
  · have herror : Dialog.opened w.store = .error e := he
    simp [herror, Except.toOption] at hopened
  · have hsame : w.session.setup.angleMode = .radians := hradians
    simp [hsame] at hmode
  · have hbool : w.setting angleModeKey = .bool b := hb
    rw [hbool] at hsetting
    cases b <;> simp [Json.describe, Json.describeInner] at hsetting
  · have htext : w.setting angleModeKey = .text AngleMode.degrees.name := hname
    rw [htext] at hsetting
    revert hsetting
    decide

/-- The untouched dialog changes degrees to radians. -/
theorem untouched_confirm_changes_mode : ∃ w, Window.start storeByPlace = .ok w ∧
    w.session.setup.angleMode = .degrees ∧ (w.visitSettings [.confirm]).1.session.setup.angleMode = .radians := by
  obtain ⟨w, hstart, -, hmode, -, hlater⟩ := exists_window_byPlace
  exact ⟨w, hstart, hmode, hlater⟩

end Calculator
