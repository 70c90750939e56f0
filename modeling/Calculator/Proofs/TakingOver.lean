import Calculator.Proofs.Confirming
import Calculator.Proofs.FreshGraph

/-!
# Taking over settings

* `Settings.Gives` : the setup that a table stands for. `gives_of_start` : that of a new session.
* `Settings.HasLimit` : the nesting limit of a table stands for a number.
* `gives_collect` : the table of a confirmation stands for a setup, if that of the dialog has a limit.
* `gives_saved` : a table that was written and loaded stands for the same setup.
* `Session.withSetup`, `reload_of_gives` : what a window takes over.
* `reload_cases` : how far it comes, whatever the file holds.
-/

namespace Calculator

set_option autoImplicit false

namespace Settings

/-- The table stands for a setup. -/
structure Gives (s : Settings) (u : Setup) : Prop where
  angleMode : ∃ v, s.get? angleModeKey = some v ∧ AngleMode.ofSetting? v = some u.angleMode
  graphing : ∃ v, s.get? graphingKey = some v ∧ v.holds = u.graphing
  maxDepth : ∃ v, s.get? maxDepthKey = some v ∧ v.toInt = .ok u.maxDepth

/-- The nesting limit stands for a number. -/
def HasLimit (s : Settings) : Prop := ∃ v n, s.get? maxDepthKey = some v ∧ v.toInt = .ok n

variable {s : Settings} {u : Setup}

theorem Gives.hasLimit (h : s.Gives u) : s.HasLimit := by
  obtain ⟨v, hv, hn⟩ := h.maxDepth
  exact ⟨v, _, hv, hn⟩

theorem angleModeOf_eq_ok {v : Json} {m : AngleMode} : Session.angleModeOf v = .ok m ↔ AngleMode.ofSetting? v = some m := by
  unfold Session.angleModeOf
  split <;> simp_all

theorem maxDepthOf_eq_ok {v : Json} {n : ℤ} : Session.maxDepthOf v = .ok n ↔ v.toInt = .ok n := by
  unfold Session.maxDepthOf
  rw [mapError_eq_ok]

theorem gives_of_start (hs : IsTable s) {session : Session} (h : Session.start s = .ok session) :
    s.Gives session.setup := by
  obtain ⟨v, hv⟩ := hs.exists_get? (k := angleModeKey) (by decide)
  obtain ⟨g, hg⟩ := hs.exists_get? (k := graphingKey) (by decide)
  obtain ⟨n, hn⟩ := hs.exists_get? (k := maxDepthKey) (by decide)
  obtain ⟨mode, hmode, h⟩ := bind_eq_ok.1 h
  obtain ⟨limit, hlimit, h⟩ := bind_eq_ok.1 h
  obtain rfl := Except.ok.inj h
  simp only [hv, hn, Option.map_some, Option.getD_some] at hmode hlimit
  refine ⟨⟨v, hv, angleModeOf_eq_ok.1 hmode⟩, ⟨g, hg, ?_⟩, ⟨n, hn, maxDepthOf_eq_ok.1 hlimit⟩⟩
  simp [Session.empty, hg]

theorem gives_saved (hs : IsTable s) (h : s.Gives u) : (ofFields (savedFields s)).Gives u := by
  obtain ⟨⟨v, hv, hmode⟩, ⟨g, hg, hgraphing⟩, ⟨n, hn, hdepth⟩⟩ := h
  exact ⟨⟨v, get?_saved_of_mem_defaultKeys hs (by decide) hv, hmode⟩,
    ⟨g, get?_saved_of_mem_defaultKeys hs (by decide) hg, hgraphing⟩,
    ⟨n, get?_saved_of_mem_defaultKeys hs (by decide) hn, hdepth⟩⟩

end Settings

/-! ## The table of a confirmation -/

namespace Dialog.IsSound

open Settings

variable {d : Dialog}

theorem get?_collect (h : d.IsSound) {k : Text} {v : Json} (hv : d.table.get? k = some v) :
    (Dialog.collect d.controls d.table).1.get? k = some ((taken (.text k) d.controls).getD v) := by
  apply get?_eq_some_of_mem (isTable_collect h.table h.keys)
  rw [collect_eq h.table h.keys]
  exact List.mem_map.2 ⟨_, mem_of_get?_eq_some hv, rfl⟩

/-- What is taken for a key is the value of a control that suits it. -/
theorem exists_of_taken (h : d.IsSound) {k : Text} {v : Json} (hv : taken (.text k) d.controls = some v) :
    ∃ c : Control, c.Suits (.text k) ∧ c.value = .ok (some v) := by
  obtain ⟨e, he, hkey, hvalue⟩ := Dialog.exists_of_taken hv
  have hk : e.1 = .text k := sameKey_text_iff.1 hkey
  exact ⟨e.2, hk ▸ h.suits e he, hvalue⟩

theorem exists_angleMode (h : d.IsSound) (hall : ∀ e ∈ d.controls, ∃ v?, e.2.value = .ok v?) :
    ∃ v m, taken (.text angleModeKey) d.controls = some v ∧ AngleMode.ofSetting? v = some m := by
  obtain ⟨⟨k, c⟩, hmem, hk⟩ := List.mem_map.1 h.angleMode
  obtain rfl : k = .text angleModeKey := hk
  have htaken := value_eq_taken (h.keys.distinct h.table) hall hmem (h.keys.self h.table hmem)
  have hsuits := h.suits _ hmem
  cases c with
  | checkBox caption checked =>
    refine ⟨.bool checked, if checked then .degrees else .radians, ?_, ?_⟩
    · exact (Except.ok.inj htaken).symm
    · cases checked <;> rfl
  | choice caption current =>
    refine ⟨.text current.name, current, ?_, ?_⟩
    · exact (Except.ok.inj htaken).symm
    · cases current <;> rfl
  | input caption placeholder t => exact absurd (sameKey_text_iff.2 rfl) hsuits

theorem hasLimit_collect (h : d.IsSound) (hlimit : d.table.HasLimit) :
    (Dialog.collect d.controls d.table).1.HasLimit := by
  obtain ⟨v, n, hv, hn⟩ := hlimit
  have hget := h.get?_collect hv
  cases htaken : taken (.text maxDepthKey) d.controls with
  | none =>
    rw [htaken] at hget
    exact ⟨v, n, hget, hn⟩
  | some u =>
    rw [htaken] at hget
    obtain ⟨c, hsuits, hvalue⟩ := h.exists_of_taken htaken
    obtain ⟨m, hm⟩ : ∃ m, u.toInt = .ok m := by
      cases c with
      | checkBox caption checked =>
        obtain rfl : .bool checked = u := Option.some.inj (Except.ok.inj hvalue)
        exact ⟨_, rfl⟩
      | choice caption current =>
        have hother : ¬sameKey (.text maxDepthKey) (.text angleModeKey) := by decide
        exact absurd hsuits hother
      | input caption placeholder t =>
        obtain ⟨m, rfl, -⟩ := value_input hvalue
        exact ⟨m, rfl⟩
    exact ⟨u, m, hget, hm⟩

/-- If all controls are understood, the table stands for a setup. -/
theorem gives_collect (h : d.IsSound) (hlimit : d.table.HasLimit) (hall : ∀ e ∈ d.controls, ∃ v?, e.2.value = .ok v?) :
    ∃ u, (Dialog.collect d.controls d.table).1.Gives u := by
  obtain ⟨v, m, hv, hm⟩ := h.exists_angleMode hall
  obtain ⟨old, hold⟩ := h.table.exists_get? (k := angleModeKey) (by decide)
  obtain ⟨g, hg⟩ := (isTable_collect h.table h.keys).exists_get? (k := graphingKey) (by decide)
  obtain ⟨l, n, hl, hn⟩ := h.hasLimit_collect hlimit
  refine ⟨⟨m, g.holds, n⟩, ⟨v, ?_, hm⟩, ⟨g, hg, rfl⟩, ⟨l, hl, hn⟩⟩
  rw [h.get?_collect hold, hv]
  rfl

end Dialog.IsSound

/-! ## What a window takes over -/

/-- The session with another setup, its graph drawn again. -/
def Session.withSetup (s : Session) (u : Setup) : Session := redraw { s with setup := u }

/-- A session with a fresh graph has it already. -/
theorem Session.IsFresh.withSetup_self {s : Session} (h : s.IsFresh) : s.withSetup s.setup = s := by
  unfold Session.IsFresh at h
  unfold Session.withSetup Session.redraw
  rw [← h]

/-- **Settings that stand for a setup are taken over**, without a fault. -/
theorem reload_of_gives {w : Window} {s : Settings} {u : Setup} (hload : w.store.loadSettings = .ok s) (h : s.Gives u) :
    w.reload.2 = none ∧ w.reload.1.store = w.store ∧ w.reload.1.settings = s ∧
      w.reload.1.session = w.session.withSetup u := by
  obtain ⟨⟨v, hv, hmode⟩, ⟨g, hg, hgraphing⟩, ⟨n, hn, hdepth⟩⟩ := h
  have hlimit : Session.maxDepthOf n = .ok u.maxDepth := Settings.maxDepthOf_eq_ok.2 hdepth
  have hangle : Session.angleModeOf v = .ok u.angleMode := Settings.angleModeOf_eq_ok.2 hmode
  unfold Window.reload
  simp only [hload, Window.setting, hv, hg, hn, Option.getD_some, hlimit, Session.setAngleMode, hangle, hgraphing]
  exact ⟨rfl, rfl, rfl, rfl⟩

/-- **How far it comes, whatever the file holds**: a fault comes before anything is drawn, and then the session has got a new
nesting limit at most; without one the session is drawn as it is then. -/
theorem reload_cases (w : Window) :
    (w.reload.1.view = w.view ∧ ∃ limit, w.reload.1.session = w.session.setMaxDepth limit) ∨
      (w.reload.1.view = .ofSession w.reload.1.session ∧ ∃ u, w.reload.1.session = w.session.withSetup u) := by
  unfold Window.reload
  split
  · exact .inl ⟨rfl, w.session.setup.maxDepth, rfl⟩
  · simp only
    split
    · exact .inl ⟨rfl, w.session.setup.maxDepth, rfl⟩
    · split
      · exact .inl ⟨rfl, _, rfl⟩
      · rename_i session hsession
        obtain ⟨mode, -, h⟩ := bind_eq_ok.1 hsession
        obtain rfl := Except.ok.inj h
        exact .inr ⟨rfl, ⟨mode, _, _⟩, rfl⟩

end Calculator
