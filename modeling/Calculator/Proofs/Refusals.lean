import Calculator.Proofs.Confirming

/-!
# What refused confirmations leave behind

A dialog that is refused stays open, with a table that has the values of the controls before the one that was refused. A
field that is blank at a later confirmation leaves them there, and they are written.

* `Visit.attempts` : what the controls were at each confirmation.
* `Dialog.remembered` : the value that such confirmations left under a key.
* `Dialog.overridden` : a table overridden by controls.
* `Visit.IsSound` : a visit to a sound dialog. `IsSound.run` : it stays one. `IsSound.confirm_cases` : a confirmation in it.
* `Visit.table_run` : the table of a dialog that is still open.
* `written_after_attempts` : what is written in the end, and when it is what the controls say at that moment.
-/

namespace Calculator

set_option autoImplicit false

namespace Dialog

/-- The value that confirmations left under a key: that of the last one that took one. -/
def remembered (key : Json) (tries : List (List (Json × Control))) : Option Json := tries.reverse.findSome? (taken key)

/-- A table, overridden by what the controls say; a blank field says nothing. -/
def overridden (s : Settings) (cs : List (Json × Control)) : Settings := s.map fun e => (e.1, (taken e.1 cs).getD e.2)

/-- The table as the confirmations left it. -/
def leftBy (tries : List (List (Json × Control))) (s : Settings) : Settings :=
  s.map fun e => (e.1, (remembered e.1 tries).getD e.2)

theorem remembered_cons (key : Json) (cs : List (Json × Control)) (tries : List (List (Json × Control))) :
    remembered key (cs :: tries) = (remembered key tries).or (taken key cs) := by
  unfold remembered
  rw [List.reverse_cons, List.findSome?_append, List.findSome?_singleton]

theorem leftBy_nil (s : Settings) : leftBy [] s = s := by
  unfold leftBy remembered
  simp

theorem leftBy_cons (cs : List (Json × Control)) (tries : List (List (Json × Control))) (s : Settings) :
    leftBy (cs :: tries) s = leftBy tries (overridden s cs) := by
  unfold leftBy overridden
  simp [remembered_cons]

/-- Confirmations leave no trace if no field is blank in the end that they left another value. -/
theorem overridden_leftBy_eq_iff (s : Settings) (tries : List (List (Json × Control))) (now : List (Json × Control)) :
    overridden (leftBy tries s) now = overridden s now ↔
      ∀ e ∈ s, taken e.1 now = none → (remembered e.1 tries).getD e.2 = e.2 := by
  unfold overridden leftBy
  rw [List.map_map, List.map_inj_left]
  apply forall₂_congr
  intro e _
  cases hnow : taken e.1 now <;> simp [hnow, Prod.ext_iff]

end Dialog

namespace Visit

open Dialog (overridden leftBy)

variable {v : Visit} {actions : List Dialog.Action}

/-! ## Runs -/

def attempts (v : Visit) : List Dialog.Action → List (List (Json × Control))
  | [] => []
  | .confirm :: actions => v.dialog.controls :: attempts (v.act .confirm) actions
  | a :: actions => attempts (v.act a) actions

theorem ended_act (h : v.dialog.ended.isSome) (a : Dialog.Action) : (v.act a).dialog.ended = v.dialog.ended := by
  cases a with
  | set | block => rfl
  | confirm | cancel => simp [act, h, noted]
  | unblock =>
    unfold act
    dsimp only
    split <;> rfl

theorem open_of_open_act {a : Dialog.Action} (h : (v.act a).dialog.ended = none) : v.dialog.ended = none := by
  by_contra hended
  rw [← Ne, Option.ne_none_iff_isSome] at hended
  rw [ended_act hended] at h
  simp [h] at hended

theorem open_of_open_run (h : (v.run actions).dialog.ended = none) : v.dialog.ended = none := by
  induction actions generalizing v with
  | nil => exact h
  | cons a actions ih => exact open_of_open_act (ih h)

theorem act_confirm (h : v.dialog.ended = none) : (v.act .confirm).store = (v.dialog.confirm v.store).1 ∧
    (v.act .confirm).dialog = (v.dialog.confirm v.store).2.1 := by
  unfold act
  simp [h, noted]

/-- The dialog of the visit is sound. -/
def IsSound (v : Visit) : Prop := v.dialog.IsSound

theorem IsSound.act (h : v.IsSound) (a : Dialog.Action) : (v.act a).IsSound := by
  cases a with
  | set key value => exact Dialog.IsSound.set h key value
  | block => exact h
  | confirm =>
    by_cases hopen : v.dialog.ended = none
    · unfold IsSound
      rw [(act_confirm hopen).2]
      exact Dialog.IsSound.confirm h v.store
    · unfold Visit.act
      rw [if_pos (Option.isSome_iff_ne_none.2 hopen)]
      exact h
  | cancel =>
    unfold Visit.act
    dsimp only
    split
    · exact h
    · exact Dialog.IsSound.cancel h
  | unblock =>
    unfold Visit.act
    dsimp only
    split
    · exact h
    · exact h

theorem IsSound.run (h : v.IsSound) (actions : List Dialog.Action) : (v.run actions).IsSound := by
  induction actions generalizing v with
  | nil => exact h
  | cons a actions ih => exact ih (h.act a)

theorem IsSound.table_confirm (h : v.IsSound) (hopen : v.dialog.ended = none) :
    (v.act .confirm).dialog.table = (Dialog.collect v.dialog.controls v.dialog.table).1 := by
  rw [(act_confirm hopen).2]
  rcases Dialog.confirm_cases v.store h.table h.keys with ⟨-, notice, heq⟩ | ⟨-, -, heq⟩ <;> rw [heq]

/-- A confirmation is refused and leaves the file as it was, or it is accepted, understands all controls and writes the
table that it makes. -/
theorem IsSound.confirm_cases (h : v.IsSound) (hopen : v.dialog.ended = none) :
    ((v.act .confirm).dialog.ended = none ∧ (v.act .confirm).store = v.store) ∨
      ((v.act .confirm).dialog.ended = some .accepted ∧ (∀ e ∈ v.dialog.controls, ∃ v?, e.2.value = .ok v?) ∧
        (v.act .confirm).store =
          ⟨.file (Json.indented (Dialog.collect v.dialog.controls v.dialog.table).1.toJson), v.store.captions⟩) := by
  obtain ⟨hstore, hdialog⟩ := act_confirm hopen
  rw [hstore, hdialog]
  rcases Dialog.confirm_cases v.store h.table h.keys with ⟨-, notice, heq⟩ | ⟨hall, -, heq⟩
  · left
    rw [heq]
    exact ⟨hopen, rfl⟩
  · right
    rw [heq]
    exact ⟨rfl, hall, rfl⟩

theorem IsSound.accepted (h : v.IsSound) (hopen : v.dialog.ended = none)
    (haccepted : (v.act .confirm).dialog.ended = some .accepted) :
    (∀ e ∈ v.dialog.controls, ∃ v?, e.2.value = .ok v?) ∧ (v.act .confirm).store =
      ⟨.file (Json.indented (Dialog.collect v.dialog.controls v.dialog.table).1.toJson), v.store.captions⟩ := by
  rcases h.confirm_cases hopen with ⟨hrefused, -⟩ | ⟨-, hwritten⟩
  · simp [hrefused] at haccepted
  · exact hwritten

/-- A dialog that stays open has the table that its confirmations left. -/
theorem table_run (h : v.IsSound) (hopen : (v.run actions).dialog.ended = none) :
    (v.run actions).dialog.table = leftBy (v.attempts actions) v.dialog.table := by
  induction actions generalizing v with
  | nil => exact (Dialog.leftBy_nil _).symm
  | cons a actions ih =>
    have hnext := ih (h.act a) hopen
    have hthen : (v.act a).dialog.ended = none := open_of_open_run hopen
    have hnow : v.dialog.ended = none := open_of_open_act hthen
    show ((v.act a).run actions).dialog.table = _
    rw [hnext]
    -- Only a confirmation changes the table, and it is the first of all that follow.
    cases a with
    | confirm =>
      rw [h.table_confirm hnow, Dialog.collect_eq h.table h.keys, attempts, Dialog.leftBy_cons]
      rfl
    | set | block => rfl
    | cancel =>
      simp [Visit.act, hnow, noted, Dialog.cancel] at hthen
    | unblock =>
      have htable : (v.act .unblock).dialog = v.dialog := by
        unfold Visit.act
        dsimp only
        split <;> rfl
      rw [htable]
      rfl

end Visit

/-! ## What is written -/

variable {s : Store} {d : Dialog} {before : List Dialog.Action}

/-- **What a confirmation writes after others that were refused.** Its controls are all understood, and the file gets the
settings with which the dialog opened, overridden by what the refused confirmations took and then by the controls. These
are the settings overridden by the controls alone if and only if for each setting that no control says anything about,
because its field is blank, the refused confirmations left the value that was loaded. -/
theorem written_after_attempts (hopened : Dialog.opened s = .ok d)
    (hopen : ((Visit.start s d).run before).dialog.ended = none)
    (haccepted : (((Visit.start s d).run before).act .confirm).dialog.ended = some .accepted) :
    let now := ((Visit.start s d).run before).dialog.controls
    let tries := (Visit.start s d).attempts before
    let written := Dialog.overridden (Dialog.leftBy tries d.table) now
    s.loadSettings = .ok d.table ∧
      (∀ e ∈ now, e.2.value = .ok (Dialog.taken e.1 now)) ∧
      (((Visit.start s d).run before).act .confirm).store.config = .file (Json.indented written.toJson) ∧
      (written = Dialog.overridden d.table now ↔
        ∀ e ∈ d.table, Dialog.taken e.1 now = none → (Dialog.remembered e.1 tries).getD e.2 = e.2) := by
  intro now tries written
  obtain ⟨captions, hload, -, -⟩ := Dialog.opened_eq_ok hopened
  have hsound : ((Visit.start s d).run before).IsSound := Visit.IsSound.run (Dialog.isSound_of_opened hopened) before
  have htable : ((Visit.start s d).run before).dialog.table = Dialog.leftBy tries d.table :=
    Visit.table_run (Dialog.isSound_of_opened hopened) hopen
  obtain ⟨hall, hstore⟩ := hsound.accepted hopen haccepted
  refine ⟨hload, ?_, ?_, Dialog.overridden_leftBy_eq_iff ..⟩
  · intro e he
    exact Dialog.value_eq_taken (hsound.keys.distinct hsound.table) hall he (hsound.keys.self hsound.table he)
  · rw [hstore, Dialog.collect_eq hsound.table hsound.keys, htable]
    rfl

/-! ## A limit beside a refused field -/

/-- Settings with one more number, `z`. -/
def storeWithNumber : Store := ⟨.file "\x7b\"z\": 1\x7d".toList, .absent⟩

/-- The nesting limit is confirmed beside a `z` that is refused, and then both fields are emptied. -/
def limitBesideRefusal : List Dialog.Action :=
  [.set Settings.maxDepthKey (.text "32".toList), .set ['z'] (.text ['x']), .confirm,
    .set Settings.maxDepthKey (.text []), .set ['z'] (.text [])]

/-- The visit just before its last confirmation. -/
def visitBesideRefusal (d : Dialog) : Visit := (Visit.start storeWithNumber d).run limitBesideRefusal

/-- No field says anything in the end, and another limit is written than the one that was loaded. -/
theorem exists_visitBesideRefusal : ∃ d, Dialog.opened storeWithNumber = .ok d ∧
    (visitBesideRefusal d).dialog.ended = none ∧
    ((visitBesideRefusal d).act .confirm).dialog.ended = some .accepted ∧
    (∃ e ∈ d.table, Dialog.taken e.1 (visitBesideRefusal d).dialog.controls = none ∧
      (Dialog.remembered e.1 ((Visit.start storeWithNumber d).attempts limitBesideRefusal)).getD e.2 ≠ e.2) ∧
    ((visitBesideRefusal d).act .confirm).store.config ≠
      .file (Json.indented (Dialog.overridden d.table (visitBesideRefusal d).dialog.controls).toJson) := by
  have hvisit : (Dialog.opened storeWithNumber).toOption.any fun d =>
      (visitBesideRefusal d).dialog.ended = none ∧
      ((visitBesideRefusal d).act .confirm).dialog.ended = some .accepted ∧
      (d.table.any fun e => (Dialog.taken e.1 (visitBesideRefusal d).dialog.controls).isNone ∧
        ((Dialog.remembered e.1 ((Visit.start storeWithNumber d).attempts limitBesideRefusal)).getD e.2).describe ≠
          e.2.describe) ∧
      ((visitBesideRefusal d).act .confirm).store.config ≠
        .file (Json.indented (Dialog.overridden d.table (visitBesideRefusal d).dialog.controls).toJson) := by
    decide +kernel
  obtain ⟨d, hopened, hd⟩ := exists_ok_of_any hvisit
  simp only [decide_eq_true_eq, List.any_eq_true] at hd
  obtain ⟨hopen, haccepted, ⟨e, he, hblank, hother⟩, hfile⟩ := hd
  exact ⟨d, hopened, hopen, haccepted,
    ⟨e, he, Option.isNone_iff_eq_none.1 hblank, fun h => hother (congrArg _ h)⟩, hfile⟩

/-- The settings that are written are not the loaded ones overridden by the controls. -/
theorem written_besideRefusal : ∃ d, Dialog.opened storeWithNumber = .ok d ∧
    (visitBesideRefusal d).dialog.ended = none ∧
    ((visitBesideRefusal d).act .confirm).dialog.ended = some .accepted ∧
    Dialog.overridden (Dialog.leftBy ((Visit.start storeWithNumber d).attempts limitBesideRefusal) d.table)
      (visitBesideRefusal d).dialog.controls ≠ Dialog.overridden d.table (visitBesideRefusal d).dialog.controls := by
  obtain ⟨d, hopened, hopen, haccepted, ⟨e, he, hblank, hother⟩, -⟩ := exists_visitBesideRefusal
  obtain ⟨-, -, -, hiff⟩ := written_after_attempts hopened hopen haccepted
  exact ⟨d, hopened, hopen, haccepted, fun heq => hother (hiff.1 heq e he hblank)⟩

theorem file_besideRefusal : ∃ d, Dialog.opened storeWithNumber = .ok d ∧
    (visitBesideRefusal d).dialog.ended = none ∧
    ((visitBesideRefusal d).act .confirm).dialog.ended = some .accepted ∧
    ((visitBesideRefusal d).act .confirm).store.config ≠
      .file (Json.indented (Dialog.overridden d.table (visitBesideRefusal d).dialog.controls).toJson) := by
  obtain ⟨d, hopened, hopen, haccepted, -, hfile⟩ := exists_visitBesideRefusal
  exact ⟨d, hopened, hopen, haccepted, hfile⟩

end Calculator
