import Calculator.Proofs.SettingsTable
import Calculator.Settings.Dialog

/-!
# Confirming a dialog

When a dialog is confirmed, the values of its controls go into the table one after another, up to the first that is not
understood. Only if there is none, the table is written.

* `readInput_least`, `storable_value` : what a field takes, and what any control stands for.
* `Dialog.taken` : the value that a confirmation puts under a key. `value_eq_taken` : that of its control.
* `Dialog.HasKeys` : the controls belong to keys of the table, in their order.
* `Dialog.collect_eq` : what a confirmation makes of a table.
* `Dialog.confirm_cases` : all that a confirmation does.
* `Dialog.opened_eq_ok` : the dialog as it opens; `exists_of_mem_controlsOf`, `control_of_mem` : its controls.
* `Dialog.IsSound` : what holds of a dialog that opens, and of all that becomes of it.
-/

namespace Calculator

set_option autoImplicit false

open Calculator.Number
open Json (Storable)
open Settings (IsTable)

/-! ## Fields -/

theorem isDigit_dropUnderscores? {t u : Text} {afterDigit : Bool} (ht : ∀ c ∈ t, c.isDigit || c == '_')
    (h : dropUnderscores? afterDigit t = some u) : ∀ c ∈ u, c.isDigit := by
  induction t generalizing afterDigit u with
  | nil =>
    obtain rfl : [] = u := Option.some.inj h
    simp
  | cons c t ih =>
    obtain ⟨hc, hrest⟩ := List.forall_mem_cons.1 ht
    by_cases hmark : c = '_'
    · subst hmark
      cases t with
      | nil => simp [dropUnderscores?] at h
      | cons d t =>
        rw [dropUnderscores?] at h
        split_ifs at h
        exact ih hrest h
    · rw [dropUnderscores?] at h
      · obtain ⟨u', hu, rfl⟩ := Option.map_eq_some_iff.1 h
        simp only [beq_iff_eq, hmark, or_false, Bool.or_eq_true] at hc
        exact List.forall_mem_cons.2 ⟨hc, ih hrest hu⟩
      · exact hmark

/-- A whole number that was read is not too long to be written. -/
theorem storable_of_readInt {t : Text} {n : ℤ} (h : readInt t = .ok n) : Storable (.int n) := by
  unfold readInt at h
  dsimp only at h
  split at h
  · simp at h
  · simp at h
  · rename_i digits _ hdrop
    split_ifs at h with hlong hrest
    all_goals
      obtain rfl := Except.ok.inj h
      have hrun : ∀ c ∈ (splitSign (plain t)).2.takeWhile fun c => c.isDigit || c == '_', c.isDigit || c == '_' :=
        fun c hc => by simpa using List.mem_takeWhile_imp hc
      apply Json.storable_int_of_digits (isDigit_dropUnderscores? hrun hdrop) (not_lt.1 hlong)
      simp

/-- A field takes a number that can be written and is not too small. -/
theorem readInput_least {t : Text} {n : ℤ} (h : readInput t = .ok (some n)) :
    Settings.leastInput ≤ n ∧ Storable (.int n) := by
  unfold readInput at h
  split at h
  · simp at h
  · split at h
    · simp at h
    · rename_i m hm
      split_ifs at h with hsmall
      simp only [Except.ok.injEq, Option.some.injEq] at h
      subst h
      exact ⟨not_lt.1 hsmall, storable_of_readInt hm⟩

theorem value_input {caption placeholder t : Text} {v : Json}
    (h : (Control.input caption placeholder t).value = .ok (some v)) : ∃ n, v = .int n ∧ readInput t = .ok (some n) := by
  unfold Control.value at h
  cases hread : readInput t with
  | error e => simp [hread, Except.map] at h
  | ok n? =>
    simp only [hread, Except.map, Except.ok.injEq, Option.map_eq_some_iff] at h
    obtain ⟨n, rfl, rfl⟩ := h
    exact ⟨n, rfl, rfl⟩

theorem storable_value {c : Control} {v : Json} (h : c.value = .ok (some v)) : Storable v := by
  cases c with
  | checkBox caption checked =>
    obtain rfl : .bool checked = v := Option.some.inj (Except.ok.inj h)
    exact ⟨rfl, rfl⟩
  | choice caption current =>
    obtain rfl : .text current.name = v := Option.some.inj (Except.ok.inj h)
    exact Settings.storable_text _
  | input caption placeholder t =>
    obtain ⟨n, rfl, hn⟩ := value_input h
    exact (readInput_least hn).2

namespace Dialog

variable {s : Settings} {cs : List (Json × Control)} {k key v : Json} {c : Control}

/-! ## The values that are taken -/

/-- The value that a confirmation puts under a key: that of its control, if every control before it is understood, and
it too; a blank field has none. -/
def taken (key : Json) : List (Json × Control) → Option Json
  | [] => none
  | (k, c) :: rest =>
    match c.value with
    | .ok v => if sameKey k key then v else taken key rest
    | .error _ => none

theorem taken_error {e : InputFault} (hc : c.value = .error e) : taken key ((k, c) :: cs) = none := by
  simp [taken, hc]

theorem taken_ok {v? : Option Json} (hc : c.value = .ok v?) :
    taken key ((k, c) :: cs) = if sameKey k key then v? else taken key cs := by
  simp [taken, hc]

theorem taken_eq_none (h : ∀ e ∈ cs, sameKey e.1 key = false) : taken key cs = none := by
  induction cs with
  | nil => rfl
  | cons e cs ih =>
    obtain ⟨hk, hcs⟩ := List.forall_mem_cons.1 h
    cases hc : e.2.value with
    | ok v? => simp [taken_ok hc, hk, ih hcs]
    | error e => exact taken_error hc

theorem exists_of_taken (h : taken key cs = some v) : ∃ e ∈ cs, sameKey e.1 key ∧ e.2.value = .ok (some v) := by
  induction cs with
  | nil => simp [taken] at h
  | cons e cs ih =>
    cases hc : e.2.value with
    | error f => simp [taken_error hc] at h
    | ok v? =>
      rw [taken_ok hc] at h
      by_cases hk : sameKey e.1 key
      · rw [if_pos hk] at h
        exact ⟨e, List.mem_cons_self .., hk, h ▸ hc⟩
      · rw [if_neg hk] at h
        obtain ⟨e', he', h'⟩ := ih h
        exact ⟨e', List.mem_cons_of_mem _ he', h'⟩

theorem storable_taken (h : taken key cs = some v) : Storable v := by
  obtain ⟨e, -, -, he⟩ := exists_of_taken h
  exact storable_value he

theorem storable_taken_getD {u : Json} (hu : Storable u) : Storable ((taken key cs).getD u) := by
  cases h : taken key cs with
  | none => exact hu
  | some v => exact storable_taken h

/-- If all controls are understood, a confirmation takes what each of them says. -/
theorem value_eq_taken (hdistinct : Distinct sameKey cs) (hall : ∀ e ∈ cs, ∃ v?, e.2.value = .ok v?)
    (hmem : (k, c) ∈ cs) (hself : sameKey k k) : c.value = .ok (taken k cs) := by
  induction cs with
  | nil => simp at hmem
  | cons e cs ih =>
    obtain ⟨hhead, htail⟩ := List.pairwise_cons.1 hdistinct
    obtain ⟨⟨v?, hv⟩, hall⟩ := List.forall_mem_cons.1 hall
    rcases List.mem_cons.1 hmem with rfl | hmem
    · rw [taken_ok hv, if_pos hself, hv]
    · have hdiffer : sameKey e.1 k = false := hhead _ hmem
      rw [ih htail hall hmem, taken_ok hv, hdiffer]
      simp

/-! ## The keys of the controls -/

/-- The controls belong to keys of the table, in their order. -/
def HasKeys (cs : List (Json × Control)) (s : Settings) : Prop := (cs.map Prod.fst).Sublist (s.map Prod.fst)

namespace HasKeys

theorem of_keys_eq {cs' : List (Json × Control)} {s' : Settings} (h : HasKeys cs s)
    (hcs : cs'.map Prod.fst = cs.map Prod.fst) (hs : s'.map Prod.fst = s.map Prod.fst) : HasKeys cs' s' := by
  unfold HasKeys
  rwa [hcs, hs]

theorem tail (h : HasKeys ((k, c) :: cs) s) : HasKeys cs s := List.Sublist.trans (List.sublist_cons_self ..) h

theorem map (h : HasKeys cs s) (f : Json × Json → Json) : HasKeys cs (s.map fun e => (e.1, f e)) :=
  h.of_keys_eq rfl (by simp)

theorem mem (h : HasKeys cs s) {e : Json × Control} (he : e ∈ cs) : e.1 ∈ s.map Prod.fst :=
  List.Sublist.subset h (List.mem_map_of_mem he)

theorem self (h : HasKeys cs s) (hs : IsTable s) {e : Json × Control} (he : e ∈ cs) : sameKey e.1 e.1 := by
  obtain ⟨e', he', hkey⟩ := List.mem_map.1 (h.mem he)
  exact sameKey_self (hkey ▸ (hs.entries e' he').1)

theorem distinct (h : HasKeys cs s) (hs : IsTable s) : Distinct sameKey cs := by
  have hkeys : (s.map Prod.fst).Pairwise fun k l => sameKey k l = false := List.pairwise_map.2 hs.distinct
  exact List.pairwise_map.1 (List.Pairwise.sublist h hkeys)

theorem taken_of_same (h : HasKeys ((k, c) :: cs) s) (hs : IsTable s) {e : Json × Json} (he : e ∈ s)
    (hsame : sameKey k e.1) : taken e.1 cs = none := by
  have hk : e.1 = k := hs.distinct.eq_of_same sameKey_comm he (h.mem (List.mem_cons_self ..)) hsame
  apply taken_eq_none
  intro e' he'
  rw [hk, sameKey_comm]
  exact List.rel_of_pairwise_cons (h.distinct hs) he'

/-- The value of the first control goes into the table, and the later ones leave it there. -/
theorem taken_cons (h : HasKeys ((k, c) :: cs) s) (hs : IsTable s) {v? : Option Json} (hc : c.value = .ok v?)
    {e : Json × Json} (he : e ∈ s) : (taken e.1 ((k, c) :: cs)).getD e.2 =
      (taken e.1 cs).getD (if sameKey k e.1 then v?.getD e.2 else e.2) := by
  by_cases hsame : sameKey k e.1
  · simp [taken_ok hc, hsame, h.taken_of_same hs he hsame]
  · simp [taken_ok hc, hsame]

end HasKeys

/-! ## What becomes of the table -/

/-- A confirmation replaces the values of the controls that it gets to. -/
theorem collect_eq (hs : IsTable s) (h : HasKeys cs s) :
    (collect cs s).1 = s.map fun e => (e.1, (taken e.1 cs).getD e.2) := by
  induction cs generalizing s with
  | nil => simp [collect, taken]
  | cons e cs ih =>
    obtain ⟨k, c⟩ := e
    unfold collect
    split
    · rename_i v hc
      have hself : sameKey k k := h.self hs (List.mem_cons_self ..)
      have hput : IsTable (s.map fun e => (e.1, if sameKey k e.1 then v else e.2)) := by
        apply hs.map
        intro e he
        split
        · exact storable_value hc
        · exact (hs.entries e he).2
      rw [Settings.put_eq_upsert, upsert_eq_map sameKey_comm hs.distinct hself (h.mem (List.mem_cons_self ..)),
        ih hput (h.tail.map _), List.map_map]
      apply List.map_congr_left
      intro e he
      simp [h.taken_cons hs hc he]
    · rename_i hc
      rw [ih hs h.tail]
      apply List.map_congr_left
      intro e he
      simp [h.taken_cons hs hc he]
    · rename_i e hc
      simp [taken_error hc]

theorem keys_collect (hs : IsTable s) (h : HasKeys cs s) : (collect cs s).1.map Prod.fst = s.map Prod.fst := by
  simp [collect_eq hs h]

theorem isTable_collect (hs : IsTable s) (h : HasKeys cs s) : IsTable (collect cs s).1 := by
  rw [collect_eq hs h]
  apply hs.map
  intro e he
  exact storable_taken_getD (hs.entries e he).2

theorem collect_snd_eq_none_iff : (collect cs s).2 = none ↔ ∀ e ∈ cs, ∃ v?, e.2.value = .ok v? := by
  induction cs generalizing s with
  | nil => simp [collect]
  | cons e cs ih =>
    obtain ⟨k, c⟩ := e
    unfold collect
    split <;> simp_all

/-! ## What becomes of the dialog -/

theorem toJson_ne_empty (hs : IsTable s) : s.toJson ≠ .object [] := by
  have hne : s.map Prod.fst ≠ [] := List.IsPrefix.ne_nil hs.begins (by decide)
  simp_all [Settings.toJson]

/-- **A confirmation** either keeps the dialog open and the file as it is, with a message, or writes the table that it
makes and ends the dialog. The table changes in both cases. -/
theorem confirm_cases {d : Dialog} (store : Store) (hs : IsTable d.table) (h : HasKeys d.controls d.table) :
    (((∃ e ∈ d.controls, ∀ v?, e.2.value ≠ .ok v?) ∨ store.config = .directory) ∧ ∃ notice,
      d.confirm store = (store, { d with table := (collect d.controls d.table).1 }, [notice])) ∨
    ((∀ e ∈ d.controls, ∃ v?, e.2.value = .ok v?) ∧ store.config ≠ .directory ∧
      d.confirm store = (⟨.file (Json.indented (collect d.controls d.table).1.toJson), store.captions⟩,
        { d with table := (collect d.controls d.table).1, saves := d.saves + 1, ended := some .accepted }, [])) := by
  have hwritten : IsTable (collect d.controls d.table).1 := isTable_collect hs h
  have hunderstood := @collect_snd_eq_none_iff d.table d.controls
  unfold confirm
  -- What saving gives back is compared with an empty object, which no table is.
  generalize collect d.controls d.table = collected at hwritten hunderstood
  obtain ⟨table, refused⟩ := collected
  cases refused with
  | some refusal =>
    left
    have hrefused : ∃ e ∈ d.controls, ∀ v?, e.2.value ≠ .ok v? := by simpa using hunderstood
    exact ⟨.inl hrefused, _, rfl⟩
  | none =>
    simp only [Store.save_of_writable (Settings.isWritable_toJson hwritten)]
    by_cases hconfig : store.config = .directory
    · left
      refine ⟨.inr hconfig, saveNotice, ?_⟩
      simp only [if_pos hconfig]
    · right
      refine ⟨hunderstood.1 rfl, hconfig, ?_⟩
      simp only [if_neg hconfig]
      split
      · rename_i hempty
        exact absurd (congrArg Prod.snd hempty) (toJson_ne_empty hwritten)
      · rename_i hsaved
        obtain ⟨rfl, -⟩ := Prod.mk.inj hsaved
        rfl

/-! ## Opening -/

theorem opened_eq_ok {store : Store} {d : Dialog} (h : opened store = .ok d) : ∃ captions,
    store.loadSettings = .ok d.table ∧ controlsOf captions d.table = .ok d.controls ∧ d.ended = none := by
  obtain ⟨table, htable, h⟩ := bind_eq_ok.1 h
  obtain ⟨captions, -, h⟩ := bind_eq_ok.1 h
  split at h
  · obtain ⟨controls, hcontrols, h⟩ := bind_eq_ok.1 h
    obtain rfl := Except.ok.inj h
    exact ⟨_, htable, hcontrols, rfl⟩
  · simp at h

section Controls

variable {captions : Fields}

theorem hasKeys_of_controlsOf (h : controlsOf captions s = .ok cs) : HasKeys cs s := by
  induction s generalizing cs with
  | nil =>
    obtain rfl := Except.ok.inj h
    exact List.Sublist.refl _
  | cons e s ih =>
    obtain ⟨control?, -, h⟩ := bind_eq_ok.1 h
    obtain ⟨others, hothers, h⟩ := bind_eq_ok.1 h
    obtain rfl := Except.ok.inj h
    cases control? with
    | none => exact (ih hothers).cons _
    | some c => exact (ih hothers).cons_cons _

theorem exists_of_mem_controlsOf (h : controlsOf captions s = .ok cs) (hmem : (k, c) ∈ cs) :
    ∃ v, (k, v) ∈ s ∧ Control.ofSetting k (captionOf captions k) v = .ok (some c) := by
  induction s generalizing cs with
  | nil =>
    obtain rfl := Except.ok.inj h
    simp at hmem
  | cons e s ih =>
    obtain ⟨control?, hcontrol, h⟩ := bind_eq_ok.1 h
    obtain ⟨others, hothers, h⟩ := bind_eq_ok.1 h
    obtain rfl := Except.ok.inj h
    have hlater : (k, c) ∈ others → ∃ v, (k, v) ∈ e :: s ∧
        Control.ofSetting k (captionOf captions k) v = .ok (some c) := by
      intro hmem
      obtain ⟨v, hv, hset⟩ := ih hothers hmem
      exact ⟨v, List.mem_cons_of_mem _ hv, hset⟩
    cases control? with
    | none => exact hlater hmem
    | some c' =>
      rcases List.mem_cons.1 hmem with heq | hmem
      · obtain ⟨rfl, rfl⟩ := Prod.mk.inj heq
        exact ⟨e.2, List.mem_cons_self .., hcontrol⟩
      · exact hlater hmem

/-- A setting has its control, if any. -/
theorem control_of_mem (h : controlsOf captions s = .ok cs) (hmem : (k, v) ∈ s) :
    ∃ control?, Control.ofSetting k (captionOf captions k) v = .ok control? ∧ ∀ c, control? = some c → (k, c) ∈ cs := by
  induction s generalizing cs with
  | nil => simp at hmem
  | cons e s ih =>
    obtain ⟨control?, hcontrol, h⟩ := bind_eq_ok.1 h
    obtain ⟨others, hothers, h⟩ := bind_eq_ok.1 h
    obtain rfl := Except.ok.inj h
    rcases List.mem_cons.1 hmem with rfl | hmem
    · refine ⟨control?, hcontrol, ?_⟩
      rintro c rfl
      exact List.mem_cons_self ..
    · obtain ⟨found?, hfound, hothers⟩ := ih hothers hmem
      refine ⟨found?, hfound, fun c hc => ?_⟩
      cases control? with
      | none => exact hothers c hc
      | some c' => exact List.mem_cons_of_mem _ (hothers c hc)

end Controls

/-! ## Sound dialogs -/

end Dialog

/-- A choice belongs to the angle mode, and a field does not. -/
def Control.Suits (key : Json) : Control → Prop
  | checkBox .. => True
  | choice .. => sameKey key (.text Settings.angleModeKey)
  | input .. => ¬sameKey key (.text Settings.angleModeKey)

theorem Control.suits_of_ofSetting {key caption value : Json} {c : Control}
    (h : ofSetting key caption value = .ok (some c)) : c.Suits key := by
  unfold ofSetting at h
  split at h
  · obtain rfl := Option.some.inj (Except.ok.inj h)
    trivial
  · split_ifs at h with hkey
    · obtain rfl := Option.some.inj (Except.ok.inj h)
      exact hkey
    · split at h
      · obtain rfl := Option.some.inj (Except.ok.inj h)
        exact hkey
      all_goals simp at h

theorem Control.suits_set {key : Json} {c : Control} (h : c.Suits key) (value : Json) : (c.set value).Suits key := by
  unfold Control.set
  split <;> exact h

namespace Dialog

/-- A dialog over a table, with controls that suit their keys, one of them for the angle mode. -/
structure IsSound (d : Dialog) : Prop where
  table : IsTable d.table
  keys : HasKeys d.controls d.table
  suits : ∀ e ∈ d.controls, e.2.Suits e.1
  angleMode : .text Settings.angleModeKey ∈ d.controls.map Prod.fst

theorem isSound_of_opened {store : Store} {d : Dialog} (h : opened store = .ok d) : d.IsSound := by
  obtain ⟨captions, htable, hcontrols, -⟩ := opened_eq_ok h
  have hisTable : IsTable d.table := Settings.isTable_of_loadSettings htable
  refine ⟨hisTable, hasKeys_of_controlsOf hcontrols, ?_, ?_⟩
  · intro e he
    obtain ⟨v, -, hset⟩ := exists_of_mem_controlsOf hcontrols he
    exact Control.suits_of_ofSetting hset
  · obtain ⟨v, hv⟩ := hisTable.exists_get? (k := Settings.angleModeKey) (by decide)
    obtain ⟨control?, hset, hmem⟩ := control_of_mem hcontrols (Settings.mem_of_get?_eq_some hv)
    obtain ⟨c, rfl⟩ : ∃ c, control? = some c := by
      unfold Control.ofSetting at hset
      split at hset <;> exact ⟨_, (Except.ok.inj hset).symm⟩
    exact List.mem_map_of_mem (hmem c rfl)

theorem keys_set (d : Dialog) (key : Text) (value : Json) :
    (d.set key value).controls.map Prod.fst = d.controls.map Prod.fst := by
  unfold Dialog.set
  rw [List.map_map]
  apply List.map_congr_left
  intro e _
  simp only [Function.comp_apply]
  split <;> rfl

namespace IsSound

variable {d : Dialog}

theorem set (h : d.IsSound) (key : Text) (value : Json) : (d.set key value).IsSound := by
  refine ⟨h.table, h.keys.of_keys_eq (keys_set d key value) rfl, ?_, ?_⟩
  · intro e he
    obtain ⟨e', he', rfl⟩ := List.mem_map.1 he
    split
    · exact Control.suits_set (h.suits e' he') value
    · exact h.suits e' he'
  · rw [keys_set]
    exact h.angleMode

/-- The table that a confirmation makes, and the controls as they were. -/
theorem collect (h : d.IsSound) {saves : Nat} {ended : Option DialogEnd} :
    IsSound ⟨(Dialog.collect d.controls d.table).1, d.controls, saves, ended⟩ :=
  ⟨isTable_collect h.table h.keys, h.keys.of_keys_eq rfl (keys_collect h.table h.keys), h.suits, h.angleMode⟩

theorem confirm (h : d.IsSound) (store : Store) : (d.confirm store).2.1.IsSound := by
  rcases confirm_cases store h.table h.keys with ⟨-, notice, heq⟩ | ⟨-, -, heq⟩
  all_goals
    rw [heq]
    exact h.collect

theorem cancel (h : d.IsSound) : d.cancel.IsSound := ⟨h.table, h.keys, h.suits, h.angleMode⟩

end IsSound

end Dialog

end Calculator
