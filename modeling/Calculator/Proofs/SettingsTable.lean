import Calculator.Proofs.StoredValue
import Calculator.Settings.Store

/-!
# Tables of settings

* `sameKey_text_iff`, `sameKey_self`, `sameKey_comm` : keys as they are compared.
* `Settings.IsTable` : the tables that are loaded and written. `isTable_of_loadSettings` : those of a file.
* `keyText_eq_iff` : no other key is written like one of the defaults.
* `loadValue_of_read` : a value of a file by its key.
* `Store.save_of_writable` : what becomes of the file.
* `savedFields`, `read_saved`, `loadSettings_saved` : what is read of a table that was written.
* `get?_savedFields` : its values.
-/

namespace Calculator

set_option autoImplicit false

open Calculator.Text (decimalInt)
open Json (Storable)

/-! ## Keys -/

theorem sameKey_text_iff {k : Json} {t : Text} : sameKey k (.text t) ↔ k = .text t := by
  have hnumber : ¬(k.integerPart?.isSome && k.integerPart? == (Json.text t).integerPart?) := by
    cases k.integerPart? <;> simp [Json.integerPart?]
  cases k with
  | text s => simp [sameKey]
  | _ => exact iff_of_false hnumber nofun

/-- A key is the same as itself, also one that is no number. -/
theorem sameKey_self {k : Json} (h : Settings.isScalar k) : sameKey k k := by
  cases k with
  | text t => simp [sameKey]
  | null => rfl
  | bool b => simp [sameKey, Json.integerPart?]
  | int n => simp [sameKey, Json.integerPart?]
  | float x =>
    rw [sameKey, Bool.and_self, Bool.or_eq_true]
    exact float_beq_self x
  | array | object => simp [Settings.isScalar] at h

theorem sameKey_comm (a b : Json) : sameKey a b = sameKey b a := by
  have hnumber : (a.integerPart?.isSome && a.integerPart? == b.integerPart?) =
      (b.integerPart?.isSome && b.integerPart? == a.integerPart?) := by
    cases a.integerPart? <;> cases b.integerPart? <;> simp [eq_comm]
  fun_cases sameKey a b with
  | case1 s t => exact Bool.beq_comm
  | case2 => rfl
  | case3 x y => rw [sameKey, float_beq_comm, Bool.and_comm]
  | case4 a b htext hnull hfloat =>
    rw [sameKey]
    · exact hnumber
    · intro s t h h'
      exact htext t s h' h
    · intro h h'
      exact hnull h' h
    · intro s t h h'
      exact hfloat t s h' h

namespace Settings

theorem put_eq_upsert (key value : Json) (s : Settings) : put key value s = upsert sameKey key value s := by
  induction s with
  | nil => rfl
  | cons e s ih => rw [put, upsert, ih]

theorem merge_eq_upsertAll (s others : Settings) : merge s others = upsertAll sameKey s others := by
  unfold merge upsertAll
  simp only [put_eq_upsert]

/-! ## Tables -/

def defaultKeys : List Text := [angleModeKey, graphingKey, darkModeKey, maxDepthKey, debugKey]

theorem keys_defaults : defaults.map Prod.fst = defaultKeys.map .text := rfl

/-- Tables of settings: they begin with the keys of the defaults, no key is there twice, and all can be written. -/
structure IsTable (s : Settings) : Prop where
  begins : defaults.map Prod.fst <+: s.map Prod.fst
  distinct : Distinct sameKey s
  entries : ∀ e ∈ s, isScalar e.1 ∧ Storable e.2

theorem isTable_defaults : IsTable defaults := by
  refine ⟨List.prefix_rfl, ?_, ?_⟩
  · unfold Distinct
    decide
  · have hall : ∀ e ∈ defaults, isScalar e.1 ∧ Json.isWritable e.2 ∧ Json.settled e.2 = e.2 := by
      simp [defaults, ofFields, isScalar, Json.isWritable, Json.settled]
      decide
    intro e he
    obtain ⟨hscalar, hwrite, hsettled⟩ := hall e he
    exact ⟨hscalar, hwrite, hsettled⟩

theorem IsTable.merge {s others : Settings} (h : IsTable s) (hothers : ∀ e ∈ others, isScalar e.1 ∧ Storable e.2) :
    IsTable (s.merge others) := by
  rw [merge_eq_upsertAll]
  exact ⟨h.begins.trans (prefix_upsertAll ..), h.distinct.upsertAll others,
    forall_mem_upsertAll (P := fun k => isScalar k) h.entries hothers⟩

theorem IsTable.map {s : Settings} (h : IsTable s) {f : Json × Json → Json} (hf : ∀ e ∈ s, Storable (f e)) :
    IsTable (s.map fun e => (e.1, f e)) := by
  have hkeys : (s.map fun e => (e.1, f e)).map Prod.fst = s.map Prod.fst := by simp
  refine ⟨hkeys ▸ h.begins, h.distinct.of_keys_eq hkeys, ?_⟩
  intro e he
  obtain ⟨e', he', rfl⟩ := List.mem_map.1 he
  exact ⟨(h.entries e' he').1, hf e' he'⟩

theorem get?_eq_some_of_mem {s : Settings} (h : IsTable s) {k : Text} {v : Json} (hmem : (.text k, v) ∈ s) :
    s.get? k = some v := by
  rw [get?, find?_of_mem h.distinct (sameKey_self rfl) hmem]
  rfl

theorem mem_of_get?_eq_some {s : Settings} {k : Text} {v : Json} (h : s.get? k = some v) : (.text k, v) ∈ s := by
  obtain ⟨e, he, rfl⟩ := Option.map_eq_some_iff.1 h
  have hkey : e.1 = .text k := sameKey_text_iff.1 (List.find?_eq_some_iff_append.1 he).1
  exact hkey ▸ List.mem_of_find?_eq_some he

theorem IsTable.exists_get? {s : Settings} (h : IsTable s) {k : Text} (hk : k ∈ defaultKeys) : ∃ v, s.get? k = some v := by
  have hkey : .text k ∈ defaults.map Prod.fst := keys_defaults ▸ List.mem_map_of_mem hk
  obtain ⟨e, he, hkey⟩ := List.mem_map.1 (h.begins.subset hkey)
  exact ⟨e.2, get?_eq_some_of_mem h (hkey ▸ he)⟩

/-! ## Files -/

theorem entries_ofFields {fs : Fields} (h : Json.StorableFields fs) :
    ∀ e ∈ ofFields fs, isScalar e.1 ∧ Storable e.2 := by
  intro e he
  obtain ⟨f, hf, rfl⟩ := List.mem_map.1 he
  exact ⟨rfl, h.values f hf⟩

theorem storable_text (t : Text) : Storable (.text t) := ⟨rfl, rfl⟩

theorem entry_of_pair? {v : Json} (h : Storable v) {e : Json × Json} (he : pair? v = .ok e) :
    isScalar e.1 ∧ Storable e.2 := by
  unfold pair? at he
  split at he
  · split_ifs at he with hscalar
    obtain rfl := Except.ok.inj he
    exact ⟨hscalar, Json.storable_array_iff.1 h _ (by simp)⟩
  · obtain rfl := Except.ok.inj he
    exact ⟨rfl, storable_text _⟩
  · obtain rfl := Except.ok.inj he
    exact ⟨rfl, storable_text _⟩
  all_goals simp at he

theorem entries_of_pairs? {v : Json} (h : Storable v) {s : Settings} (hs : pairs? v = .ok s) :
    ∀ e ∈ s, isScalar e.1 ∧ Storable e.2 := by
  unfold pairs? at hs
  split at hs
  · obtain rfl := Except.ok.inj hs
    exact entries_ofFields (Json.storable_object_iff.1 h)
  · intro e he
    obtain ⟨v, hv, hpair⟩ := exists_of_forall₂ (mapM_eq_ok.1 hs).flip he
    exact entry_of_pair? (Json.storable_array_iff.1 h v hv) hpair
  · obtain rfl := Except.ok.inj hs
    simp
  all_goals simp at hs

theorem loadValue_of_read {content : Text} {v : Json} (h : Json.read content = .ok v) (captions : Entry) (key : Text) :
    Store.loadValue ⟨.file content, captions⟩ key = if key = Store.allKey then .ok v else Store.fieldOf key v := by
  unfold Store.loadValue Store.lookUp Entry.load
  dsimp only
  rw [h]
  rfl

theorem storable_of_loadValue {store : Store} {v : Json} (h : store.loadValue Store.allKey = .ok v) : Storable v := by
  obtain ⟨loaded, hloaded, h⟩ := bind_eq_ok.1 h
  cases loaded with
  | none =>
    obtain rfl := Except.ok.inj h
    exact Json.storable_object_iff.2 Json.storableFields_nil
  | some u =>
    obtain rfl := Except.ok.inj h
    unfold Entry.load at hloaded
    split at hloaded
    · simp at hloaded
    · simp at hloaded
    · split at hloaded
      · rename_i hread
        obtain rfl := Option.some.inj (Except.ok.inj hloaded)
        exact Json.storable_of_read hread
      all_goals simp at hloaded

/-- **Loaded settings are a table.** -/
theorem isTable_of_loadSettings {store : Store} {s : Settings} (h : store.loadSettings = .ok s) : IsTable s := by
  obtain ⟨v, hv, h⟩ := bind_eq_ok.1 h
  obtain ⟨others, hothers, h⟩ := bind_eq_ok.1 h
  obtain rfl := Except.ok.inj h
  exact isTable_defaults.merge (entries_of_pairs? (storable_of_loadValue hv) hothers)

end Settings

/-! ## Written tables -/

/-- A value that can be written is saved, unless a directory is in the place of the file. -/
theorem Store.save_of_writable {v : Json} (h : Json.isWritable v) (store : Store) : store.save v =
    if store.config = .directory then (store, .object []) else (⟨.file (Json.indented v), store.captions⟩, v) := by
  unfold save Json.write?
  rw [if_pos h]
  cases store.config <;> rfl

namespace Settings

/-- What is read of a table that was written: its keys as texts, of which the last value of alike ones is left. -/
def savedFields (s : Settings) : Fields := Fields.merge [] (s.map fun e => (keyText e.1, e.2))

theorem ofFields_cons (k : Text) (v : Json) (fs : Fields) : ofFields ((k, v) :: fs) = (.text k, v) :: ofFields fs := rfl

theorem get?_ofFields (k : Text) (fs : Fields) : (ofFields fs).get? k = Fields.get? k fs := by
  induction fs with
  | nil => rfl
  | cons f fs ih =>
    obtain ⟨k', v⟩ := f
    rw [ofFields_cons, get?, Fields.get?, List.lookup_cons]
    by_cases h : k = k'
    · rw [List.find?_cons_of_pos (by simp [sameKey, h]), beq_iff_eq.2 h]
      rfl
    · rw [List.find?_cons_of_neg (by simp [sameKey, Ne.symm h]), beq_eq_false_iff_ne.2 h]
      exact ih

section Saved

variable {s : Settings}

theorem settled_toJson (h : IsTable s) : Json.settled s.toJson = .object (savedFields s) := by
  have hvalues : ∀ f ∈ s.map fun e => (keyText e.1, e.2), Json.settled f.2 = f.2 := by
    intro f hf
    obtain ⟨e, he, rfl⟩ := List.mem_map.1 hf
    exact (h.entries e he).2.settled_eq
  rw [toJson, Json.settled, Json.settledFields_eq_self_iff.2 hvalues, savedFields]

theorem isWritable_toJson (h : IsTable s) : Json.isWritable s.toJson := by
  refine Json.areWritableFields_iff.2 fun f hf => ?_
  obtain ⟨e, he, rfl⟩ := List.mem_map.1 hf
  exact (h.entries e he).2.writable

theorem read_saved (h : IsTable s) : Json.read (Json.indented s.toJson) = .ok (.object (savedFields s)) := by
  rw [Json.read_indented (isWritable_toJson h), settled_toJson h]

theorem isTable_saved (h : IsTable s) : IsTable (ofFields (savedFields s)) := by
  have hdistinct : Distinct (· == ·) (savedFields s) := by
    rw [savedFields, Fields.merge_eq_upsertAll]
    exact Distinct.upsertAll .nil _
  have hbegins : defaultKeys <+: (savedFields s).map Prod.fst := by
    have hkeys := h.begins.map keyText
    rw [List.map_map, List.map_map] at hkeys
    rw [savedFields, Fields.merge_eq_upsertAll]
    apply prefix_upsertAll_nil (by decide)
    rw [List.map_map]
    exact hkeys
  refine ⟨?_, ?_, ?_⟩
  · rw [keys_defaults, ofFields, List.map_map]
    have := hbegins.map Json.text
    rwa [List.map_map] at this
  · unfold Distinct at *
    rw [ofFields, List.pairwise_map]
    simpa [sameKey] using hdistinct
  · refine entries_ofFields ⟨hdistinct, fun f hf => ?_⟩
    rw [savedFields, Fields.merge_eq_upsertAll] at hf
    refine (forall_mem_upsertAll (P := fun _ => True) (Q := Storable) (by simp) (fun f hf => ?_) f hf).2
    obtain ⟨e, he, rfl⟩ := List.mem_map.1 hf
    exact ⟨trivial, (h.entries e he).2⟩

/-- A table is loaded as it stands in a file. -/
theorem merge_defaults {s : Settings} (h : IsTable s) : defaults.merge s = s := by
  rw [merge_eq_upsertAll]
  exact upsertAll_of_prefix (fun e he => sameKey_self (h.entries e he).1) h.distinct h.begins

/-- **What was written is loaded**, its keys as texts. -/
theorem loadSettings_saved (h : IsTable s) (captions : Entry) :
    Store.loadSettings ⟨.file (Json.indented s.toJson), captions⟩ = .ok (ofFields (savedFields s)) := by
  rw [Store.loadSettings, loadValue_of_read (read_saved h), if_pos rfl]
  show Except.ok (defaults.merge (ofFields (savedFields s))) = _
  rw [merge_defaults (isTable_saved h)]

/-! ## Values -/

/-- A value is found under its key as a text, unless another key is written alike. -/
theorem get?_savedFields {k v : Json} (hmem : (k, v) ∈ s) (halike : ∀ e ∈ s, keyText e.1 = keyText k → e.2 = v) :
    (savedFields s).get? (keyText k) = some v := by
  refine Fields.get?_merge_of_mem (List.mem_map.2 ⟨_, hmem, rfl⟩) (fun f hf hkey => ?_) []
  obtain ⟨e, he, rfl⟩ := List.mem_map.1 hf
  exact halike e he hkey

/-- The characters that keys begin with that are no texts. -/
def scalarHeads : List Char := Spelling.alphabet ++ "NIntf".toList

theorem exists_keyText_eq {k : Json} (h : isScalar k) : (∃ t, k = .text t) ∨ ∃ c t, keyText k = c :: t ∧ c ∈ scalarHeads := by
  cases k with
  | text t => exact .inl ⟨t, rfl⟩
  | null => exact .inr ⟨'n', "ull".toList, rfl, by decide⟩
  | bool b => cases b <;> exact .inr ⟨_, _, rfl, by decide⟩
  | int n =>
    obtain ⟨c, t, ht, hc⟩ := Json.exists_decimalInt_eq n
    exact .inr ⟨c, t, ht, List.mem_append_left _ hc⟩
  | float x =>
    obtain ⟨c, t, ht, hc⟩ := Json.exists_writtenFloat_eq x
    have hsub : Spelling.alphabet ++ "NI".toList ⊆ scalarHeads := by decide
    exact .inr ⟨c, t, ht, hsub hc⟩
  | array | object => simp [isScalar] at h

/-- No other key is written like one of the defaults. -/
theorem keyText_eq_iff {k : Json} (h : isScalar k) {t : Text} (ht : t ∈ defaultKeys) :
    keyText k = t ↔ k = .text t := by
  constructor
  · intro hkey
    rcases exists_keyText_eq h with ⟨s, rfl⟩ | ⟨c, u, hc, hmem⟩
    · exact congrArg Json.text hkey
    · have hheads : defaultKeys.all fun t => t.head?.all fun c => c ∉ scalarHeads := by decide
      have hhead := List.all_eq_true.1 hheads _ (hkey ▸ ht)
      rw [hc] at hhead
      exact absurd hmem (of_decide_eq_true hhead)
  · rintro rfl
    rfl

/-- The values of the defaults' keys are loaded as they were written. -/
theorem get?_saved_of_mem_defaultKeys (h : IsTable s) {t : Text} (ht : t ∈ defaultKeys) {v : Json}
    (hv : s.get? t = some v) : (ofFields (savedFields s)).get? t = some v := by
  rw [get?_ofFields]
  have hmem := mem_of_get?_eq_some hv
  refine get?_savedFields (k := .text t) hmem fun e he hkey => ?_
  have hsame : e.1 = .text t := (keyText_eq_iff (h.entries e he).1 ht).1 hkey
  obtain ⟨k, u⟩ := e
  obtain rfl : k = .text t := hsame
  exact Option.some.inj ((get?_eq_some_of_mem h he).symm.trans hv)

end Saved

end Settings

end Calculator
