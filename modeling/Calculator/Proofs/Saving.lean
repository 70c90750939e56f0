import Calculator.Proofs.SettingsTable
import Calculator.Settings.Datum

/-!
# Saving is exact or has no effect

* `Json.Regular` : no key is repeated, and no whole number is too long. `Json.Regular.storable` : such a value is read back.
* `Datum.Unwritable` : what JSON cannot hold. `Datum.toJson?_eq_none_iff` : nothing else cannot be written.
* `Datum.serialize?_ofJson`, `Store.saveDatum_ofJson` : the values of JSON are saved as `Store.save` saves them.
* `Settings.overridden` : the defaults with the values of an object, and what else is in it.
* `Store.loadValue_saved`, `Store.loadSettings_overridden` : what is loaded after a value was written.
* `Store.saveDatum_exact_or_unchanged` : saving a value.
-/

namespace Calculator

set_option autoImplicit false

open Calculator.Text (decimal)
open Calculator.Number (maxIntDigits)
open Json (Storable)

/-! ## Values that are read back -/

/-- No object in the value repeats a key, and no whole number in it has more digits than can be read. -/
inductive Json.Regular : Json → Prop where
  | null : Regular .null
  | bool (b : Bool) : Regular (.bool b)
  | int {n : ℤ} : (decimal n.natAbs).length ≤ maxIntDigits → Regular (.int n)
  | float (x : Float) : Regular (.float x)
  | text (t : Text) : Regular (.text t)
  | array {vs : List Json} : (∀ v ∈ vs, Regular v) → Regular (.array vs)
  | object {fs : Fields} : (fs.map Prod.fst).Nodup → (∀ f ∈ fs, Regular f.2) → Regular (.object fs)

theorem Fields.distinct_iff_nodup {fs : Fields} : Distinct (· == ·) fs ↔ (fs.map Prod.fst).Nodup := by
  unfold Distinct List.Nodup
  rw [List.pairwise_map]
  simp only [beq_eq_false_iff_ne]

theorem Json.Regular.storable {v : Json} (h : Regular v) : Storable v := by
  induction h with
  | null => exact ⟨rfl, rfl⟩
  | bool b => exact ⟨rfl, rfl⟩
  | int h => exact ⟨decide_eq_true h, rfl⟩
  | float x => exact storable_float x
  | text t => exact Settings.storable_text t
  | array _ ih => exact storable_array_iff.2 ih
  | object hkeys _ ih => exact storable_object_iff.2 ⟨Fields.distinct_iff_nodup.2 hkeys, ih⟩

namespace Datum

/-! ## Values that cannot be written -/

/-- The value is or holds something that JSON cannot hold, or a whole number that is too long. -/
inductive Unwritable : Datum → Prop where
  | other : Unwritable .other
  | int {n : ℤ} : maxIntDigits < (decimal n.natAbs).length → Unwritable (.int n)
  | item {ds : List Datum} {d : Datum} : d ∈ ds → Unwritable d → Unwritable (.list ds)
  | value {es : List (Datum × Datum)} {e : Datum × Datum} : e ∈ es → Unwritable e.2 → Unwritable (.dict es)
  | key {es : List (Datum × Datum)} {e : Datum × Datum} : e ∈ es → Unwritable e.1 → Unwritable (.dict es)
  /-- Keys that are scalars are written as texts, others are not. -/
  | compoundKey {es : List (Datum × Datum)} {e : Datum × Datum} : e ∈ es → e.1.isScalar = false → Unwritable (.dict es)

theorem unwritable_int_iff {n : ℤ} : Unwritable (.int n) ↔ maxIntDigits < (decimal n.natAbs).length :=
  ⟨fun | .int h => h, .int⟩

theorem unwritable_list_iff {ds : List Datum} : Unwritable (.list ds) ↔ ∃ d ∈ ds, Unwritable d :=
  ⟨fun | .item hd h => ⟨_, hd, h⟩, fun ⟨_, hd, h⟩ => .item hd h⟩

theorem unwritable_dict_iff {es : List (Datum × Datum)} : Unwritable (.dict es) ↔
    ∃ e ∈ es, (e.1.isScalar = false ∨ Unwritable e.1) ∨ Unwritable e.2 := by
  constructor
  · intro h
    cases h with
    | value he h => exact ⟨_, he, .inr h⟩
    | key he h => exact ⟨_, he, .inl (.inr h)⟩
    | compoundKey he h => exact ⟨_, he, .inl (.inl h)⟩
  · rintro ⟨e, he, (h | h) | h⟩
    · exact .compoundKey he h
    · exact .key he h
    · exact .value he h

theorem toItems?_cons_eq_none_iff {d : Datum} {ds : List Datum} :
    toItems? (d :: ds) = none ↔ d.toJson? = none ∨ toItems? ds = none := by
  rw [toItems?]
  cases d.toJson? <;> cases toItems? ds <;> simp

theorem toFields?_cons_eq_none_iff {k d : Datum} {es : List (Datum × Datum)} : toFields? ((k, d) :: es) = none ↔
    ((k.isScalar = false ∨ k.toJson? = none) ∨ d.toJson? = none) ∨ toFields? es = none := by
  rw [toFields?]
  cases k.isScalar <;> cases k.toJson? <;> cases d.toJson? <;> cases toFields? es <;> simp

mutual

theorem toJson?_eq_none_iff : ∀ d : Datum, d.toJson? = none ↔ Unwritable d
  | .null | .bool _ | .float _ | .text _ => iff_of_false nofun nofun
  | .other => iff_of_true rfl .other
  | .int n => by
    rw [toJson?, unwritable_int_iff]
    simp
  | .list ds => by rw [toJson?, Option.map_eq_none_iff, toItems?_eq_none_iff ds, unwritable_list_iff]
  | .dict es => by rw [toJson?, Option.map_eq_none_iff, toFields?_eq_none_iff es, unwritable_dict_iff]

theorem toItems?_eq_none_iff : ∀ ds : List Datum, toItems? ds = none ↔ ∃ d ∈ ds, Unwritable d
  | [] => iff_of_false nofun (by simp)
  | d :: ds => by
    rw [toItems?_cons_eq_none_iff, toJson?_eq_none_iff d, toItems?_eq_none_iff ds, List.exists_mem_cons_iff]

theorem toFields?_eq_none_iff : ∀ es : List (Datum × Datum), toFields? es = none ↔
    ∃ e ∈ es, (e.1.isScalar = false ∨ Unwritable e.1) ∨ Unwritable e.2
  | [] => iff_of_false nofun (by simp)
  | (k, d) :: es => by
    rw [toFields?_cons_eq_none_iff, toJson?_eq_none_iff k, toJson?_eq_none_iff d, toFields?_eq_none_iff es,
      List.exists_mem_cons_iff]

end

theorem serialize?_eq_none_iff {d : Datum} : d.serialize? = none ↔ d.Unwritable := by
  rw [serialize?, Option.map_eq_none_iff, toJson?_eq_none_iff]

/-! ## Values of JSON -/

mutual

theorem toJson?_ofJson : ∀ v : Json, (ofJson v).toJson? = if v.isWritable then some v else none
  | .null | .bool _ | .float _ | .text _ => rfl
  | .int n => by
    rw [ofJson, toJson?, Json.isWritable]
    simp only [decide_eq_true_eq]
  | .array vs => by
    rw [ofJson, toJson?, Json.isWritable, toItems?_ofItems vs]
    split <;> rfl
  | .object fs => by
    rw [ofJson, toJson?, Json.isWritable, toFields?_ofFields fs]
    split <;> rfl

theorem toItems?_ofItems : ∀ vs : List Json, toItems? (ofItems vs) = if Json.areWritable vs then some vs else none
  | [] => rfl
  | v :: vs => by
    rw [ofItems, toItems?, Json.areWritable, toJson?_ofJson v, toItems?_ofItems vs]
    cases v.isWritable <;> cases Json.areWritable vs <;> rfl

theorem toFields?_ofFields : ∀ fs : Fields,
    toFields? (ofFields fs) = if Json.areWritableFields fs then some fs else none
  | [] => rfl
  | (k, v) :: fs => by
    rw [ofFields, toFields?, Json.areWritableFields, toJson?_ofJson v, toFields?_ofFields fs]
    cases v.isWritable <;> cases Json.areWritableFields fs <;> rfl

end

theorem serialize?_ofJson (v : Json) : (ofJson v).serialize? = Json.write? v := by
  rw [serialize?, toJson?_ofJson, Json.write?]
  split <;> rfl

end Datum

namespace Settings

/-! ## Overriding the defaults -/

/-- The defaults in their order, with the values of an object for the keys that it has, and then its other fields. -/
def overridden (fs : Fields) : Settings :=
  defaults.map (fun e => (e.1, (Fields.get? (keyText e.1) fs).getD e.2)) ++ ofFields (fs.filter fun f => f.1 ∉ defaultKeys)

theorem ofFields_put (key : Text) (value : Json) (fs : Fields) :
    ofFields (fs.put key value) = (ofFields fs).put (.text key) value := by
  induction fs with
  | nil => rfl
  | cons f fs ih =>
    obtain ⟨k, v⟩ := f
    have hsame : sameKey (.text k) (.text key) = (k == key) := rfl
    rw [Fields.put, ofFields_cons, put, hsame, ← ih]
    by_cases hk : k = key
    · rw [if_pos hk, if_pos (beq_iff_eq.2 hk), ofFields_cons]
    · rw [if_neg hk, if_neg (by simpa using hk), ofFields_cons]

theorem ofFields_merge (fs gs : Fields) : ofFields (fs.merge gs) = (ofFields fs).merge (ofFields gs) := by
  induction gs generalizing fs with
  | nil => rfl
  | cons g gs ih =>
    show ofFields ((fs.put g.1 g.2).merge gs) = merge (put (.text g.1) g.2 (ofFields fs)) (ofFields gs)
    rw [ih, ofFields_put]

theorem merge_defaults_eq_overridden {fs : Fields} (h : Distinct (· == ·) fs) : defaults.merge (ofFields fs) = overridden fs := by
  obtain ⟨ds, hdefaults⟩ : ∃ ds, defaults = ofFields ds := ⟨_, rfl⟩
  have hkeys : ds.map Prod.fst = defaultKeys := by
    have hkeys := keys_defaults
    rw [hdefaults, ofFields, List.map_map] at hkeys
    refine List.map_injective_iff.2 (fun s t => Json.text.inj) ?_
    rw [List.map_map]
    exact hkeys
  have hdistinct : Distinct (· == ·) ds := by
    rw [Fields.distinct_iff_nodup, hkeys]
    decide
  rw [overridden, hdefaults, ← ofFields_merge, Fields.merge_eq_append hdistinct h, hkeys]
  simp only [ofFields, List.map_append, List.map_map]
  rfl

end Settings

namespace Store

open Settings (overridden)

/-! ## What is loaded -/

variable {v : Json} {fs : Fields}

theorem loadValue_saved (h : Storable v) (captions : Entry) (key : Text) :
    loadValue ⟨.file (Json.indented v), captions⟩ key = if key = allKey then .ok v else fieldOf key v := by
  have hread := Json.read_indented h.writable
  rw [h.settled_eq] at hread
  exact Settings.loadValue_of_read hread captions key

theorem loadSettings_overridden (h : Storable (.object fs)) (captions : Entry) :
    loadSettings ⟨.file (Json.indented (.object fs)), captions⟩ = .ok (overridden fs) := by
  have hdistinct := (Json.storable_object_iff.1 h).distinct
  rw [loadSettings, loadValue_saved h, if_pos rfl, ← Settings.merge_defaults_eq_overridden hdistinct]
  rfl

/-! ## Saving -/

/-- A value of JSON is saved as such, where the file can be opened. -/
theorem saveDatum_ofJson {allowed : Bool} {s : Store} (h : s.config.opens allowed) (v : Json) :
    s.saveDatum allowed (.ofJson v) = ((s.save v).1, .ofJson (s.save v).2) := by
  unfold saveDatum save
  rw [Datum.serialize?_ofJson]
  cases hconfig : s.config with
  | directory =>
    rw [hconfig] at h
    exact nomatch h
  | absent | file =>
    rw [hconfig] at h
    cases Json.write? v with
    | none => rfl
    | some content => exact if_pos h

/-- **Saving is exact or has no effect.** An object without repeated keys is given back if the file can be opened, and then all
of the file is this object, each of its values is found by its key, and the settings are the defaults overridden by it. A
value that cannot be written leaves everything as it was, as does a file that cannot be opened, and an empty object is given
back. -/
theorem saveDatum_exact_or_unchanged (allowed : Bool) (s : Store) (d : Datum) :
    (∀ fs, d = .ofJson (.object fs) → Json.Regular (.object fs) → s.config.opens allowed →
      ∃ saved : Store, s.saveDatum allowed d = (saved, d) ∧ saved.captions = s.captions ∧
        saved.loadValue allKey = .ok (.object fs) ∧
        (∀ key ≠ allKey, saved.loadValue key = .ok ((Fields.get? key fs).getD (.int 0))) ∧
        saved.loadSettings = .ok (overridden fs)) ∧
    (d.Unwritable ∨ s.config.opens allowed = false → s.saveDatum allowed d = (s, .dict [])) := by
  constructor
  · rintro fs rfl hregular hopens
    have hstorable : Storable (.object fs) := hregular.storable
    have hconfig : s.config ≠ .directory := by
      intro hconfig
      rw [hconfig] at hopens
      exact nomatch hopens
    refine ⟨⟨.file (Json.indented (.object fs)), s.captions⟩, ?_, rfl, ?_, ?_, ?_⟩
    · rw [saveDatum_ofJson hopens, save_of_writable hstorable.writable, if_neg hconfig]
    · rw [loadValue_saved hstorable, if_pos rfl]
    · intro key hkey
      rw [loadValue_saved hstorable, if_neg hkey, fieldOf]
    · exact loadSettings_overridden hstorable s.captions
  · rintro (hunwritable | hclosed)
    · rw [saveDatum, Datum.serialize?_eq_none_iff.2 hunwritable]
    · unfold saveDatum
      cases d.serialize? with
      | none => rfl
      | some content => simp only [hclosed, Bool.false_eq_true, ↓reduceIte]

/-- An array of all kinds of values: numbers that are whole and not, and in an object a text that is escaped. -/
def mixedItems : List Json := [.float 1e22, .object [("a\n".toList, .text "\t".toList)], .int 7, .null]

/-- A field of the defaults among others. -/
def mixedFields : Fields := [("größe".toList, .array mixedItems), (Settings.darkModeKey, .bool true), ("𝄞".toList, .object [])]

theorem saveDatum_exact_or_unchanged_mixed :
    ∃ saved : Store, saveDatum true ⟨.absent, .absent⟩ (.ofJson (.object mixedFields)) = (saved, .ofJson (.object mixedFields)) ∧
      saved.loadValue allKey = .ok (.object mixedFields) ∧
      saved.loadValue Settings.darkModeKey = .ok (.bool true) ∧ saved.loadValue Settings.debugKey = .ok (.int 0) ∧
      saved.loadSettings = .ok (.ofFields [(Settings.angleModeKey, .text "radians".toList), (Settings.graphingKey, .bool true),
        (Settings.darkModeKey, .bool true), (Settings.maxDepthKey, .int 64), (Settings.debugKey, .bool false),
        ("größe".toList, .array mixedItems), ("𝄞".toList, .object [])]) ∧
      -- A value of another kind inside the object leaves the file as it is.
      saved.saveDatum true (.dict [(.text "größe".toList, .other)]) = (saved, .dict []) := by
  have hregular : Json.Regular (.object mixedFields) := by
    refine .object (by decide +kernel) ?_
    simp only [mixedFields, List.forall_mem_cons]
    refine ⟨.array ?_, .bool true, .object List.nodup_nil (List.forall_mem_nil _), List.forall_mem_nil _⟩
    simp only [mixedItems, List.forall_mem_cons]
    refine ⟨.float _, .object (by decide) ?_, .int (by decide), .null, List.forall_mem_nil _⟩
    exact List.forall_mem_singleton.2 (.text _)
  obtain ⟨saved, hsaved, -, hall, hvalue, hsettings⟩ :=
    (saveDatum_exact_or_unchanged true ⟨.absent, .absent⟩ _).1 mixedFields rfl hregular rfl
  have hunwritable : Datum.Unwritable (.dict [(.text "größe".toList, .other)]) := .value (List.mem_singleton_self _) .other
  refine ⟨saved, hsaved, hall, ?_, ?_, hsettings, (saveDatum_exact_or_unchanged true saved _).2 (.inl hunwritable)⟩
  · rw [hvalue _ (by decide +kernel)]
    rfl
  · rw [hvalue _ (by decide +kernel)]
    rfl

end Store

end Calculator
