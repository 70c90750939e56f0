import Calculator.Proofs.Except
import Calculator.Proofs.KeyedTable
import Calculator.Proofs.WrittenValue

/-!
# What was read can be written

* `Storable` : the value can be written, and is read back as it is.
* `storable_array_iff`, `storable_object_iff` : arrays and objects of storable values, with no key repeated.
* `storable_int_of_digits` : a whole number that was read is not too long to be written.
* `ReadsStorable`, `storable_of_read` : what is read is storable.
-/

namespace Calculator.Json

set_option autoImplicit false

open Calculator.Number
open Calculator.Text (decimal)

/-- The value can be written, and is read back as it is. -/
structure Storable (v : Json) : Prop where
  writable : isWritable v
  settled_eq : settled v = v

/-- The fields of an object that is storable. -/
structure StorableFields (fs : Fields) : Prop where
  distinct : Distinct (· == ·) fs
  values : ∀ f ∈ fs, Storable f.2

/-! ## Arrays and objects -/

theorem areWritable_iff {vs : List Json} : areWritable vs ↔ ∀ v ∈ vs, isWritable v := by
  induction vs with
  | nil => simp [areWritable]
  | cons v vs ih => simp [areWritable, ih]

theorem areWritableFields_iff {fs : Fields} : areWritableFields fs ↔ ∀ f ∈ fs, isWritable f.2 := by
  induction fs with
  | nil => simp [areWritableFields]
  | cons f fs ih =>
    obtain ⟨k, v⟩ := f
    simp [areWritableFields, ih]

theorem settledItems_eq_map (vs : List Json) : settledItems vs = vs.map settled := by
  induction vs with
  | nil => rfl
  | cons v vs ih => rw [settledItems, ih, List.map_cons]

theorem settledFields_eq_map (fs : Fields) : settledFields fs = fs.map fun f => (f.1, settled f.2) := by
  induction fs with
  | nil => rfl
  | cons f fs ih => simp [settledFields, ih]

theorem storable_array_iff {vs : List Json} : Storable (.array vs) ↔ ∀ v ∈ vs, Storable v := by
  have hsettled : settled (.array vs) = .array vs ↔ ∀ v ∈ vs, settled v = v := by
    have hmap := List.map_inj_left (l := vs) (f := settled) (g := id)
    rwa [List.map_id, ← settledItems_eq_map, ← array.injEq] at hmap
  constructor
  · intro h v hv
    exact ⟨areWritable_iff.1 h.writable v hv, hsettled.1 h.settled_eq v hv⟩
  · intro h
    exact ⟨areWritable_iff.2 fun v hv => (h v hv).writable, hsettled.2 fun v hv => (h v hv).settled_eq⟩

theorem settledFields_eq_self_iff {fs : Fields} : settledFields fs = fs ↔ ∀ f ∈ fs, settled f.2 = f.2 := by
  have hmap := List.map_inj_left (l := fs) (f := fun f => (f.1, settled f.2)) (g := id)
  rw [List.map_id, ← settledFields_eq_map] at hmap
  simpa [Prod.ext_iff] using hmap

theorem settled_object_iff {fs : Fields} :
    settled (.object fs) = .object fs ↔ Distinct (· == ·) fs ∧ ∀ f ∈ fs, settled f.2 = f.2 := by
  have hkeys : (settledFields fs).map Prod.fst = fs.map Prod.fst := by simp [settledFields_eq_map]
  have hmerge (h : Distinct (· == ·) fs) : Fields.merge [] (settledFields fs) = settledFields fs := by
    rw [Fields.merge_eq_upsertAll]
    exact upsertAll_eq_append (h.of_keys_eq hkeys)
  rw [settled, object.injEq, ← settledFields_eq_self_iff]
  constructor
  · intro h
    have hdistinct : Distinct (· == ·) fs := by
      rw [← h, Fields.merge_eq_upsertAll]
      exact Distinct.upsertAll .nil _
    exact ⟨hdistinct, (hmerge hdistinct).symm.trans h⟩
  · intro ⟨hdistinct, h⟩
    rw [hmerge hdistinct, h]

theorem storable_object_iff {fs : Fields} : Storable (.object fs) ↔ StorableFields fs := by
  constructor
  · intro h
    obtain ⟨hdistinct, hvalues⟩ := settled_object_iff.1 h.settled_eq
    exact ⟨hdistinct, fun f hf => ⟨areWritableFields_iff.1 h.writable f hf, hvalues f hf⟩⟩
  · intro h
    exact ⟨areWritableFields_iff.2 fun f hf => (h.values f hf).writable,
      settled_object_iff.2 ⟨h.distinct, fun f hf => (h.values f hf).settled_eq⟩⟩

theorem StorableFields.put {fs : Fields} (h : StorableFields fs) (key : Text) {value : Json} (hvalue : Storable value) :
    StorableFields (fs.put key value) := by
  rw [Fields.put_eq_upsert]
  exact ⟨h.distinct.upsert key value, fun f hf =>
    (forall_mem_upsert (P := fun _ => True) (fun f hf => ⟨trivial, h.values f hf⟩) trivial hvalue f hf).2⟩

/-! ## Numbers -/

theorem ofDigitChars_lt {t : Text} (ht : ∀ c ∈ t, c.isDigit) : Nat.ofDigitChars 10 t 0 < 10 ^ t.length := by
  induction t with
  | nil => decide
  | cons c t ih =>
    obtain ⟨hc, ht⟩ := List.forall_mem_cons.1 ht
    have hdigit : c.toNat - '0'.toNat ≤ 9 := by
      simp only [Char.isDigit, Bool.and_eq_true, decide_eq_true_eq, ge_iff_le, UInt32.le_iff_toNat_le] at hc
      have : c.toNat ≤ 57 := hc.2
      show c.toNat - 48 ≤ 9
      omega
    rw [Nat.ofDigitChars_cons, Nat.ofDigitChars_eq_ofDigitChars_zero, Nat.mul_zero, Nat.zero_add, List.length_cons,
      Nat.pow_succ]
    calc 10 ^ t.length * (c.toNat - '0'.toNat) + Nat.ofDigitChars 10 t 0
        < 10 ^ t.length * (c.toNat - '0'.toNat) + 10 ^ t.length := Nat.add_lt_add_left (ih ht) _
      _ = 10 ^ t.length * (c.toNat - '0'.toNat + 1) := (Nat.mul_succ ..).symm
      _ ≤ 10 ^ t.length * 10 := Nat.mul_le_mul_left _ (by omega)

/-- A number has no more digits than it was written with. -/
theorem storable_int_of_digits {t : Text} (ht : ∀ c ∈ t, c.isDigit) (hlength : t.length ≤ maxIntDigits) {n : ℤ}
    (hn : n.natAbs = Nat.ofDigitChars 10 t 0) : Storable (.int n) := by
  refine ⟨decide_eq_true ?_, rfl⟩
  rw [hn]
  have hlt : Nat.ofDigitChars 10 t 0 < 10 ^ maxIntDigits :=
    (ofDigitChars_lt ht).trans_le (Nat.pow_le_pow_right (by decide) hlength)
  exact (Nat.length_toDigits_le_iff (by decide) (by decide)).2 hlt

theorem storable_float (x : Float) : Storable (.float x) := ⟨rfl, rfl⟩

theorem isDigit_wholeRun (t : Text) : ∀ c ∈ wholeRun t, c.isDigit := by
  unfold wholeRun
  split
  · simp
  · exact fun c hc => List.mem_takeWhile_imp hc

theorem storable_of_readNumber {t rest : Text} {v : Json} (h : readNumber t = .ok (v, rest)) : Storable v := by
  unfold readNumber at h
  dsimp only at h
  split_ifs at h
  all_goals cases h
  all_goals first
    | exact storable_float _
    | exact storable_int_of_digits (isDigit_wholeRun _) (not_lt.1 ‹_›) (by omega)

theorem storable_of_readWord? {t : Text} {r : Json × Text} (h : readWord? t = some r) : Storable r.1 := by
  obtain ⟨w, hw, hr⟩ := List.exists_of_findSome?_eq_some h
  obtain ⟨u, -, rfl⟩ := Option.map_eq_some_iff.1 hr
  have hall : ∀ w ∈ words, isWritable w.2 ∧ settled w.2 = w.2 := by
    simp [words, isWritable, settled]
  exact ⟨(hall w hw).1, (hall w hw).2⟩

/-! ## Values -/

/-- What is read in so many steps is storable: values, items, and fields that are put to storable ones. -/
structure ReadsStorable (steps : ℕ) : Prop where
  value : ∀ {t v rest}, readValue steps t = .ok (v, rest) → Storable v
  items : ∀ {t vs rest}, readItems steps t = .ok (vs, rest) → ∀ v ∈ vs, Storable v
  fields : ∀ {before t fs rest}, StorableFields before → readFields steps before t = .ok (fs, rest) → StorableFields fs

theorem storableFields_nil : StorableFields [] := ⟨.nil, List.forall_mem_nil _⟩

section Step

variable {steps : ℕ} {t rest : Text}

theorem ReadsStorable.readValue (h : ReadsStorable steps) {v : Json} (hv : readValue (steps + 1) t = .ok (v, rest)) :
    Storable v := by
  unfold Json.readValue at hv
  split at hv
  · split at hv
    · cases hv
      exact ⟨rfl, rfl⟩
    · cases hv
  · split at hv
    · cases hv
      exact storable_object_iff.2 storableFields_nil
    · obtain ⟨⟨fs, after⟩, hfs, hv⟩ := bind_eq_ok.1 hv
      cases hv
      exact storable_object_iff.2 (h.fields storableFields_nil hfs)
  · split at hv
    · cases hv
      exact storable_array_iff.2 (List.forall_mem_nil _)
    · obtain ⟨⟨vs, after⟩, hvs, hv⟩ := bind_eq_ok.1 hv
      cases hv
      exact storable_array_iff.2 (h.items hvs)
  · split at hv
    · rename_i hword
      obtain rfl := Except.ok.inj hv
      exact storable_of_readWord? hword
    · exact storable_of_readNumber hv

theorem ReadsStorable.readItems (h : ReadsStorable steps) {vs : List Json}
    (hvs : readItems (steps + 1) t = .ok (vs, rest)) : ∀ v ∈ vs, Storable v := by
  unfold Json.readItems at hvs
  obtain ⟨⟨v, after⟩, hv, hvs⟩ := bind_eq_ok.1 hvs
  dsimp only at hvs
  split at hvs
  · cases hvs
    exact List.forall_mem_singleton.2 (h.value hv)
  · obtain ⟨⟨us, after⟩, hus, hvs⟩ := bind_eq_ok.1 hvs
    cases hvs
    exact List.forall_mem_cons.2 ⟨h.value hv, h.items hus⟩
  · cases hvs

theorem ReadsStorable.readFields (h : ReadsStorable steps) {before fs : Fields} (hbefore : StorableFields before)
    (hfs : readFields (steps + 1) before t = .ok (fs, rest)) : StorableFields fs := by
  unfold Json.readFields at hfs
  split at hfs
  · split at hfs
    · cases hfs
    · split at hfs
      · obtain ⟨⟨v, after⟩, hv, hfs⟩ := bind_eq_ok.1 hfs
        dsimp only at hfs
        have hput (key : Text) : StorableFields (before.put key v) := hbefore.put key (h.value hv)
        split at hfs
        · cases hfs
          exact hput _
        · exact h.fields (hput _) hfs
        · cases hfs
      · cases hfs
  · cases hfs

end Step

theorem readsStorable (steps : ℕ) : ReadsStorable steps := by
  induction steps with
  | zero =>
    refine ⟨?_, ?_, ?_⟩
    · intro t v rest h
      cases h
    · intro t vs rest h
      cases h
    · intro before t fs rest _ h
      cases h
  | succ steps ih => exact ⟨ih.readValue, ih.readItems, ih.readFields⟩

/-- **What is read can be written, and then it is read again.** -/
theorem storable_of_read {t : Text} {v : Json} (h : read t = .ok v) : Storable v := by
  obtain ⟨⟨u, after⟩, hu, h⟩ := bind_eq_ok.1 h
  dsimp only at h
  split_ifs at h
  cases h
  exact (readsStorable _).value hu

end Calculator.Json
