import Calculator.Json.Basic
import Mathlib.Data.List.Infix

/-!
# Tables by key

What settings and the fields of an object have in common: lists of entries in which a value is put in the place of its key,
or at the end.

* `upsert`, `upsertAll` : one entry is put into a table, and those of another table one after another.
* `Distinct` : no key has another one before it that is the same.
* `upsert_append`, `upsert_eq_append` : where an entry is put.
* `upsertAll_eq_append`, `upsertAll_of_keys_eq`, `upsertAll_of_prefix` : tables whose keys are new, the same, or both.
* `Fields.put_eq_upsert`, `Fields.get?_merge_of_mem` : the fields of an object as such a table.
* `Fields.merge_eq_append` : fields overridden by others, one field after another.
-/

namespace Calculator

set_option autoImplicit false

section Table

variable {κ α : Type} (same : κ → κ → Bool)

/-- Gives a key a value: in its place if the key is there, else at the end. -/
def upsert (key : κ) (value : α) : List (κ × α) → List (κ × α)
  | [] => [(key, value)]
  | (k, v) :: rest => if same k key then (k, value) :: rest else (k, v) :: upsert key value rest

def upsertAll (t u : List (κ × α)) : List (κ × α) := u.foldl (fun acc e => upsert same e.1 e.2 acc) t

/-- No key has another one before it that is the same. -/
def Distinct (t : List (κ × α)) : Prop := t.Pairwise fun e f => same e.1 f.1 = false

variable {same} {t u d : List (κ × α)} {k key : κ} {v value : α}

theorem distinct_append : Distinct same (t ++ u) ↔
    Distinct same t ∧ Distinct same u ∧ ∀ e ∈ t, ∀ f ∈ u, same e.1 f.1 = false := List.pairwise_append

theorem Distinct.of_keys_eq (h : Distinct same t) (hkeys : u.map Prod.fst = t.map Prod.fst) : Distinct same u := by
  unfold Distinct at *
  rw [← List.pairwise_map (f := Prod.fst) (R := fun k l => same k l = false)] at h ⊢
  rwa [hkeys]

/-! ## One entry -/

/-- The key is there, and no key before it is the same. -/
theorem upsert_append (hbefore : ∀ e ∈ t, same e.1 key = false) (hkey : same k key) :
    upsert same key value (t ++ (k, v) :: u) = t ++ (k, value) :: u := by
  induction t with
  | nil => exact if_pos hkey
  | cons e t ih =>
    obtain ⟨hhead, htail⟩ := List.forall_mem_cons.1 hbefore
    rw [List.cons_append, upsert, if_neg (by simp [hhead]), ih htail]
    rfl

theorem upsert_eq_append (hnew : ∀ e ∈ t, same e.1 key = false) : upsert same key value t = t ++ [(key, value)] := by
  induction t with
  | nil => rfl
  | cons e t ih =>
    obtain ⟨hhead, htail⟩ := List.forall_mem_cons.1 hnew
    rw [upsert, if_neg (by simp [hhead]), ih htail]
    rfl

theorem upsert_cases (t : List (κ × α)) (key : κ) (value : α) :
    ((∀ e ∈ t, same e.1 key = false) ∧ upsert same key value t = t ++ [(key, value)]) ∨
      ∃ before k v after, t = before ++ (k, v) :: after ∧ (∀ e ∈ before, same e.1 key = false) ∧ same k key ∧
        upsert same key value t = before ++ (k, value) :: after := by
  cases hfind : t.find? fun e => same e.1 key with
  | none =>
    have hnew : ∀ e ∈ t, same e.1 key = false := by simpa using hfind
    exact .inl ⟨hnew, upsert_eq_append hnew⟩
  | some e =>
    obtain ⟨hkey, before, after, rfl, hbefore⟩ := List.find?_eq_some_iff_append.1 hfind
    have hbefore : ∀ e ∈ before, same e.1 key = false := by simpa using hbefore
    exact .inr ⟨before, e.1, e.2, after, rfl, hbefore, hkey, upsert_append hbefore hkey⟩

theorem Distinct.exists_append (h : Distinct same t) (hkey : key ∈ t.map Prod.fst) : ∃ before v after,
    t = before ++ (key, v) :: after ∧ (∀ e ∈ before, same e.1 key = false) ∧ ∀ e ∈ after, same key e.1 = false := by
  obtain ⟨⟨k, v⟩, he, rfl⟩ := List.mem_map.1 hkey
  obtain ⟨before, after, rfl⟩ := List.append_of_mem he
  obtain ⟨-, hafter, hbefore⟩ := distinct_append.1 h
  refine ⟨before, v, after, rfl, ?_, ?_⟩
  · intro e he
    exact hbefore e he (k, v) (List.mem_cons_self ..)
  · intro e he
    exact List.rel_of_pairwise_cons hafter he

section Symmetric

variable (hcomm : ∀ a b, same a b = same b a)
include hcomm

/-- In a table with distinct keys a key is the same as no other one. -/
theorem Distinct.eq_of_same (h : Distinct same t) {e : κ × α} (he : e ∈ t) (hkey : key ∈ t.map Prod.fst)
    (hsame : same key e.1) : e.1 = key := by
  obtain ⟨before, v, after, rfl, hbefore, hafter⟩ := h.exists_append hkey
  rcases List.mem_append.1 he with hb | hc
  · simp [← hcomm e.1, hbefore e hb] at hsame
  · rcases List.mem_cons.1 hc with rfl | ha
    · rfl
    · simp [hafter e ha] at hsame

/-- A key that is there gets a new value, all others keep theirs. -/
theorem upsert_eq_map (h : Distinct same t) (hself : same key key) (hkey : key ∈ t.map Prod.fst) (value : α) :
    upsert same key value t = t.map fun e => (e.1, if same key e.1 then value else e.2) := by
  obtain ⟨before, v, after, rfl, hbefore, hafter⟩ := h.exists_append hkey
  have hkept : ∀ u : List (κ × α), (∀ e ∈ u, same key e.1 = false) →
      (u.map fun e => (e.1, if same key e.1 then value else e.2)) = u := by
    intro u hu
    induction u with
    | nil => rfl
    | cons e u ih => simp_all
  have hbefore' : ∀ e ∈ before, same key e.1 = false := fun e he => (hcomm ..).trans (hbefore e he)
  rw [upsert_append hbefore hself, List.map_append, List.map_cons, hkept before hbefore', hkept after hafter]
  simp [hself]

end Symmetric

theorem prefix_upsert (t : List (κ × α)) (key : κ) (value : α) :
    t.map Prod.fst <+: (upsert same key value t).map Prod.fst := by
  rcases @upsert_cases _ _ same t key value with ⟨-, h⟩ | ⟨before, k, v, after, rfl, -, -, h⟩
  · rw [h, List.map_append]
    exact List.prefix_append _ _
  · rw [h, List.map_append, List.map_append]
    exact List.prefix_rfl

theorem Distinct.upsert (h : Distinct same t) (key : κ) (value : α) : Distinct same (upsert same key value t) := by
  rcases @upsert_cases _ _ same t key value with ⟨hnew, heq⟩ | ⟨before, k, v, after, rfl, -, -, heq⟩
  · rw [heq, distinct_append]
    exact ⟨h, List.pairwise_singleton .., fun e he f hf => List.mem_singleton.1 hf ▸ hnew e he⟩
  · refine h.of_keys_eq ?_
    rw [heq, List.map_append, List.map_append]
    rfl

/-- What holds of all entries and of a new one, of which the key may be an old one, holds of all. -/
theorem forall_mem_upsert {P : κ → Prop} {Q : α → Prop} (ht : ∀ e ∈ t, P e.1 ∧ Q e.2) (hkey : P key) (hvalue : Q value) :
    ∀ e ∈ upsert same key value t, P e.1 ∧ Q e.2 := by
  rcases @upsert_cases _ _ same t key value with ⟨-, heq⟩ | ⟨before, k, v, after, rfl, -, -, heq⟩
  · rw [heq]
    intro e he
    rcases List.mem_append.1 he with he | he
    · exact ht e he
    · exact List.mem_singleton.1 he ▸ ⟨hkey, hvalue⟩
  · rw [heq]
    intro e he
    rcases List.mem_append.1 he with hb | hc
    · exact ht e (List.mem_append_left _ hb)
    · rcases List.mem_cons.1 hc with rfl | ha
      · exact ⟨(ht (k, v) (by simp)).1, hvalue⟩
      · exact ht e (by simp [ha])

/-! ## Tables -/

theorem upsertAll_append (t u d : List (κ × α)) :
    upsertAll same t (u ++ d) = upsertAll same (upsertAll same t u) d := List.foldl_append

theorem prefix_upsertAll (t u : List (κ × α)) : t.map Prod.fst <+: (upsertAll same t u).map Prod.fst := by
  induction u generalizing t with
  | nil => exact List.prefix_rfl
  | cons e u ih => exact (prefix_upsert t e.1 e.2).trans (ih _)

theorem Distinct.upsertAll (h : Distinct same t) (u : List (κ × α)) : Distinct same (upsertAll same t u) := by
  induction u generalizing t with
  | nil => exact h
  | cons e u ih => exact ih (h.upsert e.1 e.2)

theorem forall_mem_upsertAll {P : κ → Prop} {Q : α → Prop} (ht : ∀ e ∈ t, P e.1 ∧ Q e.2)
    (hu : ∀ e ∈ u, P e.1 ∧ Q e.2) : ∀ e ∈ upsertAll same t u, P e.1 ∧ Q e.2 := by
  induction u generalizing t with
  | nil => exact ht
  | cons e u ih =>
    obtain ⟨he, hu⟩ := List.forall_mem_cons.1 hu
    exact ih (forall_mem_upsert ht he.1 he.2) hu

theorem upsertAll_eq_append (h : Distinct same (t ++ u)) : upsertAll same t u = t ++ u := by
  induction u generalizing t with
  | nil => exact (List.append_nil t).symm
  | cons e u ih =>
    have hnew : ∀ f ∈ t, same f.1 e.1 = false := fun f hf => (distinct_append.1 h).2.2 f hf e (List.mem_cons_self ..)
    show upsertAll same (upsert same e.1 e.2 t) u = _
    rw [List.append_cons] at h ⊢
    rw [upsert_eq_append hnew, ih h]

theorem upsertAll_of_keys_eq (hself : ∀ e ∈ u, same e.1 e.1) (h : Distinct same (t ++ u))
    (hkeys : d.map Prod.fst = u.map Prod.fst) : upsertAll same (t ++ d) u = t ++ u := by
  induction u generalizing t d with
  | nil =>
    obtain rfl : d = [] := List.map_eq_nil_iff.1 hkeys
    rfl
  | cons e u ih =>
    obtain ⟨⟨k, v⟩, d, rfl, hk, hd⟩ := List.map_eq_cons_iff.1 hkeys
    obtain ⟨he, hu⟩ := List.forall_mem_cons.1 hself
    have hbefore : ∀ f ∈ t, same f.1 e.1 = false := fun f hf => (distinct_append.1 h).2.2 f hf e (List.mem_cons_self ..)
    obtain rfl : k = e.1 := hk
    show upsertAll same (upsert same e.1 e.2 (t ++ (e.1, v) :: d)) u = _
    rw [upsert_append hbefore he, List.append_cons, List.append_cons t e u]
    exact ih hu (List.append_cons t e u ▸ h) hd

/-- The first keys of a table, if they are distinct, stay in their places. -/
theorem prefix_upsertAll_nil {ks : List κ} (hks : ks.Pairwise fun k l => same k l = false)
    (hbegin : ks <+: u.map Prod.fst) : ks <+: (upsertAll same [] u).map Prod.fst := by
  have hfirst : (u.take ks.length).map Prod.fst = ks := by rw [List.map_take, ← List.prefix_iff_eq_take.1 hbegin]
  have hdistinct : Distinct same (u.take ks.length) := by
    rw [← hfirst, List.pairwise_map] at hks
    exact hks
  have hkept := @prefix_upsertAll _ _ same (u.take ks.length) (u.drop ks.length)
  have hall : upsertAll same [] (u.take ks.length) = u.take ks.length := upsertAll_eq_append hdistinct
  rwa [← hall, ← upsertAll_append, List.take_append_drop, hall, hfirst] at hkept

/-- A table stays as it is if it is put into one whose keys it begins with. -/
theorem upsertAll_of_prefix (hself : ∀ e ∈ u, same e.1 e.1) (h : Distinct same u)
    (hbegin : d.map Prod.fst <+: u.map Prod.fst) : upsertAll same d u = u := by
  have hkeys : d.map Prod.fst = (u.take d.length).map Prod.fst := by
    rw [List.prefix_iff_eq_take.1 hbegin, List.length_map, List.map_take]
  have hsplit : u.take d.length ++ u.drop d.length = u := List.take_append_drop ..
  have hdistinct : Distinct same (u.take d.length) := h.sublist (List.take_sublist ..)
  have hfirst : upsertAll same d (u.take d.length) = u.take d.length :=
    upsertAll_of_keys_eq (t := []) (fun e he => hself e (List.mem_of_mem_take he)) hdistinct hkeys
  rw [← hsplit, upsertAll_append, hsplit, hfirst, upsertAll_eq_append (hsplit.symm ▸ h), hsplit]

theorem find?_of_mem (h : Distinct same t) (hkey : same k k) (hmem : (k, v) ∈ t) :
    t.find? (fun e => same e.1 k) = some (k, v) := by
  obtain ⟨before, after, rfl⟩ := List.append_of_mem hmem
  refine List.find?_eq_some_iff_append.2 ⟨hkey, before, after, rfl, fun e he => ?_⟩
  simp [(distinct_append.1 h).2.2 e he (k, v) (List.mem_cons_self ..)]

end Table

/-! ## Fields -/

namespace Fields

variable {fs gs : Fields} {key k : Text} {v : Json}

theorem put_eq_upsert (key : Text) (value : Json) (fs : Fields) : put key value fs = upsert (· == ·) key value fs := by
  induction fs with
  | nil => rfl
  | cons f fs ih =>
    rw [put, upsert, ih]
    simp only [beq_iff_eq]

theorem merge_eq_upsertAll (fs gs : Fields) : merge fs gs = upsertAll (· == ·) fs gs := by
  unfold merge upsertAll
  simp only [put_eq_upsert]

theorem get?_cons (k : Text) (f : Text × Json) (fs : Fields) :
    get? k (f :: fs) = if k = f.1 then some f.2 else get? k fs := by
  obtain ⟨k', v⟩ := f
  rw [get?, List.lookup_cons]
  by_cases h : k = k'
  · rw [if_pos h, beq_iff_eq.2 h]
  · rw [if_neg h, beq_eq_false_iff_ne.2 h]
    rfl

theorem get?_eq_none (h : ∀ f ∈ fs, f.1 ≠ k) : get? k fs = none :=
  List.lookup_eq_none_iff.2 fun f hf => bne_iff_ne.2 (h f hf).symm

theorem get?_put (key : Text) (value : Json) (fs : Fields) (k : Text) :
    get? k (put key value fs) = if k = key then some value else get? k fs := by
  induction fs with
  | nil => exact get?_cons k (key, value) []
  | cons f fs ih =>
    obtain ⟨k', v⟩ := f
    rw [put]
    by_cases h : k' = key
    · rw [if_pos h, get?_cons, get?_cons, h]
      split <;> rfl
    · rw [if_neg h, get?_cons, get?_cons, ih]
      by_cases hk : k = k'
      · rw [if_pos hk, if_pos hk, if_neg (hk ▸ h)]
      · rw [if_neg hk, if_neg hk]

/-- Of several values of a key the last one is found. -/
theorem get?_merge_of_mem (hmem : (k, v) ∈ gs) (hlast : ∀ f ∈ gs, f.1 = k → f.2 = v) (fs : Fields) :
    get? k (merge fs gs) = some v := by
  have hkept : ∀ gs : Fields, (∀ f ∈ gs, f.1 = k → f.2 = v) → ∀ fs : Fields, get? k fs = some v →
      get? k (merge fs gs) = some v := by
    intro gs
    induction gs with
    | nil => exact fun _ fs h => h
    | cons f gs ih =>
      intro hlast fs h
      obtain ⟨hf, hgs⟩ := List.forall_mem_cons.1 hlast
      refine ih hgs (put f.1 f.2 fs) ?_
      rw [get?_put]
      split
      · rename_i hk
        rw [hf hk.symm]
      · exact h
  obtain ⟨before, after, rfl⟩ := List.append_of_mem hmem
  rw [merge, List.foldl_append]
  refine hkept after (fun f hf => hlast f (by simp [hf])) _ ?_
  rw [get?_put, if_pos rfl]

/-- The fields in their order, with the other values for the keys that are there too, and then the fields whose keys are new. -/
theorem merge_eq_append (hfs : Distinct (· == ·) fs) (hgs : Distinct (· == ·) gs) :
    merge fs gs = fs.map (fun f => (f.1, (get? f.1 gs).getD f.2)) ++ gs.filter fun g => g.1 ∉ fs.map Prod.fst := by
  induction gs generalizing fs with
  | nil =>
    rw [List.filter_nil, List.append_nil]
    exact (List.map_id fs).symm
  | cons g gs ih =>
    obtain ⟨hg, hgs⟩ := List.pairwise_cons.1 hgs
    have hother : ∀ h ∈ gs, h.1 ≠ g.1 := fun h hh => (beq_eq_false_iff_ne.1 (hg h hh)).symm
    have hnone : get? g.1 gs = none := get?_eq_none hother
    show merge (put g.1 g.2 fs) gs = _
    rw [ih (put_eq_upsert g.1 g.2 fs ▸ hfs.upsert g.1 g.2) hgs, put_eq_upsert]
    by_cases hmem : g.1 ∈ fs.map Prod.fst
    · -- The field `g` keeps the place of its key, and no later one has this key.
      have hput := upsert_eq_map (fun _ _ => Bool.beq_comm) hfs (beq_self_eq_true g.1) hmem g.2
      have hkeys : (upsert (· == ·) g.1 g.2 fs).map Prod.fst = fs.map Prod.fst := by simp [hput]
      rw [hkeys, hput, List.map_map, List.filter_cons_of_neg (by simpa using hmem)]
      refine congrArg (· ++ _) (List.map_congr_left fun f _ => ?_)
      rw [Function.comp_apply, get?_cons]
      by_cases hf : f.1 = g.1
      · rw [if_pos hf, hf, hnone, beq_self_eq_true, if_pos rfl]
        rfl
      · rw [if_neg hf, if_neg (by simpa using Ne.symm hf)]
    · have hnew : ∀ f ∈ fs, f.1 ≠ g.1 := fun f hf heq => hmem (List.mem_map.2 ⟨f, hf, heq⟩)
      have hmap : fs.map (fun f => (f.1, (get? f.1 gs).getD f.2)) =
          fs.map fun f => (f.1, (get? f.1 (g :: gs)).getD f.2) := by
        refine List.map_congr_left fun f hf => ?_
        rw [get?_cons, if_neg (hnew f hf)]
      have hfilter : (gs.filter fun h => h.1 ∉ (fs ++ [g]).map Prod.fst) = gs.filter fun h => h.1 ∉ fs.map Prod.fst := by
        refine List.filter_congr fun h hh => ?_
        simp [hother h hh]
      rw [upsert_eq_append fun f hf => beq_eq_false_iff_ne.2 (hnew f hf), hfilter, List.map_append, hmap,
        List.filter_cons_of_pos (by simpa using hmem), List.append_assoc, List.map_singleton, hnone]
      rfl

end Fields

end Calculator
