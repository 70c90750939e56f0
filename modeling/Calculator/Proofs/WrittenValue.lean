import Calculator.Proofs.WrittenNumber
import Calculator.Proofs.WrittenText

/-!
# Values in JSON

* `settled` : a value as it is read back: a repeated key has its last value in its first place.
* `exists_lines_eq` : the first character of a written value.
* `readItems_last`, `readItems_more`, `readFields_last`, `readFields_more` : one step along an array or an object.
* `readValue_lines`, `read_indented` : a written value is read back.
-/

namespace Calculator.Json

set_option autoImplicit false

open Calculator.Number
open Calculator.Text (decimal decimalInt)

/-! ## Repeated keys -/

mutual

/-- The value, a repeated key having its last value in its first place. -/
def settled : Json → Json
  | array items => array (settledItems items)
  | object fields => object (Fields.merge [] (settledFields fields))
  | v => v

def settledItems : List Json → List Json
  | [] => []
  | v :: vs => settled v :: settledItems vs

def settledFields : Fields → Fields
  | [] => []
  | (k, v) :: fs => (k, settled v) :: settledFields fs

end

/-! ## First characters -/

/-- The characters that a written value begins with. -/
def valueHeads : List Char := Spelling.alphabet ++ "NIntf\"[\x7b".toList

theorem not_blank_of_mem_valueHeads : ∀ c ∈ valueHeads, isJsonBlank c = false ∧ c ≠ ']' := by
  have hall : valueHeads.all fun c => !isJsonBlank c && c != ']' := by decide
  simpa using hall

theorem exists_signText_eq (s : Spelling) (negative : Bool) :
    ∃ c t, signText negative s.shortText = c :: t ∧ c ∈ Spelling.alphabet := by
  obtain ⟨c, whole, hcons⟩ := List.exists_cons_of_ne_nil s.whole_ne_nil
  have hc : c ∈ Spelling.alphabet := Spelling.mem_alphabet_of_isDigit (s.isDigit_whole c (hcons ▸ List.mem_cons_self ..))
  cases negative with
  | false => exact ⟨c, _, by rw [signText, if_neg Bool.false_ne_true, Spelling.shortText, hcons]; rfl, hc⟩
  | true => exact ⟨'-', s.shortText, rfl, by decide⟩

theorem exists_decimalInt_eq (n : ℤ) : ∃ c t, decimalInt n = c :: t ∧ c ∈ Spelling.alphabet := by
  rw [decimalInt_eq]
  exact exists_signText_eq _ _

theorem exists_writtenFloat_eq (x : Float) :
    ∃ c t, writtenFloat x = c :: t ∧ c ∈ Spelling.alphabet ++ "NI".toList := by
  rcases float_cases x with rfl | rfl | rfl | ⟨negative, m, q, hx⟩
  · exact ⟨'N', "aN".toList, rfl, by decide⟩
  · exact ⟨'I', "nfinity".toList, rfl, by decide⟩
  · exact ⟨'-', "Infinity".toList, rfl, by decide⟩
  · obtain ⟨s, -, htext, -⟩ := exists_shortestText hx
    obtain ⟨c, t, ht, hc⟩ := exists_signText_eq s negative
    exact ⟨c, t, by rw [writtenFloat_of_finite hx, htext, ht], List.mem_append_left _ hc⟩

theorem exists_lines_eq (v : Json) (level : ℕ) : ∃ c t, lines level v = c :: t ∧ c ∈ valueHeads := by
  cases v with
  | null => exact ⟨'n', "ull".toList, rfl, by decide⟩
  | bool b => cases b <;> exact ⟨_, _, rfl, by decide⟩
  | int n =>
    obtain ⟨c, t, ht, hc⟩ := exists_decimalInt_eq n
    exact ⟨c, t, by rw [lines, ht], List.mem_append_left _ hc⟩
  | float x =>
    obtain ⟨c, t, ht, hc⟩ := exists_writtenFloat_eq x
    have hsub : Spelling.alphabet ++ "NI".toList ⊆ valueHeads := by decide
    exact ⟨c, t, by rw [lines, ht], hsub hc⟩
  | text t => exact ⟨'"', _, rfl, by decide⟩
  | array items => cases items <;> exact ⟨'[', _, rfl, by decide⟩
  | object fields => rcases fields with _ | ⟨⟨k, v⟩, fs⟩ <;> exact ⟨'\x7b', _, rfl, by decide⟩

theorem skipBlanks_lines (v : Json) (level : ℕ) (rest : Text) :
    skipBlanks (lines level v ++ rest) = lines level v ++ rest := by
  obtain ⟨c, t, ht, hc⟩ := exists_lines_eq v level
  rw [ht]
  exact List.dropWhile_cons_of_neg (by simp [(not_blank_of_mem_valueHeads c hc).1])

theorem skipBlanks_newLine (level : ℕ) (t : Text) : skipBlanks (newLine level ++ t) = skipBlanks t := by
  refine List.dropWhile_append_of_pos fun c hc => ?_
  rcases List.mem_cons.1 hc with rfl | hc
  · rfl
  · rw [List.eq_of_mem_replicate hc]
    rfl

/-! ## One step -/

section Step

variable {steps : ℕ} {t u after rest key : Text} {v : Json} {vs : List Json} {before fields : Fields}

theorem readItems_last (hv : readValue steps t = .ok (v, after)) (hend : skipBlanks after = ']' :: rest) :
    readItems (steps + 1) t = .ok ([v], rest) := by
  rw [readItems, hv]
  simp only [bind, Except.bind, pure, Except.pure, hend]

theorem readItems_more (hv : readValue steps t = .ok (v, after)) (hmore : skipBlanks after = ',' :: u)
    (hvs : readItems steps (skipBlanks u) = .ok (vs, rest)) : readItems (steps + 1) t = .ok (v :: vs, rest) := by
  rw [readItems, hv]
  simp only [bind, Except.bind, pure, Except.pure, hmore, hvs]

theorem writtenText_append (s t : Text) : writtenText s ++ t = '"' :: (s.flatMap writtenChar ++ '"' :: t) := by
  rw [writtenText, List.append_assoc]
  rfl

/-- What follows the value of a field: the end of the object, or its next field. -/
def readAfterField (steps : ℕ) (fields : Fields) : Text → Except ReadError (Fields × Text)
  | '\x7d' :: rest => .ok (fields, rest)
  | ',' :: rest => readFields steps fields (skipBlanks rest)
  | _ => .error .malformed

theorem readFields_field (hv : readValue steps t = .ok (v, after)) (ht : skipBlanks t = t) :
    readFields (steps + 1) before (writtenText key ++ ':' :: ' ' :: t) =
      readAfterField steps (before.put key v) (skipBlanks after) := by
  have hcolon : skipBlanks (':' :: ' ' :: t) = ':' :: ' ' :: t := rfl
  have hblank : skipBlanks (' ' :: t) = t := ht
  rw [writtenText_append, readFields]
  simp only [bind, Except.bind, pure, Except.pure, readText_writtenText, hcolon, hblank, hv]
  rfl

theorem readFields_last (hv : readValue steps t = .ok (v, after)) (ht : skipBlanks t = t)
    (hend : skipBlanks after = '\x7d' :: rest) :
    readFields (steps + 1) before (writtenText key ++ ':' :: ' ' :: t) = .ok (before.put key v, rest) := by
  rw [readFields_field hv ht, hend]
  rfl

theorem readFields_more (hv : readValue steps t = .ok (v, after)) (ht : skipBlanks t = t)
    (hmore : skipBlanks after = ',' :: u) (hfields : readFields steps (before.put key v) (skipBlanks u) = .ok (fields, rest)) :
    readFields (steps + 1) before (writtenText key ++ ':' :: ' ' :: t) = .ok (fields, rest) := by
  rw [readFields_field hv ht, hmore]
  exact hfields

theorem readValue_array (hhead : (skipBlanks t).head? ≠ some ']')
    (hvs : readItems steps (skipBlanks t) = .ok (vs, rest)) :
    readValue (steps + 1) ('[' :: t) = .ok (.array vs, rest) := by
  rw [readValue]
  split
  · rename_i heq
    rw [heq] at hhead
    exact absurd rfl hhead
  · simp only [bind, Except.bind, pure, Except.pure, hvs]

theorem readValue_object (hhead : (skipBlanks t).head? ≠ some '\x7d')
    (hfields : readFields steps [] (skipBlanks t) = .ok (fields, rest)) :
    readValue (steps + 1) ('\x7b' :: t) = .ok (.object fields, rest) := by
  rw [readValue]
  split
  · rename_i heq
    rw [heq] at hhead
    exact absurd rfl hhead
  · simp only [bind, Except.bind, pure, Except.pure, hfields]

end Step

/-! ## Written values -/

/-- The items of an array from one of them on. -/
def itemsText (level : ℕ) : List Json → Text
  | [] => []
  | v :: vs => lines level v ++ moreItems level vs

/-- The fields of an object from one of them on. -/
def fieldsText (level : ℕ) : Fields → Text
  | [] => []
  | (k, v) :: fs => writtenText k ++ ':' :: ' ' :: (lines level v ++ moreFields level fs)

theorem moreItems_cons (level : ℕ) (v : Json) (vs : List Json) :
    moreItems level (v :: vs) = ',' :: (newLine level ++ itemsText level (v :: vs)) := by
  rw [moreItems, itemsText, List.cons_append, List.cons_append, List.append_assoc]

theorem moreFields_cons (level : ℕ) (f : Text × Json) (fs : Fields) :
    moreFields level (f :: fs) = ',' :: (newLine level ++ fieldsText level (f :: fs)) := by
  obtain ⟨k, v⟩ := f
  rw [moreFields, fieldsText]
  simp only [List.cons_append, List.append_assoc, List.nil_append]

theorem lines_array_cons (level : ℕ) (v : Json) (vs : List Json) (rest : Text) :
    lines level (.array (v :: vs)) ++ rest =
      '[' :: (newLine (level + 1) ++ (itemsText (level + 1) (v :: vs) ++ (newLine level ++ ']' :: rest))) := by
  rw [lines, itemsText]
  simp only [List.cons_append, List.append_assoc, List.nil_append]

theorem lines_object_cons (level : ℕ) (f : Text × Json) (fs : Fields) (rest : Text) :
    lines level (.object (f :: fs)) ++ rest =
      '\x7b' :: (newLine (level + 1) ++ (fieldsText (level + 1) (f :: fs) ++ (newLine level ++ '\x7d' :: rest))) := by
  obtain ⟨k, v⟩ := f
  rw [lines, fieldsText]
  simp only [List.cons_append, List.append_assoc, List.nil_append]

theorem skipBlanks_itemsText (level : ℕ) (v : Json) (vs : List Json) (t : Text) :
    skipBlanks (newLine level ++ (itemsText level (v :: vs) ++ t)) = itemsText level (v :: vs) ++ t := by
  rw [skipBlanks_newLine, itemsText, List.append_assoc, skipBlanks_lines]

theorem skipBlanks_fieldsText (level : ℕ) (f : Text × Json) (fs : Fields) (t : Text) :
    skipBlanks (newLine level ++ (fieldsText level (f :: fs) ++ t)) = fieldsText level (f :: fs) ++ t := by
  rw [skipBlanks_newLine]
  rfl

theorem endsNumber_newLine (level : ℕ) (t : Text) : EndsNumber (newLine level ++ t) := by
  intro c hc
  obtain rfl : '\n' = c := Option.some.inj hc
  decide

theorem endsNumber_comma (t : Text) : EndsNumber (',' :: t) := by
  intro c hc
  obtain rfl : ',' = c := Option.some.inj hc
  decide

theorem endsNumber_moreItems (level close : ℕ) (vs : List Json) (t : Text) :
    EndsNumber (moreItems level vs ++ (newLine close ++ t)) := by
  cases vs with
  | nil => exact endsNumber_newLine close t
  | cons v vs =>
    rw [moreItems_cons]
    exact endsNumber_comma _

theorem endsNumber_moreFields (level close : ℕ) (fs : Fields) (t : Text) :
    EndsNumber (moreFields level fs ++ (newLine close ++ t)) := by
  cases fs with
  | nil => exact endsNumber_newLine close t
  | cons f fs =>
    rw [moreFields_cons]
    exact endsNumber_comma _

mutual

/-- **A written value is read back**, whatever follows it. -/
theorem readValue_lines : ∀ (v : Json) (level steps : ℕ) (rest : Text), isWritable v → (lines level v).length < steps →
    EndsNumber rest → readValue steps (lines level v ++ rest) = .ok (settled v, rest)
  | _, _, 0, _, _, hsteps, _ => absurd hsteps (Nat.not_lt_zero _)
  | .null, _, steps + 1, rest, _, _, _ => readValue_scalar (by decide) ("ull".toList ++ rest) steps
  | .bool true, _, steps + 1, rest, _, _, _ => readValue_scalar (by decide) ("rue".toList ++ rest) steps
  | .bool false, _, steps + 1, rest, _, _, _ => readValue_scalar (by decide) ("alse".toList ++ rest) steps
  | .int n, _, steps + 1, rest, hwrite, _, hrest => by
    rw [isWritable, decide_eq_true_iff] at hwrite
    exact readValue_decimalInt hwrite hrest steps
  | .float x, _, steps + 1, rest, _, _, hrest => readValue_writtenFloat x hrest steps
  | .text t, _, steps + 1, rest, _, _, _ => by
    rw [lines, writtenText_append, readValue, readText_writtenText]
    rfl
  | .array [], _, steps + 1, rest, _, _, _ => by
    rw [readValue.eq_def]
    rfl
  | .array (v :: vs), level, steps + 1, rest, hwrite, hsteps, _ => by
    have hlength := congrArg List.length (lines_array_cons level v vs [])
    simp only [List.append_nil, List.length_cons, List.length_append, List.length_nil, newLine,
      List.length_replicate] at hlength
    have hvs := readItems_itemsText (v :: vs) (level + 1) level steps rest (List.cons_ne_nil _ _) hwrite (by omega)
    obtain ⟨c, t, ht, hc⟩ := exists_lines_eq v (level + 1)
    rw [lines_array_cons]
    refine readValue_array ?_ (by rw [skipBlanks_itemsText]; exact hvs)
    rw [skipBlanks_itemsText, itemsText, ht]
    exact fun heq => (not_blank_of_mem_valueHeads c hc).2 (Option.some.inj heq)
  | .object [], _, steps + 1, rest, _, _, _ => by
    rw [readValue.eq_def]
    rfl
  | .object (f :: fs), level, steps + 1, rest, hwrite, hsteps, _ => by
    have hlength := congrArg List.length (lines_object_cons level f fs [])
    simp only [List.append_nil, List.length_cons, List.length_append, List.length_nil, newLine,
      List.length_replicate] at hlength
    have hfs := readFields_fieldsText (f :: fs) (level + 1) level steps [] rest (List.cons_ne_nil _ _) hwrite (by omega)
    rw [lines_object_cons]
    refine readValue_object ?_ (by rw [skipBlanks_fieldsText]; exact hfs)
    rw [skipBlanks_fieldsText]
    exact fun heq => absurd (Option.some.inj heq) (by decide)

theorem readItems_itemsText : ∀ (vs : List Json) (level close steps : ℕ) (rest : Text), vs ≠ [] → areWritable vs →
    (itemsText level vs).length + 1 < steps →
    readItems steps (itemsText level vs ++ (newLine close ++ ']' :: rest)) = .ok (settledItems vs, rest)
  | _, _, _, 0, _, _, _, hsteps => absurd hsteps (Nat.not_lt_zero _)
  | [], _, _, _, _, hne, _, _ => absurd rfl hne
  | v :: vs, level, close, steps + 1, rest, _, hwrite, hsteps => by
    rw [areWritable, Bool.and_eq_true] at hwrite
    rw [itemsText, List.length_append] at hsteps
    have hends := endsNumber_moreItems level close vs (']' :: rest)
    rw [itemsText, List.append_assoc]
    cases vs with
    | nil =>
      have hv := readValue_lines v level steps _ hwrite.1 (by omega) hends
      exact readItems_last hv (skipBlanks_newLine close _)
    | cons v' vs =>
      rw [moreItems_cons, List.length_cons, List.length_append] at hsteps
      have hv := readValue_lines v level steps _ hwrite.1 (by omega) hends
      have hvs := readItems_itemsText (v' :: vs) level close steps rest (List.cons_ne_nil _ _) hwrite.2 (by omega)
      rw [moreItems_cons, List.cons_append, List.append_assoc] at hv ⊢
      exact readItems_more hv rfl (by rw [skipBlanks_itemsText]; exact hvs)

theorem readFields_fieldsText : ∀ (fs : Fields) (level close steps : ℕ) (before : Fields) (rest : Text), fs ≠ [] →
    areWritableFields fs → (fieldsText level fs).length + 1 < steps →
    readFields steps before (fieldsText level fs ++ (newLine close ++ '\x7d' :: rest)) =
      .ok (Fields.merge before (settledFields fs), rest)
  | _, _, _, 0, _, _, _, _, hsteps => absurd hsteps (Nat.not_lt_zero _)
  | [], _, _, _, _, _, hne, _, _ => absurd rfl hne
  | (k, v) :: fs, level, close, steps + 1, before, rest, _, hwrite, hsteps => by
    rw [areWritableFields, Bool.and_eq_true] at hwrite
    rw [fieldsText, List.length_append, List.length_cons, List.length_cons, List.length_append] at hsteps
    have hends := endsNumber_moreFields level close fs ('\x7d' :: rest)
    rw [fieldsText, List.append_assoc, List.cons_append, List.cons_append, List.append_assoc]
    cases fs with
    | nil =>
      have hv := readValue_lines v level steps _ hwrite.1 (by omega) hends
      exact readFields_last hv (skipBlanks_lines ..) (skipBlanks_newLine close _)
    | cons f fs =>
      rw [moreFields_cons, List.length_cons, List.length_append] at hsteps
      have hv := readValue_lines v level steps _ hwrite.1 (by omega) hends
      have hfs := readFields_fieldsText (f :: fs) level close steps (before.put k (settled v)) rest
        (List.cons_ne_nil _ _) hwrite.2 (by omega)
      rw [moreFields_cons, List.cons_append, List.append_assoc] at hv ⊢
      exact readFields_more hv (skipBlanks_lines ..) rfl (by rw [skipBlanks_fieldsText]; exact hfs)

end

/-- **What is written is read back.** -/
theorem read_indented {v : Json} (h : isWritable v) : read (indented v) = .ok (settled v) := by
  have hends : EndsNumber [] := nofun
  have hvalue := readValue_lines v 0 ((indented v).length + 1) [] h (Nat.lt_succ_self _) hends
  have hskip := skipBlanks_lines v 0 []
  rw [List.append_nil] at hvalue hskip
  rw [read, show skipBlanks (indented v) = indented v from hskip]
  unfold indented at *
  rw [hvalue]
  rfl

end Calculator.Json
