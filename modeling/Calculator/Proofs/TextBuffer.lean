import Calculator.Proofs.RunLogs
import Calculator.Proofs.TakingOver
import Calculator.Proofs.Typing

/-!
# The editor as a buffer of two stacks

The display is one text and the cursor a number. Together they are as good as two stacks of characters that meet at the
cursor, and every operation is a few pushes, pops and moves on them.

* `Buffer` : the two stacks, with `push`, `pop`, `forth` and `back`; `Buffer.Edit`, `Buffer.after`, `Buffer.run`.
* `Session.Shows`, `Session.buffer` : a session shows a buffer.
* `Session.edits` : what an operation does to the buffer.
* `Shows.after`, `Shows.run`, `Reached.shows` : a step, and any run.
* `Splits.insertCall`, `Splits.insertCall₂` : templates, with the cursor between their parentheses.
* `deleteBack_insert` : what was inserted and deleted again leaves no trace.
* `editor_refines_buffer` : the editor of any reached session.
-/

namespace Calculator

set_option autoImplicit false

/-! ## Two stacks -/

/-- A text with a cursor as two stacks, each with the character next to the cursor on top. -/
structure Buffer where
  before : List Char
  behind : List Char
deriving DecidableEq, Repr

namespace Buffer

def push (t : Text) (b : Buffer) : Buffer := { b with before := t.foldl (fun cs c => c :: cs) b.before }

def pop (b : Buffer) : Buffer := { b with before := b.before.tail }

/-- So many characters go from behind the cursor to before it, as far as there are any. -/
def forth (n : ℕ) (b : Buffer) : Buffer := ⟨(b.behind.take n).reverse ++ b.before, b.behind.drop n⟩

/-- So many characters go from before the cursor to behind it, as far as there are any. -/
def back (n : ℕ) (b : Buffer) : Buffer := ⟨b.before.drop n, (b.before.take n).reverse ++ b.behind⟩

inductive Edit where
  | push (t : Text)
  | pop
  | move (offset : ℤ)
  /-- Another text, with the cursor at its end. -/
  | replace (t : Text)
deriving DecidableEq, Repr

def after (b : Buffer) : Edit → Buffer
  | .push t => b.push t
  | .pop => b.pop
  | .move (.ofNat n) => b.forth n
  | .move (.negSucc n) => b.back (n + 1)
  | .replace t => push t ⟨[], []⟩

def run (b : Buffer) (es : List Edit) : Buffer := es.foldl after b

theorem before_push (t : Text) (b : Buffer) : (b.push t).before = t.reverse ++ b.before :=
  List.foldl_flip_cons_eq_append'

/-- A text that is inserted as the text of a button: back into parentheses, and before a comma. -/
def templateEdits (t : Text) : List Edit :=
  .push t :: ((if t.contains '(' && t.contains ')' && t != Session.answerSign then [.move (-1)] else []) ++
    if t.contains ',' then [.move (-1)] else [])

end Buffer

namespace Session

/-! ## Sessions as buffers -/

/-- The display is the text of a buffer, with the cursor between its stacks. -/
def Shows (s : Session) (b : Buffer) : Prop := s.Splits b.before.reverse b.behind

def buffer (s : Session) : Buffer := ⟨s.left.reverse, s.right⟩

def edits (s : Session) : Operation → List Buffer.Edit
  | .insert t => [.push t]
  | .number v => [.push v.describe]
  | .decimal => [.push ['.']]
  | .insertTemplate t => Buffer.templateEdits t
  | .press t => if t = ['='] then [.replace s.result] else Buffer.templateEdits t
  | .deleteBack => [.pop]
  | .clear => [.replace []]
  | .moveCursor offset => [.move offset]
  | .calculate => [.replace s.result]
  | .redraw | .saveGraph | .setAngleMode _ | .setGraphing _ => []

section Shows

variable {s u : Session} {b : Buffer} {left right : Text}

theorem Splits.shows (h : s.Splits left right) : s.Shows s.buffer := by
  rw [Shows, buffer, h.left_eq, h.right_eq, List.reverse_reverse]
  exact h

theorem Shows.splits (h : s.Shows s.buffer) : s.Splits s.left s.right := by
  rw [Shows, buffer, List.reverse_reverse] at h
  exact h

theorem Shows.of_eq (h : s.Shows b) (hdisplay : u.display = s.display) (hcursor : u.cursor = s.cursor) : u.Shows b :=
  ⟨hdisplay.trans h.display, hcursor.trans h.cursor⟩

/-! ## Edits -/

theorem Shows.insert (h : s.Shows b) (t : Text) : (s.insert t).Shows (b.push t) := by
  rw [Shows, Buffer.before_push, List.reverse_append, List.reverse_reverse]
  exact Splits.insert h t

theorem Splits.deleteBack (h : s.Splits left right) : s.deleteBack.Splits left.dropLast right := by
  unfold Session.deleteBack
  split
  · rename_i hcursor
    have hleft : left = [] := by
      apply List.eq_nil_of_length_eq_zero
      rw [← h.cursor, hcursor]
    subst hleft
    exact h
  · constructor
    · show s.display.take (s.cursor - 1) ++ s.right = left.dropLast ++ right
      rw [h.right_eq, h.display, h.cursor, List.take_append_of_le_length (Nat.sub_le _ 1), List.dropLast_eq_take]
    · show s.cursor - 1 = left.dropLast.length
      rw [h.cursor, List.length_dropLast]

theorem Shows.deleteBack (h : s.Shows b) : s.deleteBack.Shows b.pop := by
  rw [Shows, Buffer.pop, ← List.dropLast_reverse]
  exact Splits.deleteBack h

theorem Shows.moveForth (h : s.Shows b) (n : ℕ) : (s.moveCursor n).Shows (b.forth n) := by
  constructor
  · show s.display = _
    rw [h.display, Buffer.forth, List.reverse_append, List.reverse_reverse, List.append_assoc, List.take_append_drop]
  · show (max 0 (min (s.display.length : ℤ) (s.cursor + n))).toNat = _
    have hlength := congrArg List.length h.display
    have hcursor := h.cursor
    simp only [Buffer.forth, List.length_append, List.length_reverse, List.length_take] at hlength hcursor ⊢
    omega

theorem Shows.moveBack (h : s.Shows b) (n : ℕ) : (s.moveCursor (-n)).Shows (b.back n) := by
  constructor
  · show s.display = _
    rw [h.display, Buffer.back, ← List.append_assoc, ← List.reverse_append, List.take_append_drop]
  · show (max 0 (min (s.display.length : ℤ) (s.cursor + -n))).toNat = _
    have hlength := congrArg List.length h.display
    have hcursor := h.cursor
    simp only [Buffer.back, List.length_append, List.length_reverse, List.length_drop] at hlength hcursor ⊢
    omega

theorem Shows.moveCursor (h : s.Shows b) (offset : ℤ) : (s.moveCursor offset).Shows (b.after (.move offset)) := by
  cases offset with
  | ofNat n => exact h.moveForth n
  | negSucc n => exact h.moveBack (n + 1)

theorem shows_replace (b : Buffer) {t : Text} (hdisplay : s.display = t) (hcursor : s.cursor = t.length) :
    s.Shows (b.after (.replace t)) := by
  constructor
  · rw [Buffer.after, Buffer.before_push, List.append_nil, List.reverse_reverse, hdisplay]
    exact (List.append_nil t).symm
  · rw [Buffer.after, Buffer.before_push, List.append_nil, List.reverse_reverse, hcursor]

theorem Shows.insertTemplate (h : s.Shows b) (t : Text) :
    (s.insertTemplate t).Shows (b.run (Buffer.templateEdits t)) := by
  have hinsert := h.insert t
  unfold Session.insertTemplate Buffer.templateEdits
  simp only
  split
  · split
    · exact (hinsert.moveCursor (-1)).moveCursor (-1)
    · exact hinsert.moveCursor (-1)
  · split
    · exact hinsert.moveCursor (-1)
    · exact hinsert

/-! ## Steps and runs -/

theorem Shows.attempt {o : Operation} (h : s.Shows b) (hu : s.attempt o = .ok u) : u.Shows (b.run (s.edits o)) := by
  cases o with
  | insert t => exact Except.ok.inj hu ▸ h.insert t
  | number v => exact Except.ok.inj hu ▸ h.insert v.describe
  | decimal => exact Except.ok.inj hu ▸ h.insert ['.']
  | insertTemplate t => exact Except.ok.inj hu ▸ h.insertTemplate t
  | press t =>
    obtain rfl := Except.ok.inj hu
    by_cases ht : t = ['=']
    · rw [Session.press, edits, if_pos ht, if_pos ht]
      exact shows_replace b rfl rfl
    · rw [Session.press, edits, if_neg ht, if_neg ht]
      exact h.insertTemplate t
  | deleteBack => exact Except.ok.inj hu ▸ h.deleteBack
  | clear => exact Except.ok.inj hu ▸ shows_replace b rfl rfl
  | moveCursor offset => exact Except.ok.inj hu ▸ h.moveCursor offset
  | calculate => exact Except.ok.inj hu ▸ shows_replace b rfl rfl
  | redraw | setGraphing => exact Except.ok.inj hu ▸ h.of_eq rfl rfl
  | saveGraph =>
    obtain rfl := Except.ok.inj hu
    unfold Session.saveGraph
    split
    · exact h
    · exact h.of_eq rfl rfl
  | setAngleMode value =>
    obtain ⟨mode, -, hu⟩ := bind_eq_ok.1 hu
    exact Except.ok.inj hu ▸ h.of_eq rfl rfl

/-- One operation, also one that fails: it has no edits then. -/
theorem Shows.after (h : s.Shows b) (o : Operation) : (s.after o).Shows (b.run (s.edits o)) := by
  unfold Session.after
  split
  · rename_i u hu
    exact h.attempt hu
  · rename_i hfault
    cases o with
    | setAngleMode => exact h
    | _ => exact nomatch hfault

end Shows

theorem Shows.run {s : Session} {b : Buffer} (h : s.Shows b) (os : List Operation) :
    (s.run os).Shows (b.run ((s.steps os).flatMap fun st => st.found.edits st.operation)) := by
  induction os generalizing s b with
  | nil => exact h
  | cons o os ih =>
    rw [steps, List.flatMap_cons, Buffer.run, List.foldl_append]
    exact ih (h.after o)

theorem Reached.shows {settings : Settings} {s : Session} (h : Reached settings s) : s.Shows s.buffer := by
  induction h with
  | start h =>
    obtain ⟨mode, -, h⟩ := bind_eq_ok.1 h
    obtain ⟨limit, -, h⟩ := bind_eq_ok.1 h
    obtain rfl := Except.ok.inj h
    have hempty (u : Setup) : (empty u).Splits [] [] := ⟨rfl, rfl⟩
    exact (hempty _).shows
  | operation o _ ih => exact Splits.shows (ih.after o)
  | reload _ h ih =>
    rename_i w w' _
    have hsame : w'.session.display = w.session.display ∧ w'.session.cursor = w.session.cursor := by
      rcases reload_cases w with ⟨-, limit, hsession⟩ | ⟨-, u, hsession⟩
      · rw [h] at hsession
        exact hsession ▸ ⟨rfl, rfl⟩
      · rw [h] at hsession
        exact hsession ▸ ⟨rfl, rfl⟩
    exact Splits.shows (ih.of_eq hsame.1 hsame.2)

/-! ## Templates -/

section Templates

variable {s : Session} {left right name : Text}

theorem comma_not_mem_of_isLetter (hname : ∀ c ∈ name, Text.isLetter c) : ',' ∉ name :=
  fun h => absurd (hname ',' h) (by decide)

/-- A template is not the sign of the previous answer, which ends otherwise. -/
theorem append_ne_answerSign {t : Text} (ht : t.reverse[1]? ≠ some 's') (hlength : 1 < t.length) : name ++ t ≠ answerSign := by
  intro heq
  have hreverse := congrArg (fun u => u.reverse[1]?) heq
  rw [List.reverse_append, List.getElem?_append_left (by simpa using hlength)] at hreverse
  exact ht hreverse

/-- A call without arguments: the cursor goes between the parentheses. -/
theorem Splits.insertCall (h : s.Splits left right) (hname : ',' ∉ name) :
    (s.insertTemplate (name ++ ['(', ')'])).Splits (left ++ name ++ ['(']) (')' :: right) := by
  have hanswer : name ++ ['(', ')'] ≠ answerSign := append_ne_answerSign (by decide) (by decide)
  have hinsert : (s.insert (name ++ ['(', ')'])).Splits (left ++ name ++ ['('] ++ [')']) right := by
    simpa using h.insert (name ++ ['(', ')'])
  unfold insertTemplate
  simpa [hname, hanswer] using hinsert.stepBack

/-- A call with a comma for two arguments: the cursor goes before the comma. -/
theorem Splits.insertCall₂ (h : s.Splits left right) (name : Text) :
    (s.insertTemplate (name ++ ['(', ',', ')'])).Splits (left ++ name ++ ['(']) (',' :: ')' :: right) := by
  have hanswer : name ++ ['(', ',', ')'] ≠ answerSign := append_ne_answerSign (by decide) (by decide)
  have hinsert : (s.insert (name ++ ['(', ',', ')'])).Splits (left ++ name ++ ['('] ++ [','] ++ [')']) right := by
    simpa using h.insert (name ++ ['(', ',', ')'])
  unfold insertTemplate
  simpa [hanswer] using hinsert.stepBack.stepBack

end Templates

/-! ## Inserting and deleting again -/

section Undo

variable {s u : Session} {left right : Text}

/-- All but the text, the cursor and the graph. -/
def records (s : Session) : List Text × Text × List (List Point) × Setup := (s.history, s.lastResult, s.saved, s.setup)

theorem records_deleteBack (s : Session) : s.deleteBack.records = s.records := by
  unfold deleteBack
  split
  · rfl
  · rfl

theorem records_iterate_deleteBack (s : Session) (n : ℕ) : (deleteBack^[n] s).records = s.records := by
  induction n generalizing s with
  | zero => rfl
  | succ n ih => rw [Function.iterate_succ_apply, ih, records_deleteBack]

theorem IsFresh.iterate_deleteBack (h : s.IsFresh) (n : ℕ) : (Session.deleteBack^[n] s).IsFresh := by
  induction n generalizing s with
  | zero => exact h
  | succ n ih => exact ih h.deleteBack

theorem Splits.iterate_deleteBack {t : Text} (h : s.Splits (left ++ t) right) :
    (Session.deleteBack^[t.length] s).Splits left right := by
  induction t using List.reverseRecOn generalizing s with
  | nil =>
    rw [List.append_nil] at h
    exact h
  | append_singleton t c ih =>
    have hdeleted := h.deleteBack
    rw [← List.append_assoc, List.dropLast_concat] at hdeleted
    rw [List.length_append, List.length_singleton, Function.iterate_succ_apply]
    exact ih hdeleted

/-- A fresh graph is determined by all the rest. -/
theorem IsFresh.eq_of_splits (hs : s.IsFresh) (hu : u.IsFresh) (hrecords : s.records = u.records)
    (hsplit : s.Splits left right) (hsplit' : u.Splits left right) : s = u := by
  obtain ⟨display, cursor, history, lastResult, points, saved, setup⟩ := s
  obtain ⟨display', cursor', history', lastResult', points', saved', setup'⟩ := u
  obtain ⟨rfl, rfl⟩ := hsplit
  obtain ⟨rfl, rfl⟩ := hsplit'
  obtain ⟨rfl, rfl, rfl, rfl⟩ : history = history' ∧ lastResult = lastResult' ∧ saved = saved' ∧ setup = setup' := by
    simpa [records] using hrecords
  obtain rfl : points = points' := hs.trans hu.symm
  rfl

/-- **Inserted and deleted again**, a text leaves the session as it was. -/
theorem deleteBack_insert (hfresh : s.IsFresh) (h : s.Splits left right) (t : Text) :
    deleteBack^[t.length] (s.insert t) = s := by
  apply IsFresh.eq_of_splits (IsFresh.iterate_deleteBack (isFresh_redraw _) _) hfresh
  · rw [records_iterate_deleteBack]
    rfl
  · exact (h.insert t).iterate_deleteBack
  · exact h

end Undo

/-! ## The editor -/

/-- **The editor refines a buffer of two stacks.** In every reached session the cursor is within the text, which it divides
into a left and a right one; any further operations do their edits to the two; and of these edits: what is inserted goes
behind the left text, the deletion takes its last character, moves take characters across the cursor as far as there are
any, templates take what comes next between their parentheses, and a text that is inserted and deleted again leaves
everything as it was. -/
theorem editor_refines_buffer {settings : Settings} {s : Session} (h : Reached settings s) :
    s.cursor ≤ s.display.length ∧ s.Splits s.left s.right ∧
    (∀ os, (s.run os).Shows (s.buffer.run ((s.steps os).flatMap fun st => st.found.edits st.operation))) ∧
    (∀ t, (s.insert t).Splits (s.left ++ t) s.right) ∧
    s.deleteBack.Splits s.left.dropLast s.right ∧
    (∀ n : ℕ, (s.moveCursor n).Splits (s.left ++ s.right.take n) (s.right.drop n) ∧
      (s.moveCursor (-n)).Splits (s.left.rdrop n) (s.left.rtake n ++ s.right)) ∧
    (∀ name, (∀ c ∈ name, Text.isLetter c) → ∀ u,
      ((s.insertTemplate (name ++ ['(', ')'])).insert u).Splits (s.left ++ name ++ ['('] ++ u) (')' :: s.right) ∧
      ((s.insertTemplate (name ++ ['(', ',', ')'])).insert u).Splits (s.left ++ name ++ ['('] ++ u)
        (',' :: ')' :: s.right)) ∧
    ∀ t, deleteBack^[t.length] (s.insert t) = s := by
  have hshows := h.shows
  have hsplits := hshows.splits
  refine ⟨?_, hsplits, hshows.run, hsplits.insert, hsplits.deleteBack, fun n => ⟨?_, ?_⟩, ?_, ?_⟩
  · rw [hsplits.display, hsplits.cursor, List.length_append]
    exact Nat.le_add_right ..
  · have hmoved := hshows.moveForth n
    simpa [Shows, Buffer.forth, buffer] using hmoved
  · have hmoved := hshows.moveBack n
    simpa [Shows, Buffer.back, buffer, List.rdrop_eq_reverse_drop_reverse, List.rtake_eq_reverse_take_reverse] using hmoved
  · intro name hname u
    exact ⟨(hsplits.insertCall (comma_not_mem_of_isLetter hname)).insert u, (hsplits.insertCall₂ name).insert u⟩
  · exact deleteBack_insert h.isFresh hsplits

/-- `sin()` is inserted into `2+3` behind the `2`, and takes an `x`. -/
theorem editor_refines_buffer_inside : ∃ s, Reached [] s ∧ s.Splits "2".toList "+3".toList ∧
    ((s.insertTemplate "sin()".toList).insert "x".toList).Splits "2sin(x".toList ")+3".toList ∧
    deleteBack^[3] (s.insert "1⋅x".toList) = s := by
  let s : Session := ((empty .standard).after (.insert "2+3".toList)).after (.moveCursor (-2))
  have hreached : Reached [] s := .operation _ (.operation _ (.start rfl))
  have hsplits : s.Splits "2".toList "+3".toList := ⟨rfl, rfl⟩
  obtain ⟨-, -, -, -, -, -, htemplate, hundo⟩ := editor_refines_buffer hreached
  have hname : ∀ c ∈ "sin".toList, Text.isLetter c := List.all_eq_true.1 (by decide)
  have hsin := (htemplate "sin".toList hname "x".toList).1
  rw [hsplits.left_eq, hsplits.right_eq] at hsin
  exact ⟨s, hreached, hsplits, hsin, hundo "1⋅x".toList⟩

end Session

end Calculator
