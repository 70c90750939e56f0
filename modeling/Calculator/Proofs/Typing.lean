import Calculator.Session

/-!
# Typing

Every character but the comma goes in front of the cursor. A comma goes behind it, as the comma of a template does, so
that the commas of a typed text pile up behind the cursor.

* `Setup.standard` : the setup of a new session.
* `Session.Splits` : the text before the cursor, and the text behind it.
* `Splits.insert`, `Splits.stepBack` : what an insertion and a step back make of the two texts.
* `Session.type` : the characters of a text, pressed one after another.
* `Splits.press`, `Splits.type` : where the characters of a typed text go.
* `type_splits_iff` : a typed text is inserted as it stands exactly if it has no comma.
-/

namespace Calculator

set_option autoImplicit false

/-- The setup of a new session whose settings say nothing else. -/
def Setup.standard : Setup := ⟨.radians, true, defaultMaxDepth⟩

namespace Session

/-- The display is `left` and then `right`, with the cursor between them. -/
structure Splits (s : Session) (left right : Text) : Prop where
  display : s.display = left ++ right
  cursor : s.cursor = left.length

def type (s : Session) (t : Text) : Session := t.foldl (fun s c => s.press [c]) s

/-! ## The two texts -/

section Edits

variable {s : Session} {left right : Text}

theorem Splits.left_eq (h : s.Splits left right) : s.left = left := by
  rw [Session.left, h.display, h.cursor, List.take_left]

theorem Splits.right_eq (h : s.Splits left right) : s.right = right := by
  rw [Session.right, h.display, h.cursor, List.drop_left]

theorem Splits.insert (h : s.Splits left right) (t : Text) : (s.insert t).Splits (left ++ t) right where
  display := by
    show s.left ++ t ++ s.right = left ++ t ++ right
    rw [h.left_eq, h.right_eq]
  cursor := by
    show s.cursor + t.length = (left ++ t).length
    rw [h.cursor, List.length_append]

theorem Splits.stepBack {c : Char} (h : s.Splits (left ++ [c]) right) :
    (s.moveCursor (-1)).Splits left (c :: right) where
  display := by
    show s.display = left ++ c :: right
    rw [h.display, List.append_assoc]
    rfl
  cursor := by
    show (max 0 (min (s.display.length : Int) (s.cursor + -1))).toNat = left.length
    have hlength := congrArg List.length h.display
    have hcursor := h.cursor
    simp only [List.length_append, List.length_singleton] at hlength hcursor
    omega

end Edits

/-! ## Single characters -/

theorem insertTemplate_char (s : Session) (c : Char) :
    s.insertTemplate [c] = if c = ',' then (s.insert [c]).moveCursor (-1) else s.insert [c] := by
  -- a single character does not open and close a parenthesis
  have hpair : (List.contains [c] '(' && List.contains [c] ')') = false := by
    by_cases hc : c = '('
    · subst hc
      rfl
    · simp [Ne.symm hc]
  unfold insertTemplate
  simp only [hpair, Bool.false_and, Bool.false_eq_true, ↓reduceIte]
  by_cases hc : c = ','
  · simp [hc]
  · simp [hc, Ne.symm hc]

theorem press_char {c : Char} (hc : c ≠ '=') (s : Session) :
    s.press [c] = if c = ',' then (s.insert [c]).moveCursor (-1) else s.insert [c] := by
  rw [press, if_neg (by simpa using hc), insertTemplate_char]

section Typing

variable {s : Session} {left right t : Text}

theorem Splits.press {c : Char} (hc : c ≠ '=') (h : s.Splits left right) :
    (s.press [c]).Splits (left ++ [c].filter (· ≠ ',')) (List.replicate ([c].count ',') ',' ++ right) := by
  rw [press_char hc]
  by_cases hcomma : c = ','
  · subst hcomma
    rw [if_pos rfl]
    simpa using (h.insert [',']).stepBack
  · rw [if_neg hcomma]
    simpa [hcomma] using h.insert [c]

/-- The commas of a typed text are behind the cursor, its other characters in front of it. -/
theorem Splits.type (h : s.Splits left right) (ht : '=' ∉ t) :
    (s.type t).Splits (left ++ t.filter (· ≠ ',')) (List.replicate (t.count ',') ',' ++ right) := by
  induction t generalizing s left right with
  | nil => simpa [type] using h
  | cons c t ih =>
    obtain ⟨hc, ht⟩ := not_or.1 (mt List.mem_cons.2 ht)
    have hpressed := ih (h.press (Ne.symm hc)) ht
    rw [List.append_assoc, ← List.filter_append, ← List.append_assoc, List.replicate_append_replicate,
      ← List.count_append, List.perm_append_comm.count_eq] at hpressed
    exact hpressed

/-- **A typed text is inserted at the cursor**, which then stands behind it, exactly if it has no comma. -/
theorem type_splits_iff (h : s.Splits left right) (ht : '=' ∉ t) :
    (s.type t).Splits (left ++ t) right ↔ ',' ∉ t := by
  have htyped := h.type ht
  constructor
  · intro hs hcomma
    have hcursor := htyped.cursor.symm.trans hs.cursor
    rw [List.length_append, List.length_append, Nat.add_left_cancel_iff, List.length_filter_eq_length_iff] at hcursor
    simpa using hcursor ',' hcomma
  · intro hcomma
    have hfilter : t.filter (· ≠ ',') = t := by
      refine List.filter_eq_self.2 fun c hc => ?_
      simpa using fun heq : c = ',' => hcomma (heq ▸ hc)
    rwa [hfilter, List.count_eq_zero.2 hcomma, List.replicate_zero, List.nil_append] at htyped

end Typing

/-- `2⋅x`, typed between the parentheses of a template. -/
theorem type_inside_template :
    (((empty .standard).insert "sin()".toList).moveCursor (-1)).Splits "sin(".toList ")".toList ∧ '=' ∉ "2⋅x".toList ∧
      ((((empty .standard).insert "sin()".toList).moveCursor (-1)).type "2⋅x".toList).Splits
        ("sin(".toList ++ "2⋅x".toList) ")".toList := by
  have hs : (((empty .standard).insert "sin()".toList).moveCursor (-1)).Splits "sin(".toList ")".toList := ⟨rfl, rfl⟩
  have ht : '=' ∉ "2⋅x".toList := by decide
  exact ⟨hs, ht, (type_splits_iff hs ht).2 (by decide)⟩

/-- The arguments of a call run into each other: `8,2` becomes `82,`, with the cursor before the comma. -/
theorem type_eight_comma_two :
    ((empty .standard).type "8,2".toList).display = "82,".toList ∧ ((empty .standard).type "8,2".toList).cursor = 2 ∧
      ¬ ((empty .standard).type "8,2".toList).Splits ([] ++ "8,2".toList) [] := by
  have hs : (empty .standard).Splits [] [] := ⟨rfl, rfl⟩
  have htyped := hs.type (t := "8,2".toList) (by decide)
  exact ⟨htyped.display, htyped.cursor, fun h => absurd (h.display.symm.trans htyped.display) (by decide)⟩

end Session

end Calculator
