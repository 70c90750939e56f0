import Calculator.Proofs.Typing
import Calculator.Window.Event

/-!
# Keys that type

A key without a meaning of its own presses the text that it writes, as a button with this caption would. Of the
characters of expressions only the capital `C`, a letter of `nCr`, is the caption of a button with another task.

* `isExpressionChar` : the characters of which expressions are made.
* `isPrintable_of_expression`, `eq_of_caption` : all of them can be typed, and one is a caption.
* `after_expressionKey` : what such a key does to a window in which no calculation runs.
* `key_types_iff` : the key of every such character but `C` types it.
-/

namespace Calculator

set_option autoImplicit false

open Calculator.Text (isPrintable)

/-- The characters of expressions: of literals, of names, the signs, the comma and the blank. -/
def isExpressionChar (c : Char) : Bool :=
  isLiteralChar c || (Operator.ofText? [c]).isSome || (NamedFunction.all.any fun f => f.name.contains c) ||
    c == ',' || c == ' '

/-- The captions of one character that stand for a command. -/
def captions : List Char := ['⚙', '📋', '←', '→', '⌫', 'C', '=']

/-! ## Characters -/

section Characters

variable {c : Char}

theorem isPrintable_of_literal (h : isLiteralChar c) : isPrintable c := by
  simp only [isLiteralChar, Bool.or_eq_true, beq_iff_eq] at h
  rcases h with (h | rfl) | rfl
  · have hlow : 48 ≤ c.toNat ∧ c.toNat ≤ 57 := by
      simp only [Char.isDigit, Bool.and_eq_true, decide_eq_true_eq, ge_iff_le, UInt32.le_iff_toNat_le] at h
      exact h
    rw [isPrintable, if_pos (by omega), Bool.and_eq_true, decide_eq_true_iff, decide_eq_true_iff]
    omega
  · decide
  · decide

theorem isPrintable_of_ofText? (h : (Operator.ofText? [c]).isSome) : isPrintable c := by
  obtain ⟨op, hop⟩ := Option.isSome_iff_exists.1 h
  unfold Operator.ofText? at hop
  split at hop
  · rename_i hc
    obtain rfl := List.singleton_inj.1 hc
    decide
  · split at hop
    · rename_i hc
      obtain rfl := List.singleton_inj.1 hc
      decide
    · have hsymbol := Operator.symbol_of_ofSymbol? hop
      cases op with
      | answer => exact nomatch hsymbol
      | _ =>
        obtain rfl := List.singleton_inj.1 hsymbol
        decide +kernel

theorem isPrintable_of_name {f : NamedFunction} (h : c ∈ f.name) : isPrintable c := by
  have hnames : ∀ f : NamedFunction, f.name.all isPrintable := by
    intro f
    cases f <;> decide
  exact List.all_eq_true.1 (hnames f) c h

theorem isPrintable_of_expression (h : isExpressionChar c) : isPrintable c := by
  simp only [isExpressionChar, Bool.or_eq_true, beq_iff_eq, List.any_eq_true] at h
  rcases h with (((h | h) | ⟨f, -, h⟩) | rfl) | rfl
  · exact isPrintable_of_literal h
  · exact isPrintable_of_ofText? h
  · exact isPrintable_of_name (List.contains_iff_mem.1 h)
  · decide
  · decide

theorem eq_of_caption (h : isExpressionChar c) (hc : c ∈ captions) : c = 'C' := by
  simp only [captions, List.mem_cons, List.not_mem_nil, or_false] at hc
  rcases hc with rfl | rfl | rfl | rfl | rfl | rfl | rfl
  case inr.inr.inr.inr.inr.inl => rfl
  all_goals exact absurd h (by decide +kernel)

theorem ofText_char (h : c ∉ captions) : Command.ofText [c] = .enter [c] := by
  simp only [captions, List.mem_cons, List.not_mem_nil, or_false, not_or] at h
  have hne : ∀ k, c ≠ k → (([c] : List Char) == [k]) = false := fun k hk => by simpa using hk
  simp [Command.ofText, Command.table, List.lookup_cons, hne, h]

theorem ofText_of_expression (h : isExpressionChar c) :
    Command.ofText [c] = if c = 'C' then .clear else .enter [c] := by
  by_cases hc : c = 'C'
  · subst hc
    decide
  · rw [if_neg hc, ofText_char fun hcaption => hc (eq_of_caption h hcaption)]

end Characters

/-! ## The window -/

namespace Window

section Idle

variable {w : Window} {c : Char}

/-- What the key of an expression character does: all but one type it, and one clears the display. -/
theorem after_expressionKey (hw : w.running = false) (hc : isExpressionChar c) :
    w.after (.keyDown .other [c]) = (w.edit (if c = 'C' then Session.clear else (·.press [c])), .quiet) := by
  have htext : Key.other.text? [c] = some [c] := by
    simp [Key.text?, isPrintable_of_expression hc]
  have hshift : ({ w with shift := w.shift || decide (Key.other = .shift) } : Window) = w := by
    simp
  rw [after, hshift, htext, pressSome, press, hw, ofText_of_expression hc]
  by_cases h : c = 'C'
  · rw [if_pos h, if_pos h]
    rfl
  · rw [if_neg h, if_neg h]
    rfl

/-- **The key of an expression character types it** exactly if the character is not `C`, and it is a command of its own
exactly if it is. -/
theorem key_types_iff (hw : w.running = false) (hc : isExpressionChar c) :
    ((w.after (.keyDown .other [c])).1.session = w.session.press [c] ↔ c ≠ 'C') ∧
      (Command.ofText [c] = .enter [c] ↔ c ≠ 'C') := by
  rw [after_expressionKey hw hc, ofText_of_expression hc]
  by_cases h : c = 'C'
  · subst h
    refine ⟨iff_of_false (fun hs => ?_) (by simp), by simp⟩
    have hdisplay : [] = (w.session.press ['C']).display := congrArg Session.display hs
    rw [Session.press_char (by decide), if_neg (by decide)] at hdisplay
    simp [Session.insert, Session.redraw] at hdisplay
  · rw [if_neg h, if_neg h]
    exact ⟨iff_of_true rfl h, iff_of_true rfl h⟩

end Idle

/-- The key `P` in a new window. -/
theorem key_P_types : ∃ w, Window.start ⟨.absent, .absent⟩ = .ok w ∧ w.running = false ∧ isExpressionChar 'P' ∧
    (w.after (.keyDown .other ['P'])).1.session = w.session.press ['P'] ∧ Command.ofText ['P'] = .enter ['P'] := by
  obtain ⟨w, hw⟩ : ∃ w, Window.start ⟨.absent, .absent⟩ = .ok w := ⟨_, rfl⟩
  have hrunning : w.running = false := by
    obtain rfl := Except.ok.inj hw
    rfl
  have hP : isExpressionChar 'P' := by decide
  have htypes := key_types_iff hrunning hP
  exact ⟨w, hw, hrunning, hP, htypes.1.2 (by decide), htypes.2.2 (by decide)⟩

/-- In a new window the keys `n` and `C` leave an empty display, where `nC` was pressed. -/
theorem key_C_clears : ∃ w, Window.start ⟨.absent, .absent⟩ = .ok w ∧
    ((w.after (.keyDown .other ['n'])).1.after (.keyDown .other ['C'])).1.session.display = [] ∧
      ((w.session.press ['n']).press ['C']).display = "nC".toList := by
  refine ⟨_, rfl, ?_, ?_⟩
  · rfl
  · rfl

end Window

end Calculator
