import Calculator.Window.Hold
import Mathlib.Data.List.Basic

/-!
# What a held button leaves behind

A button that is held down presses while it is held, and the click that ends the hold presses nothing. Where the pointer
leaves the button before it is released there is no such click, and the next one is taken for it, whatever its button.

* `Hold.run` : the state after some events, and all that is pressed.
* `Interaction` : a button goes down and up again, perhaps with beats of the timer between, perhaps without a click.
* `Interaction.presses` : what it is to press.
* `Interaction.owes`, `owed` : a click is still owed to a hold.
* `run_ticks`, `run_interaction` : what the beats, and a whole interaction, press.
* `presses_iff` : an interaction presses what it is to press, but for a click that is owed to an earlier hold.
-/

namespace Calculator

set_option autoImplicit false

namespace Hold

def run (h : Hold) : List Event → Hold × List Text
  | [] => (h, [])
  | e :: es => (((h.after e).1.run es).1, (h.after e).2.toList ++ ((h.after e).1.run es).2)

theorem run_append (h : Hold) (es fs : List Event) :
    h.run (es ++ fs) = (((h.run es).1.run fs).1, (h.run es).2 ++ ((h.run es).1.run fs).2) := by
  induction es generalizing h with
  | nil => rfl
  | cons e es ih => simp only [List.cons_append, run, ih, List.append_assoc]

section Ticks

variable {h : Hold} {t : Text}

theorem after_tick (hrunning : h.timer.running) (hheld : h.held = some t) :
    ∃ h', h.after .tick = (h', some t) ∧ h'.timer.running ∧ h'.held = some t ∧ h'.wasHeld := by
  rw [after, if_pos hrunning, hheld]
  exact ⟨_, rfl, hrunning, rfl, rfl⟩

theorem run_ticks (hrunning : h.timer.running) (hheld : h.held = some t) (n : ℕ) :
    (h.run (.replicate n .tick)).2 = .replicate n t ∧
      (h.run (.replicate n .tick)).1.wasHeld = (h.wasHeld || n != 0) := by
  induction n generalizing h with
  | zero => exact ⟨rfl, (Bool.or_false _).symm⟩
  | succ n ih =>
    obtain ⟨h', hafter, hrunning', hheld', hflag'⟩ := after_tick hrunning hheld
    obtain ⟨hpressed, hflag⟩ := ih hrunning' hheld'
    rw [List.replicate_succ, run, hafter, hpressed, hflag, hflag']
    exact ⟨rfl, (Bool.or_true _).symm⟩

end Ticks

end Hold

/-- A button goes down, the timer beats, and the button goes up; there is a click unless the pointer left the button before.
The timer beats only for buttons that repeat. -/
structure Interaction where
  button : Button
  ticks : ℕ
  clicked : Bool
  possible : ticks = 0 ∨ button.repeats

namespace Interaction

def events (i : Interaction) : List Hold.Event :=
  .pressed i.button :: (.replicate i.ticks .tick ++ .released i.button ::
    if i.clicked then [.clicked i.button] else [])

/-- What is to be pressed: the button once for a click, or once for every beat. -/
def presses (i : Interaction) : List Text :=
  if i.ticks = 0 then if i.clicked then [i.button.value] else [] else .replicate i.ticks i.button.value

/-- Whether a click is owed after the interaction, if `before` says whether one was owed. -/
def owes (before : Bool) (i : Interaction) : Bool :=
  !i.clicked && if i.button.repeats then i.ticks != 0 else before

/-- The button of the interaction is no repeating one, and its click is taken for one that is owed. -/
def isSwallowed (owed : Bool) (i : Interaction) : Bool := owed && !i.button.repeats && i.clicked

theorem presses_ne_nil_of_isSwallowed {owed : Bool} {i : Interaction} (h : i.isSwallowed owed) : i.presses ≠ [] := by
  simp only [isSwallowed, Bool.and_eq_true, Bool.not_eq_true'] at h
  have hticks : i.ticks = 0 := i.possible.resolve_right (by simp [h.1.2])
  rw [presses, if_pos hticks, if_pos h.2]
  exact List.cons_ne_nil _ _

/-- A whole interaction: what it presses, and whether it leaves a click owed. -/
theorem run_events (h : Hold) (i : Interaction) :
    (h.run i.events).2 = (if i.isSwallowed h.wasHeld then [] else i.presses) ∧
      (h.run i.events).1.wasHeld = i.owes h.wasHeld := by
  obtain ⟨b, n, clicked, possible⟩ := i
  cases hb : b.repeats with
  | false =>
    obtain rfl : n = 0 := possible.resolve_right (by simp [hb])
    cases clicked <;> cases hw : h.wasHeld <;>
      simp [events, Hold.run, Hold.after, isSwallowed, presses, owes, hb, hw]
  | true =>
    obtain ⟨hpressed, hflag⟩ := Hold.run_ticks (h := ⟨⟨true, Hold.initialDelay⟩, some b.value, false⟩) rfl rfl n
    cases clicked <;> cases n <;>
      simp_all [events, Hold.run, Hold.run_append, Hold.after, isSwallowed, presses, owes]

/-- A click is still owed after these interactions, if `before` says whether one was owed. -/
def owed (before : Bool) (is : List Interaction) : Bool := is.foldl owes before

theorem wasHeld_run (h : Hold) (is : List Interaction) : (h.run (is.flatMap events)).1.wasHeld = owed h.wasHeld is := by
  induction is generalizing h with
  | nil => rfl
  | cons i is ih =>
    rw [List.flatMap_cons, Hold.run_append, ih, (run_events h i).2]
    rfl

/-- The button is held down until it presses, and let go without a click. -/
def isLeft (i : Interaction) : Prop := i.button.repeats ∧ i.ticks ≠ 0 ∧ ¬i.clicked

/-- The button does not repeat, and there is no click. -/
def isVoid (i : Interaction) : Prop := ¬i.button.repeats ∧ ¬i.clicked

theorem owes_iff (before : Bool) (i : Interaction) : i.owes before ↔ i.isLeft ∨ before ∧ i.isVoid := by
  unfold owes isLeft isVoid
  cases i.clicked <;> cases i.button.repeats <;> simp

/-- A click is owed if a button was left, or one was owed before, with nothing of consequence since. -/
theorem owed_iff (before : Bool) (is : List Interaction) : owed before is ↔
    (∃ l i r, is = l ++ i :: r ∧ i.isLeft ∧ ∀ j ∈ r, j.isVoid) ∨ before ∧ ∀ j ∈ is, j.isVoid := by
  induction is generalizing before with
  | nil => simp [owed]
  | cons i is ih =>
    have hsplit : (∃ l k r, i :: is = l ++ k :: r ∧ k.isLeft ∧ ∀ j ∈ r, j.isVoid) ↔
        i.isLeft ∧ (∀ j ∈ is, j.isVoid) ∨ ∃ l k r, is = l ++ k :: r ∧ k.isLeft ∧ ∀ j ∈ r, j.isVoid := by
      simp only [List.cons_eq_append_iff, List.cons.injEq]
      constructor
      · rintro ⟨l, k, r, ⟨-, rfl, rfl⟩ | ⟨l', -, his⟩, hk, hr⟩
        · exact .inl ⟨hk, hr⟩
        · exact .inr ⟨l', k, r, his, hk, hr⟩
      · rintro (⟨hi, his⟩ | ⟨l, k, r, his, hk, hr⟩)
        · exact ⟨[], i, is, .inl ⟨rfl, rfl, rfl⟩, hi, his⟩
        · exact ⟨i :: l, k, r, .inr ⟨l, rfl, his⟩, hk, hr⟩
    show owed (i.owes before) is ↔ _
    rw [ih, owes_iff, hsplit, List.forall_mem_cons, or_and_right, and_assoc, ← or_assoc]
    exact or_congr_left or_comm

/-- **What a sequence of interactions presses.** Every interaction presses what it is to press, but for a click on a button
that does not repeat, if another button was held down before until it pressed and was left, with neither a click nor a
repeating button since: this click presses nothing. -/
theorem presses_iff (is : List Interaction) (i : Interaction) :
    ((Hold.idle.run (is.flatMap events)).1.run i.events).2 = i.presses ↔
      ¬(¬i.button.repeats ∧ i.clicked ∧ ∃ l j r, is = l ++ j :: r ∧ j.isLeft ∧ ∀ k ∈ r, k.isVoid) := by
  have howed : owed false is ↔ ∃ l j r, is = l ++ j :: r ∧ j.isLeft ∧ ∀ k ∈ r, k.isVoid := by simp [owed_iff]
  have hswallowed : i.isSwallowed (owed false is) ↔ ¬i.button.repeats ∧ i.clicked ∧ owed false is := by
    simp only [isSwallowed, Bool.and_eq_true, Bool.not_eq_true', Bool.not_eq_true]
    tauto
  rw [← howed, ← hswallowed, (run_events _ i).1, wasHeld_run]
  show (if i.isSwallowed (owed false is) then [] else i.presses) = i.presses ↔ _
  cases h : i.isSwallowed (owed false is) with
  | false => simp
  | true => simpa using (presses_ne_nil_of_isSwallowed h).symm

/-- The button `7` is held down until it presses, and left; a click on `C` then presses nothing. -/
theorem click_after_left_button : ∃ seven clear : Button, seven ∈ Layout.buttons ∧ clear ∈ Layout.buttons ∧
    ∃ left click : Interaction, left.button = seven ∧ left.ticks = 1 ∧ ¬left.clicked ∧
      click.button = clear ∧ click.ticks = 0 ∧ click.clicked ∧ click.presses = ["C".toList] ∧
      ((Hold.idle.run left.events).1.run click.events).2 = [] := by
  refine ⟨⟨"7".toList, 1, 2, "7".toList, true⟩, ⟨"C".toList, 1, 1, "C".toList, false⟩,
    by decide +kernel, by decide +kernel, ⟨_, 1, false, .inr rfl⟩, ⟨_, 0, true, .inl rfl⟩, rfl, rfl, nofun, rfl, rfl, rfl, rfl, rfl⟩

end Interaction

end Calculator
