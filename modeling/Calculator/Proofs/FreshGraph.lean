import Calculator.Proofs.Sequence
import Calculator.Window.Basic

/-!
# The graph is the graph of the text

The graph of a session is not computed when it is looked at, but kept. It depends on the text on display, the last result
and the setup, and everything that changes one of these draws it again.

* `Session.Operation`, `Session.after` : what can be done to a session; an operation that fails leaves it as it was.
* `Session.Reached` : the sessions that operations and visits to the settings lead to.
* `Session.IsFresh` : the graph is that of the text. `isFresh_redraw` : drawn again it is.
* `IsFresh.after`, `isFresh_reload`, `Reached.isFresh` : it stays so.
* `graph_is_fresh` : the graph of a reached session.
-/

namespace Calculator

set_option autoImplicit false

/-! ## The empty text -/

theorem treeOfTokens_nil (limit : Int) : treeOfTokens limit [] = .failure .unexpectedToken := by
  unfold treeOfTokens
  cases limit.toNat <;> simp [readAt, Level.read, readExpression, readChain, readTerm, readFactor, readBase, chain,
    refuse, Reading.extend]

theorem treeOf_nil {s : Setup} {tree : Expr} (h : s.treeOf [] = .ok tree) : tree = .failure .unexpectedToken := by
  rw [Setup.treeOf, treeOf_eq_treeWithin] at h
  obtain ⟨ts, hts, rfl⟩ := treeWithin_eq_ok.1 h
  obtain ⟨levels, -, hlevel⟩ := exists_level hts
  rw [tokensWithin_succ_eq_ok, lexemes] at hlevel
  obtain rfl := Except.ok.inj hlevel.1
  exact treeOfTokens_nil _

theorem standardGraph_nil (s : Setup) (answer : Text) : standardGraph s answer [] = [] := by
  unfold standardGraph
  split
  · rfl
  · rename_i tree htree
    rw [treeOf_nil htree]
    rfl

namespace Session

/-! ## Operations -/

inductive Operation where
  | insert (t : Text)
  | number (v : Json)
  | decimal
  | insertTemplate (t : Text)
  | press (t : Text)
  | deleteBack
  | clear
  | moveCursor (offset : Int)
  | calculate
  | redraw
  | saveGraph
  | setAngleMode (value : Json)
  | setGraphing (value : Json)

/-- The session that an operation makes, or why it fails. -/
def attempt (s : Session) : Operation → Except SettingsFault Session
  | .insert t => .ok (s.insert t)
  | .number v => .ok (s.insert v.describe)
  | .decimal => .ok (s.insert ['.'])
  | .insertTemplate t => .ok (s.insertTemplate t)
  | .press t => .ok (s.press t)
  | .deleteBack => .ok s.deleteBack
  | .clear => .ok s.clear
  | .moveCursor offset => .ok (s.moveCursor offset)
  | .calculate => .ok s.calculate
  | .redraw => .ok s.redraw
  | .saveGraph => .ok s.saveGraph.1
  | .setAngleMode value => s.setAngleMode value
  | .setGraphing value => .ok (s.setGraphing value.holds)

def after (s : Session) (o : Operation) : Session :=
  match s.attempt o with
  | .ok t => t
  | .error _ => s

/-- The sessions that are reached from a new one with some settings. -/
inductive Reached (settings : Settings) : Session → Prop where
  | start {s : Session} : Session.start settings = .ok s → Reached settings s
  | operation {s : Session} (o : Operation) : Reached settings s → Reached settings (s.after o)
  /-- The settings are taken over from the file, without a fault. -/
  | reload {w w' : Window} : Reached settings w.session → w.reload = (w', none) → Reached settings w'.session

/-! ## The invariant -/

/-- The graph is that of the text on display, as the text is understood now. -/
def IsFresh (s : Session) : Prop := s.points = s.currentGraph

theorem isFresh_redraw (s : Session) : s.redraw.IsFresh := rfl

theorem isFresh_empty (s : Setup) : (empty s).IsFresh := (standardGraph_nil s []).symm

theorem isFresh_start {settings : Settings} {s : Session} (h : Session.start settings = .ok s) : s.IsFresh := by
  obtain ⟨mode, -, h⟩ := bind_eq_ok.1 h
  obtain ⟨limit, -, h⟩ := bind_eq_ok.1 h
  obtain rfl := Except.ok.inj h
  exact isFresh_empty _

theorem IsFresh.moveCursor {s : Session} (h : s.IsFresh) (offset : Int) : (s.moveCursor offset).IsFresh := h

theorem IsFresh.saveGraph {s : Session} (h : s.IsFresh) : s.saveGraph.1.IsFresh := by
  unfold Session.saveGraph
  split
  · exact h
  · exact h

theorem isFresh_insertTemplate (s : Session) (t : Text) : (s.insertTemplate t).IsFresh := by
  have hinsert : (s.insert t).IsFresh := isFresh_redraw _
  unfold insertTemplate
  simp only
  split
  · split
    · exact (hinsert.moveCursor _).moveCursor _
    · exact hinsert.moveCursor _
  · split
    · exact hinsert.moveCursor _
    · exact hinsert

theorem isFresh_calculate (s : Session) : s.calculate.IsFresh := isFresh_redraw _

theorem isFresh_press (s : Session) (t : Text) : (s.press t).IsFresh := by
  unfold press
  split
  · exact isFresh_calculate s
  · exact isFresh_insertTemplate s t

theorem IsFresh.deleteBack {s : Session} (h : s.IsFresh) : s.deleteBack.IsFresh := by
  unfold Session.deleteBack
  split
  · exact h
  · exact isFresh_redraw _

theorem isFresh_setAngleMode {s t : Session} {value : Json} (h : s.setAngleMode value = .ok t) : t.IsFresh := by
  obtain ⟨mode, -, h⟩ := bind_eq_ok.1 h
  obtain rfl := Except.ok.inj h
  exact isFresh_redraw _

/-! ## Steps and runs -/

theorem IsFresh.attempt {s t : Session} {o : Operation} (h : s.IsFresh) (ht : s.attempt o = .ok t) : t.IsFresh := by
  cases o with
  | insert | number | decimal | clear | redraw | setGraphing => exact Except.ok.inj ht ▸ isFresh_redraw _
  | insertTemplate text => exact Except.ok.inj ht ▸ isFresh_insertTemplate s text
  | press text => exact Except.ok.inj ht ▸ isFresh_press s text
  | deleteBack => exact Except.ok.inj ht ▸ h.deleteBack
  | moveCursor offset => exact Except.ok.inj ht ▸ h.moveCursor offset
  | calculate => exact Except.ok.inj ht ▸ isFresh_calculate s
  | saveGraph => exact Except.ok.inj ht ▸ h.saveGraph
  | setAngleMode value => exact isFresh_setAngleMode ht

theorem IsFresh.after {s : Session} (h : s.IsFresh) (o : Operation) : (s.after o).IsFresh := by
  unfold Session.after
  split
  · rename_i t ht
    exact h.attempt ht
  · exact h

/-- Taking over the settings ends with a new graph, whatever limit and modes they have. -/
theorem isFresh_reload {w w' : Window} (h : w.reload = (w', none)) : w'.session.IsFresh := by
  unfold Window.reload at h
  split at h
  · cases h
  · simp only at h
    split at h
    · cases h
    · split at h
      · cases h
      · cases h
        exact isFresh_redraw _

theorem Reached.isFresh {settings : Settings} {s : Session} (h : Reached settings s) : s.IsFresh := by
  induction h with
  | start h => exact isFresh_start h
  | operation o _ ih => exact ih.after o
  | reload _ h _ => exact isFresh_reload h

/-- **The graph is never stale**: after any operations and visits to the settings it is the graph of the text on display, of
the last result and of the setup as they are then. -/
theorem graph_is_fresh {settings : Settings} {s : Session} (h : Reached settings s) :
    graph s.setup .standard s.lastResult s.display = .ok s.points := by
  rw [graph_standard, h.isFresh]
  rfl

theorem Reached.reload_of_completed {settings : Settings} {w : Window} (h : Reached settings w.session)
    (hcompleted : w.reload.2.isNone) : Reached settings w.reload.1.session :=
  .reload h (Prod.ext rfl (Option.isNone_iff_eq_none.1 hcompleted))

/-- An `x` is typed, and then a lower nesting limit is taken over from the file. -/
theorem graph_is_fresh_at_limit_three : ∃ s, Reached [] s ∧ s.display = ['x'] ∧ s.setup.maxDepth = 3 ∧
    graph s.setup .standard s.lastResult s.display = .ok s.points := by
  have htyped : Reached [] ((empty ⟨.radians, true, defaultMaxDepth⟩).after (.insert ['x'])) :=
    .operation _ (.start rfl)
  have h := htyped.reload_of_completed
    (w := ⟨⟨.file "\x7b\"max_nesting_depth\": 3\x7d".toList, .absent⟩, [], _, ⟨[], [], []⟩, false, false, 0, [],
      .idle, false, []⟩) (by decide +kernel)
  exact ⟨_, h, by decide +kernel, by decide +kernel, graph_is_fresh h⟩

end Session

end Calculator
