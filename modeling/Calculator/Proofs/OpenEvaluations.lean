import Calculator.Proofs.Evaluation
import Calculator.Proofs.Paths

/-!
# Evaluations that are open at the same time

An evaluation stays open while its operands are evaluated, so a deep tree needs many of them. Here every call takes one
of a number of levels, and a chain is followed in a loop that takes none. `Expr.frames` is the number of levels that
always suffices, and no less does for a tree that has a value.

* `Bounded` : a computation that comes to an outcome, or runs out of levels.
* `Expr.chainStart`, `Expr.chainLinks` : a chain of left operands, taken apart.
* `Expr.evaluateWithin` : the outcome of a tree, with so many levels.
* `evaluateWithin_eq`, `evaluateWithin_eq_value_iff` : when the levels suffice.
* `evaluateWithin_of_text` : how many suffice for the tree of a text.
-/

namespace Calculator

set_option autoImplicit false

/-- `none` is running out of levels. -/
abbrev Bounded := ExceptT EvaluationFault Option

namespace Bounded

variable {α β : Type}

def outOfLevels : Bounded α := ExceptT.mk none

def reached (r : Except EvaluationFault α) : Bounded α := ExceptT.mk (some r)

theorem reached_bind (r : Except EvaluationFault α) (f : α → Except EvaluationFault β) :
    (reached r >>= fun a => reached (f a)) = reached (r >>= f) := by cases r <;> rfl

theorem reached_injective {r r' : Except EvaluationFault α} (h : reached r = reached r') : r = r' := Option.some.inj h

theorem bind_eq_reached {act : Bounded α} {f : α → Bounded β} {b : β} :
    (act >>= f) = reached (.ok b) ↔ ∃ a, act = reached (.ok a) ∧ f a = reached (.ok b) := by
  refine ⟨fun h => ?_, fun ⟨a, hact, hf⟩ => hact ▸ hf⟩
  match act with
  | none => exact nomatch h
  | some (.error fault) => exact nomatch h
  | some (.ok a) => exact ⟨a, rfl, h⟩

end Bounded

open Bounded

def followWithin (evaluate : Expr → Bounded (Option Float)) :
    Option Float → List (Operator × Expr) → Bounded (Option Float)
  | v?, [] => pure v?
  | none, _ :: _ => pure none
  | some v, (op, r) :: links => do
    let w? ← evaluate r
    followWithin evaluate (combine? op (some v) w?) links

namespace Expr

/-! ## Chains -/

def chainStart : Expr → Expr
  | binary l _ _ => l.chainStart
  | e => e

/-- The operators of the chain and their right operands, from the start on. -/
def chainLinks : Expr → List (Operator × Expr)
  | binary l op r => l.chainLinks ++ [(op, r)]
  | _ => []

/-- The outcome, unless more than so many evaluations would be open at the same time. -/
def evaluateWithin (x : Float) (mode : AngleMode) : (levels : ℕ) → Expr → Bounded (Option Float)
  | 0, _ => outOfLevels
  | levels + 1, e =>
    match e with
    | number v => pure (some v)
    | name _ => pure (some x)
    | bare op => pure (op.value? x)
    | unary op e => do
      match ← evaluateWithin x mode levels e with
      | none => pure none
      | some v => reached (applyUnary op v)
    | binary l op r => do
      let v? ← evaluateWithin x mode levels l.chainStart
      followWithin (evaluateWithin x mode levels) v? (l.chainLinks ++ [(op, r)])
    | call f e => do
      let v? ← evaluateWithin x mode levels e
      return v?.bind (f.value? mode)
    | call₂ f a b => do
      let u? ← evaluateWithin x mode levels a
      let v? ← evaluateWithin x mode levels b
      return do f.value₂? (← u?) (← v?)
    | failure _ => pure none
    | hole => throw .hole

variable {x : Float} {mode : AngleMode} {levels : ℕ}

/-- The link of an unbounded evaluation. -/
def link (x : Float) (mode : AngleMode) (l : Operator × Expr) : Link := ⟨l.1, fun _ => l.2.evaluate x mode⟩

theorem evaluateOnto_chain (e : Expr) (links : List Link) : evaluateOnto x mode e links =
    (e.chainStart.evaluate x mode >>= fun v? => follow v? (e.chainLinks.map (link x mode) ++ links)) := by
  induction e generalizing links with
  | binary l op r ihl _ =>
    rw [evaluateOnto, ihl, chainStart, chainLinks, List.map_append, List.append_assoc]
    rfl
  | _ => exact evaluateOnto_eq ..

theorem evaluate_chain (l : Expr) (op : Operator) (r : Expr) : (binary l op r).evaluate x mode =
    (l.chainStart.evaluate x mode >>= fun v? => follow v? ((l.chainLinks ++ [(op, r)]).map (link x mode))) := by
  rw [List.map_append]
  exact evaluateOnto_chain l _

/-- A loop is as deep as the deepest of what it evaluates. -/
theorem framesIn_true_le_iff (e : Expr) :
    e.framesIn true ≤ levels ↔ e.chainStart.frames ≤ levels ∧ ∀ l ∈ e.chainLinks, l.2.frames ≤ levels := by
  induction e with
  | binary l op r ihl _ =>
    rw [framesIn, Bool.not_true, Bool.toNat_false, Nat.add_zero, max_le_iff, ihl, chainStart, chainLinks,
      List.forall_mem_append, List.forall_mem_singleton, and_assoc]
    rfl
  | _ => exact ⟨fun h => ⟨h, List.forall_mem_nil _⟩, And.left⟩

theorem frames_binary_le_iff (l : Expr) (op : Operator) (r : Expr) : (binary l op r).frames ≤ levels + 1 ↔
    l.chainStart.frames ≤ levels ∧ ∀ link ∈ l.chainLinks ++ [(op, r)], link.2.frames ≤ levels :=
  Nat.add_le_add_iff_right.trans (framesIn_true_le_iff (binary l op r))

/-! ## Enough levels -/

theorem followWithin_eq {evaluate : Expr → Bounded (Option Float)} (v? : Option Float)
    {links : List (Operator × Expr)} (h : ∀ l ∈ links, evaluate l.2 = reached (l.2.evaluate x mode)) :
    followWithin evaluate v? links = reached (follow v? (links.map (link x mode))) := by
  induction links generalizing v? with
  | nil => cases v? <;> rfl
  | cons l links ih =>
    obtain ⟨hl, hlinks⟩ := List.forall_mem_cons.1 h
    cases v? with
    | none => rfl
    | some v =>
      rw [followWithin, hl, List.map_cons, follow, ← reached_bind]
      exact bind_congr fun w? => ih _ hlinks

theorem evaluateWithin_eq {e : Expr} (h : e.frames ≤ levels) :
    e.evaluateWithin x mode levels = reached (e.evaluate x mode) := by
  induction levels generalizing e with
  | zero => cases e <;> exact absurd h (Nat.not_succ_le_zero _)
  | succ levels ih =>
    cases e with
    | unary op e =>
      rw [evaluateWithin, ih (Nat.le_of_succ_le_succ h), evaluate_unary, ← reached_bind]
      exact bind_congr fun v? => by cases v? <;> rfl
    | binary l op r =>
      obtain ⟨hstart, hlinks⟩ := (frames_binary_le_iff l op r).1 h
      rw [evaluateWithin, ih hstart, evaluate_chain, ← reached_bind]
      exact bind_congr fun v? => followWithin_eq v? fun l hl => ih (hlinks l hl)
    | call f e =>
      rw [evaluateWithin, ih (Nat.le_of_succ_le_succ h), evaluate_call, ← reached_bind]
      rfl
    | call₂ f a b =>
      obtain ⟨ha, hb⟩ := max_le_iff.1 (Nat.le_of_succ_le_succ h)
      rw [evaluateWithin, ih ha, ih hb, evaluate_call₂, ← reached_bind]
      refine bind_congr fun u? => ?_
      rw [← reached_bind]
      rfl
    | _ => rfl

/-! ## No less -/

theorem isSome_of_combine? {op : Operator} {u? v? : Option Float} (h : (combine? op u? v?).isSome) :
    u?.isSome ∧ v?.isSome := by
  cases u? with
  | none => exact nomatch h
  | some u =>
    cases v? with
    | none => exact nomatch h
    | some v => exact ⟨rfl, rfl⟩

/-- A loop comes to a value only if everything that is linked has one. -/
theorem followWithin_eq_some {evaluate : Expr → Bounded (Option Float)} {v? : Option Float}
    {links : List (Operator × Expr)} {w : Float} (h : followWithin evaluate v? links = reached (.ok (some w))) :
    v?.isSome ∧ ∀ l ∈ links, ∃ u, evaluate l.2 = reached (.ok (some u)) := by
  induction links generalizing v? with
  | nil =>
    cases v? with
    | none => exact nomatch h
    | some v => exact ⟨rfl, List.forall_mem_nil _⟩
  | cons l links ih =>
    cases v? with
    | none => exact nomatch h
    | some v =>
      obtain ⟨w?, hl, h⟩ := bind_eq_reached.1 h
      obtain ⟨hcombine, hlinks⟩ := ih h
      obtain ⟨u, rfl⟩ := Option.isSome_iff_exists.1 (isSome_of_combine? hcombine).2
      exact ⟨rfl, List.forall_mem_cons.2 ⟨⟨u, hl⟩, hlinks⟩⟩

theorem frames_le_of_evaluateWithin {e : Expr} {v : Float}
    (h : e.evaluateWithin x mode levels = reached (.ok (some v))) : e.frames ≤ levels := by
  induction levels generalizing e v with
  | zero => exact nomatch h
  | succ levels ih =>
    cases e with
    | unary op e =>
      obtain ⟨u?, hu, h⟩ := bind_eq_reached.1 h
      cases u? with
      | none => exact nomatch h
      | some u => exact Nat.succ_le_succ (ih hu)
    | binary l op r =>
      obtain ⟨u?, hu, h⟩ := bind_eq_reached.1 h
      obtain ⟨hsome, hlinks⟩ := followWithin_eq_some h
      obtain ⟨u, rfl⟩ := Option.isSome_iff_exists.1 hsome
      refine (frames_binary_le_iff l op r).2 ⟨ih hu, fun link hlink => ?_⟩
      obtain ⟨w, hw⟩ := hlinks link hlink
      exact ih hw
    | call f e =>
      obtain ⟨u?, hu, h⟩ := bind_eq_reached.1 h
      cases u? with
      | none => exact nomatch h
      | some u => exact Nat.succ_le_succ (ih hu)
    | call₂ f a b =>
      obtain ⟨u?, hu, h⟩ := bind_eq_reached.1 h
      obtain ⟨w?, hw, h⟩ := bind_eq_reached.1 h
      cases u? with
      | none => exact nomatch h
      | some u =>
        cases w? with
        | none => exact nomatch h
        | some w => exact Nat.succ_le_succ (max_le (ih hu) (ih hw))
    | _ => exact Nat.succ_le_succ (Nat.zero_le levels)

/-- **A value needs as many levels as the tree has frames.** -/
theorem evaluateWithin_eq_value_iff {e : Expr} {v : Float} :
    e.evaluateWithin x mode levels = reached (.ok (some v)) ↔ e.frames ≤ levels ∧ e.evaluate x mode = .ok (some v) := by
  constructor
  · intro h
    have hle := frames_le_of_evaluateWithin h
    exact ⟨hle, reached_injective ((evaluateWithin_eq hle).symm.trans h)⟩
  · rintro ⟨hle, hvalue⟩
    rw [evaluateWithin_eq hle, hvalue]

end Expr

/-- The levels for the tree of a text grow with the square of its limit, whatever the length of the text. -/
theorem evaluateWithin_of_text {strict : Bool} {limit : Int} {text : Text} {e : Expr} {x : Float} {mode : AngleMode}
    {levels : ℕ} (h : treeOf strict limit text = .ok e) (hi : e.intact)
    (hlevels : (limit.toNat * 3 + 4) * (limit.toNat + 1) + 1 ≤ levels) :
    e.evaluateWithin x mode levels = reached (e.evaluate x mode) :=
  Expr.evaluateWithin_eq ((frames_le_of_limit h hi).trans hlevels)

end Calculator
