import Calculator.Expr.Fields

/-!
# Equality of expressions

Trees are equal if they have the same nodes in the same places and equal numbers. A chain may be as deep as it is long,
so what is still to be done is kept in a list.

* `Expr.equals` : by a list of the pairs still to be compared.
* `Expr.labels` : the sequence of labels of a tree, from which its hash is taken.
* `sameLabels` : two sequences with equal labels.
-/

namespace Calculator

set_option autoImplicit false

/-- The pairs of subtrees in two lists of fields, if their labels are equal. -/
def subtreePairs? : List Field → List Field → Option (List (Expr × Expr))
  | [], [] => some []
  | .tree a :: as, .tree b :: bs => (subtreePairs? as bs).map ((a, b) :: ·)
  | .label l :: as, .label m :: bs => if l.equals m then subtreePairs? as bs else none
  | _, _ => none

def leftWeight (pairs : List (Expr × Expr)) : Nat := total (fun p => 2 * p.1.size) pairs

theorem leftWeight_le_of_subtreePairs? {as bs : List Field} {pairs : List (Expr × Expr)}
    (h : subtreePairs? as bs = some pairs) : leftWeight pairs ≤ total Field.weight as := by
  fun_induction subtreePairs? as bs generalizing pairs with
  | case1 => obtain rfl := Option.some.inj h; simp [leftWeight]
  | case2 a as b bs ih =>
    obtain ⟨rest, hrest, rfl⟩ := Option.map_eq_some_iff.1 h
    have := ih hrest
    simp only [leftWeight, total_cons, Field.weight] at *
    omega
  | case3 l as m bs hlabel ih => exact Nat.le_trans (ih h) (by simp)
  | case4 | case5 => cases h

namespace Expr

/-- The pairs of subtrees of two nodes, if the nodes are equal but for them. -/
def subpairs? (a b : Expr) : Option (List (Expr × Expr)) :=
  if a.kind = b.kind then subtreePairs? a.fields b.fields else none

theorem leftWeight_subpairs {a b : Expr} {pairs : List (Expr × Expr)} (h : subpairs? a b = some pairs) :
    leftWeight pairs < 2 * a.size := by
  unfold subpairs? at h
  split at h
  · exact Nat.lt_of_le_of_lt (leftWeight_le_of_subtreePairs? h) a.weight_fields_lt
  · cases h

end Expr

theorem leftWeight_reverse_append (pairs rest : List (Expr × Expr)) :
    leftWeight (pairs.reverse ++ rest) = leftWeight pairs + leftWeight rest := by
  induction pairs generalizing rest with
  | nil => simp [leftWeight]
  | cons p pairs ih =>
    have := ih (p :: rest)
    simp only [leftWeight, List.reverse_cons, List.append_assoc, List.singleton_append, total_cons] at *
    omega

/-- All pairs are equal; the last pair of a node is compared first. -/
def allEqual : List (Expr × Expr) → Bool
  | [] => true
  | (a, b) :: rest =>
    match _h : Expr.subpairs? a b with
    | some pairs => allEqual (pairs.reverse ++ rest)
    | none => false
termination_by pairs => leftWeight pairs
decreasing_by
  have := Expr.leftWeight_subpairs ‹Expr.subpairs? a b = some pairs›
  rw [leftWeight_reverse_append]
  simpa [leftWeight] using this

/-- The labels of the fields, each node before its own fields. -/
def collectLabels : List Field → List Label
  | [] => []
  | .label l :: rest => l :: collectLabels rest
  | .tree e :: rest => .text e.kind.text :: collectLabels (e.fields ++ rest)
termination_by fields => total Field.weight fields
decreasing_by
  · simp [Field.weight]
  · simpa [Field.weight] using e.weight_fields_lt

def sameLabels : List Label → List Label → Bool
  | [], [] => true
  | a :: as, b :: bs => a.equals b && sameLabels as bs
  | _, _ => false

namespace Expr

def equals (a b : Expr) : Bool := allEqual [(a, b)]

/-- The kinds and labels of a tree, each node before its fields. -/
def labels (e : Expr) : List Label := collectLabels [.tree e]

end Expr

end Calculator
