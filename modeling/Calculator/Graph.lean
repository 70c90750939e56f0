import Calculator.Calculation

/-!
# Graphs

* `Point`, `Range` : a point of a graph, and where a graph is sampled.
* `Range.sampleCount`, `Range.sample` : the number of steps, and the `x` after some of them.
* `putFirst` : puts a point in front of others; of points at the same `x` the first keeps its place, the last its `y`.
* `graph` : the finite values of a problem over a range, in the order of sampling.
-/

namespace Calculator

set_option autoImplicit false

open Calculator.Number

structure Point where
  x : Float
  y : Float

/-- Where a graph is sampled: from `start` to `stop`, both included, every `step`. -/
structure Range where
  start : Float
  stop : Float
  step : Float

namespace Range

def standard : Range := ⟨-10.0, 10.0, 0.001⟩

def sampleCount (r : Range) : Except ArithmeticFault Int := do toNearest (← divide (r.stop - r.start) r.step)

def places : Nat := 10

/-- The `x` after `i` steps. -/
def sample (r : Range) (i : Nat) : Float := roundPlaces places (r.start + Float.ofNat i * r.step)

end Range

/-- Puts a point in front of later ones. -/
def putFirst (p : Point) : List Point → List Point
  | [] => [p]
  | q :: rest => if p.x == q.x then ⟨p.x, q.y⟩ :: rest else p :: q :: rest

/-- The points of the first `n` samples of `tree`, in front of later ones. -/
def pointsOnto (s : Setup) (r : Range) (tree : Expr) : (n : Nat) → List Point → List Point
  | 0, later => later
  | n + 1, later =>
    let x := r.sample n
    match s.finiteValue? x tree with
    | some y => pointsOnto s r tree n (putFirst ⟨x, y⟩ later)
    | none => pointsOnto s r tree n later

def samplePoints (s : Setup) (r : Range) (tree : Expr) : Except ArithmeticFault (List Point) := do
  let n ← r.sampleCount
  return pointsOnto s r tree (n + 1).toNat []

/-- The graph of `problem`, in which `ans` means the previous answer; a text without a tree has no points. -/
def graph (s : Setup) (r : Range) (answer problem : Text) : Except ArithmeticFault (List Point) :=
  match s.treeOf (substituteAnswer answer problem) with
  | .error _ => .ok []
  | .ok tree => if tree.isFailure then .ok [] else samplePoints s r tree

def standardSteps : Nat := 20000

def standardGraph (s : Setup) (answer problem : Text) : List Point :=
  match s.treeOf (substituteAnswer answer problem) with
  | .error _ => []
  | .ok tree => if tree.isFailure then [] else pointsOnto s .standard tree (standardSteps + 1) []

theorem sampleCount_standard : Range.standard.sampleCount = .ok standardSteps := by
  have h : Range.standard.sampleCount.toOption = some (standardSteps : Int) := by decide +kernel
  cases hc : Range.standard.sampleCount <;> simp_all [Except.toOption]

theorem graph_standard (s : Setup) (answer problem : Text) :
    graph s .standard answer problem = .ok (standardGraph s answer problem) := by
  unfold graph standardGraph
  split
  · rfl
  · split
    · rfl
    · simp only [samplePoints, sampleCount_standard]; rfl

end Calculator
