import Mathlib.Data.List.Infix
import Calculator.Token.Check

/-!
# The order of tokens, place by place

The check of the order reads a sequence once and remembers one operator and the number of open parentheses. Its answer is
a property of the sequence itself: which neighbours clash, and which prefixes close more parentheses than they open.

* `clashes` : which tokens cannot be neighbours.
* `faultAt` : the fault of a token behind others; `Faultless` : no token of a sequence has one.
* `findFaultFrom_cons` : one step of the check gives the fault of one token, or goes on behind it.
* `faultless_iff` : no fault at any token, said of neighbours and prefixes.
* `findFault_first` : the check gives the first fault.
-/

namespace Calculator

set_option autoImplicit false

namespace Expr

def isArithmetic (t : Expr) : Bool := t.operator?.any Operator.isArithmetic

def isOpening (t : Expr) : Bool := t.operator? == some .opening

def isClosing (t : Expr) : Bool := t.operator? == some .closing

theorem not_isOpening_of_isClosing {t : Expr} (h : t.isClosing) : t.isOpening = false := by
  have hop : t.operator? = some .closing := by simpa [isClosing] using h
  simp [isOpening, hop]

end Expr

/-- The token `u` cannot stand directly behind `t`: it lacks an operand, or closes parentheses that hold nothing. -/
def clashes (t u : Expr) : Bool :=
  u.isArithmetic && (t.isArithmetic || t.isOpening) || u.isClosing && t.isOpening

def openings (ts : List Expr) : Nat := ts.countP Expr.isOpening

def closings (ts : List Expr) : Nat := ts.countP Expr.isClosing

/-- The fault of the token `t` behind the tokens `before`: it clashes with its neighbour, or else closes a parenthesis
where none is open. -/
def faultAt (before : List Expr) (t : Expr) : Option ParsingFault :=
  if before.getLast?.any (clashes · t) then some .unexpectedToken
  else if t.isClosing ∧ openings before ≤ closings before then some .unmatchedParenthesis
  else none

/-- Behind the tokens `before`, no token of `ts` has a fault. -/
def Faultless (before ts : List Expr) : Prop := ∀ left t right, ts = left ++ t :: right → faultAt (before ++ left) t = none

/-- Behind the tokens `before`, the leftmost token of `ts` that has a fault has the fault `k`. -/
def FirstFault (before ts : List Expr) (k : ParsingFault) : Prop :=
  ∃ left t right, ts = left ++ t :: right ∧ Faultless before left ∧ faultAt (before ++ left) t = some k

section Places

variable {before ts : List Expr} {t : Expr} {k : ParsingFault}

theorem openings_concat (ts : List Expr) (t : Expr) :
    openings (ts ++ [t]) = openings ts + if t.isOpening then 1 else 0 := by
  simp [openings, List.countP_append, List.countP_singleton]

theorem closings_concat (ts : List Expr) (t : Expr) :
    closings (ts ++ [t]) = closings ts + if t.isClosing then 1 else 0 := by
  simp [closings, List.countP_append, List.countP_singleton]

theorem faultless_nil : Faultless before [] := by
  intro left t right h
  simp at h

theorem faultless_cons : Faultless before (t :: ts) ↔ faultAt before t = none ∧ Faultless (before ++ [t]) ts := by
  constructor
  · intro h
    refine ⟨by simpa using h [] t ts rfl, ?_⟩
    rintro left u right rfl
    simpa using h (t :: left) u right rfl
  · rintro ⟨ht, h⟩ left u right hsplit
    cases left with
    | nil =>
      obtain ⟨rfl, rfl⟩ := List.cons.inj hsplit
      simpa using ht
    | cons v left =>
      obtain ⟨rfl, rfl⟩ := List.cons.inj hsplit
      simpa using h left u right rfl

theorem not_firstFault_nil : ¬FirstFault before [] k := by
  rintro ⟨left, t, right, hsplit, -⟩
  simp at hsplit

theorem firstFault_cons : FirstFault before (t :: ts) k ↔
    faultAt before t = some k ∨ faultAt before t = none ∧ FirstFault (before ++ [t]) ts k := by
  constructor
  · rintro ⟨left, u, right, hsplit, hleft, hu⟩
    cases left with
    | nil =>
      obtain ⟨rfl, rfl⟩ := List.cons.inj hsplit
      exact .inl (by simpa using hu)
    | cons v left =>
      obtain ⟨rfl, rfl⟩ := List.cons.inj hsplit
      obtain ⟨ht, hleft⟩ := faultless_cons.1 hleft
      exact .inr ⟨ht, left, u, right, rfl, hleft, by simpa using hu⟩
  · rintro (ht | ⟨ht, left, u, right, rfl, hleft, hu⟩)
    · exact ⟨[], t, ts, rfl, faultless_nil, by simpa using ht⟩
    · exact ⟨t :: left, u, right, rfl, faultless_cons.2 ⟨ht, hleft⟩, by simpa using hu⟩

theorem faultAt_eq_none : faultAt before t = none ↔
    (∀ p ∈ before.getLast?, clashes p t = false) ∧ (t.isClosing → closings before < openings before) := by
  have hneighbour : before.getLast?.any (clashes · t) = false ↔ ∀ p ∈ before.getLast?, clashes p t = false := by
    cases before.getLast? <;> simp
  rw [← hneighbour, ← not_iff_not]
  unfold faultAt
  split
  · simp [*]
  · split <;> simp [*]

/-- Without faults no more parentheses are closed than opened. -/
theorem closings_le_of_faultAt (h : faultAt before t = none) (hbefore : closings before ≤ openings before) :
    closings (before ++ [t]) ≤ openings (before ++ [t]) := by
  have hclosing := (faultAt_eq_none.1 h).2
  rw [closings_concat, openings_concat]
  by_cases ht : t.isClosing
  · have := hclosing ht
    simp [ht]
    omega
  · simp [ht]
    omega

/-! ## The memory of the check -/

/-- The operator that the check remembers behind the tokens `before`. -/
def lastOperator (before : List Expr) : Option Operator := before.getLast?.bind Expr.operator?

theorem lastOperator_concat (before : List Expr) (t : Expr) : lastOperator (before ++ [t]) = t.operator? := by
  simp [lastOperator]

theorem lacksOperand_lastOperator (before : List Expr) :
    lacksOperand (lastOperator before) = before.getLast?.any fun p => p.isArithmetic || p.isOpening := by
  unfold lacksOperand lastOperator
  cases before.getLast? with
  | none => rfl
  | some p => cases hp : p.operator? <;> simp [Expr.isArithmetic, Expr.isOpening, hp]

theorem lastOperator_eq_opening (before : List Expr) :
    lastOperator before = some .opening ↔ before.getLast?.any Expr.isOpening := by
  unfold lastOperator
  cases before.getLast? <;> simp [Expr.isOpening]

theorem faultAt_arithmetic (ht : t.isArithmetic) (hclosing : t.isClosing = false) :
    faultAt before t = if lacksOperand (lastOperator before) then some .unexpectedToken else none := by
  rw [lacksOperand_lastOperator]
  simp [faultAt, clashes, ht, hclosing]

theorem faultAt_closing (ht : t.isClosing) (harithmetic : t.isArithmetic = false) :
    faultAt before t =
      if lastOperator before = some .opening then some .unexpectedToken
      else if openings before ≤ closings before then some .unmatchedParenthesis
      else none := by
  simp only [lastOperator_eq_opening]
  simp [faultAt, clashes, ht, harithmetic]

theorem faultAt_other (harithmetic : t.isArithmetic = false) (hclosing : t.isClosing = false) :
    faultAt before t = none := by
  unfold faultAt clashes
  cases before.getLast? <;> simp [harithmetic, hclosing]

/-- A step of the check: the fault of a token ends it, and otherwise it goes on behind the token. -/
theorem findFaultFrom_cons (h : closings before ≤ openings before) :
    findFaultFrom (openings before - closings before) (lastOperator before) (t :: ts) =
      (faultAt before t).or (findFaultFrom (openings (before ++ [t]) - closings (before ++ [t]))
        (lastOperator (before ++ [t])) ts) := by
  rw [findFaultFrom, lastOperator_concat, openings_concat, closings_concat]
  cases hop : t.operator? with
  | none =>
    have harithmetic : t.isArithmetic = false := by simp [Expr.isArithmetic, hop]
    have hopening : t.isOpening = false := by simp [Expr.isOpening, hop]
    have hclosing : t.isClosing = false := by simp [Expr.isClosing, hop]
    simp [faultAt_other harithmetic hclosing, hopening, hclosing]
  | some op =>
    have harithmetic : t.isArithmetic = op.isArithmetic := by simp [Expr.isArithmetic, hop]
    have hopening : t.isOpening = (op == .opening) := by simp [Expr.isOpening, hop]
    have hclosing : t.isClosing = (op == .closing) := by simp [Expr.isClosing, hop]
    rw [hopening, hclosing]
    cases op with
    | opening =>
      have hpending : openings before + 1 - closings before = openings before - closings before + 1 := by omega
      simp [faultAt_other harithmetic hclosing, hpending]
    | closing =>
      have hpending : openings before - closings before = 0 ↔ openings before ≤ closings before := by omega
      have hrest : openings before - closings before - 1 = openings before - (closings before + 1) := by omega
      simp only [faultAt_closing hclosing harithmetic, hpending, hrest]
      split
      · rfl
      · split <;> rfl
    | add | subtract | multiply | divide =>
      rw [faultAt_arithmetic harithmetic hclosing]
      simp [Operator.isArithmetic]
      split <;> rfl
    | _ => simp [faultAt_other harithmetic hclosing, Operator.isArithmetic]

/-- The check behind the tokens `before`: the first fault, or that of the parentheses that are open at the end. -/
theorem findFaultFrom_eq_some_iff (h : closings before ≤ openings before) :
    findFaultFrom (openings before - closings before) (lastOperator before) ts = some k ↔
      FirstFault before ts k ∨
        Faultless before ts ∧ closings (before ++ ts) < openings (before ++ ts) ∧ k = .unmatchedParenthesis := by
  induction ts generalizing before with
  | nil =>
    have hpending : openings before - closings before = 0 ↔ ¬closings before < openings before := by omega
    rw [findFaultFrom, List.append_nil]
    by_cases hopen : closings before < openings before <;>
      simp [hpending, hopen, not_firstFault_nil, faultless_nil, eq_comm]
  | cons t ts ih =>
    rw [findFaultFrom_cons h, firstFault_cons, faultless_cons]
    cases ht : faultAt before t with
    | some k' => simp
    | none =>
      rw [Option.none_or, ih (closings_le_of_faultAt ht h)]
      simp

theorem findFaultFrom_eq_none_iff (h : closings before ≤ openings before) :
    findFaultFrom (openings before - closings before) (lastOperator before) ts = none ↔
      Faultless before ts ∧ closings (before ++ ts) = openings (before ++ ts) := by
  induction ts generalizing before with
  | nil =>
    have hpending : openings before - closings before = 0 ↔ closings before = openings before := by omega
    rw [findFaultFrom, List.append_nil]
    simp [hpending, faultless_nil]
  | cons t ts ih =>
    rw [findFaultFrom_cons h, faultless_cons]
    cases ht : faultAt before t with
    | some k' => simp
    | none =>
      rw [Option.none_or, ih (closings_le_of_faultAt ht h)]
      simp

/-! ## The whole sequence -/

/-- No token has a fault if no neighbours clash and no prefix closes more parentheses than it opens. -/
theorem faultless_iff : Faultless [] ts ↔
    (∀ left t u right, ts = left ++ t :: u :: right → clashes t u = false) ∧
      ∀ p, p <+: ts → closings p ≤ openings p := by
  constructor
  · intro h
    constructor
    · rintro left t u right rfl
      have hu := h (left ++ [t]) u right (by simp)
      exact (faultAt_eq_none.1 hu).1 t (by simp)
    · intro p hp
      induction p using List.reverseRecOn with
      | nil => exact Nat.le_refl 0
      | append_singleton p t ih =>
        obtain ⟨right, rfl⟩ := hp
        have ht := h p t right (by simp)
        exact closings_le_of_faultAt ht (ih ⟨t :: right, by simp⟩)
  · rintro ⟨hneighbours, hprefixes⟩ left t right rfl
    rw [List.nil_append]
    refine faultAt_eq_none.2 ⟨?_, ?_⟩
    · intro p hp
      obtain ⟨left, rfl⟩ := List.getLast?_eq_some_iff.1 hp
      exact hneighbours left p t right (by simp)
    · intro ht
      have hle := hprefixes (left ++ [t]) ⟨right, by simp⟩
      rw [closings_concat, openings_concat] at hle
      simp [ht, Expr.not_isOpening_of_isClosing ht] at hle
      omega

end Places

/-- **The check finds the first fault.** -/
theorem findFault_first (ts : List Expr) :
    (findFault ts = none ↔
      (∀ left t u right, ts = left ++ t :: u :: right → clashes t u = false) ∧
        (∀ p, p <+: ts → closings p ≤ openings p) ∧ closings ts = openings ts) ∧
    ∀ k, findFault ts = some k ↔
      FirstFault [] ts k ∨ Faultless [] ts ∧ closings ts < openings ts ∧ k = .unmatchedParenthesis := by
  have hstart : closings [] ≤ openings [] := Nat.le_refl 0
  constructor
  · rw [← and_assoc, ← faultless_iff]
    exact findFaultFrom_eq_none_iff hstart
  · intro k
    exact findFaultFrom_eq_some_iff hstart

/-- The parenthesis without a partner comes first, although two operators clash behind it. -/
example : findFault [.bare .pi, .bare .closing, .bare .add, .bare .multiply] = some .unmatchedParenthesis := by decide

end Calculator
