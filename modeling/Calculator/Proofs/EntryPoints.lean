import Calculator.Graph
import Calculator.Proofs.Conversions
import Calculator.Proofs.Plotting

/-!
# Calculations and graphs never fail

Calculations and graphs made of steps that may fail: conversions, evaluations, sampling. They give what the calculations
and graphs give, for every text, previous answer and nesting limit.

* `attemptCalculation_eq` : a calculation gives its text.
* `attemptGraph_eq` : a graph gives its points, if the number of its steps is finite.
* `calculate_cases` : what a calculation shows is the text of a failure, or writes a finite number.
* `entry_points_never_fail` : all of it, with tokens and values.
-/

namespace Calculator

set_option autoImplicit false

open Calculator.Number

/-! ## Steps that may fail -/

def Setup.attemptFinite (s : Setup) (x : Float) (tree : Expr) : Except Abort (Option Float) :=
  return (← tree.attempt x s.angleMode).filter Float.isFinite

def Setup.attemptTree (s : Setup) (text : Text) : Except Failure Expr := Calculator.attemptTree (!s.graphing) s.maxDepth text

/-- What a text gives, a mere repetition of the text included. Faults of the text are shown, and no others. -/
def attemptShown (s : Setup) (text : Text) : Except Abort Text :=
  match s.attemptTree text with
  | .error (.parsing e) => .ok e.kind.text
  | .error (.abort a) => .error a
  | .ok tree =>
    if tree.isFailure then .ok failureText
    else do
      match ← s.attemptFinite 0.0 tree with
      | some v => Display.attempt v
      | none => return text

def attemptCalculation (s : Setup) (answer problem : Text) : Except Abort Text := do
  let text := substituteAnswer answer problem
  let shown ← attemptShown s text
  if shown = text then
    if ← attemptIsFiniteNumeral text then return shown else return noResultText
  else return shown

def Range.attemptSample (r : Range) (i : Nat) : Except Abort Float := do
  attemptRoundPlaces Range.places (r.start + (← ofWhole i) * r.step)

def attemptPointsOnto (s : Setup) (r : Range) (tree : Expr) : (n : Nat) → List Point → Except Abort (List Point)
  | 0, later => .ok later
  | n + 1, later => do
    let x ← r.attemptSample n
    match ← s.attemptFinite x tree with
    | some y => attemptPointsOnto s r tree n (putFirst ⟨x, y⟩ later)
    | none => attemptPointsOnto s r tree n later

def attemptGraph (s : Setup) (r : Range) (answer problem : Text) : Except Abort (List Point) :=
  match s.attemptTree (substituteAnswer answer problem) with
  | .error (.parsing _) => .ok []
  | .error (.abort a) => .error a
  | .ok tree =>
    if tree.isFailure then .ok []
    else do
      let n ← r.sampleCount.mapError .unexpected
      attemptPointsOnto s r tree (n + 1).toNat []

/-! ## Calculations -/

section Calculations

variable {s : Setup} {text : Text} {tree : Expr} {x : Float}

theorem attemptFinite_eq (h : tree.wellFormed) : s.attemptFinite x tree = .ok (s.finiteValue? x tree) := by
  obtain ⟨v?, hattempt, hvalue⟩ : ∃ v?, tree.attempt x s.angleMode = .ok v? ∧ tree.evaluate x s.angleMode = .ok v? :=
    exists_attempt h
  rw [Setup.attemptFinite, Setup.finiteValue?, Setup.value?, hattempt, hvalue]
  rfl

theorem attemptTree_of_error {e : TokenError} (h : s.treeOf text = .error e) :
    s.attemptTree text = .error (.parsing e) := by
  rw [Setup.attemptTree, attemptTree_eq, ← Setup.treeOf, h]
  rfl

theorem attemptTree_of_tree (h : s.treeOf text = .ok tree) : s.attemptTree text = .ok tree := by
  rw [Setup.attemptTree, attemptTree_eq, ← Setup.treeOf, h]
  rfl

theorem attemptShown_eq (s : Setup) (text : Text) : attemptShown s text = .ok (shownText s text) := by
  unfold attemptShown shownText
  cases htree : s.treeOf text with
  | error e => rw [attemptTree_of_error htree]
  | ok tree =>
    rw [attemptTree_of_tree htree]
    simp only [shownValue, attemptFinite_eq (wellFormed_treeOf htree)]
    split
    · rfl
    · cases s.finiteValue? 0.0 tree with
      | none => rfl
      | some v => exact Display.attempt_eq_text v

theorem attemptCalculation_eq (s : Setup) (answer problem : Text) :
    attemptCalculation s answer problem = .ok (calculate s answer problem) := by
  rw [calculate_eq, attemptCalculation]
  simp only [attemptShown_eq, attemptIsFiniteNumeral_eq]
  show (if shownText s _ = _ then _ else _) = _
  by_cases hrepeat : shownText s (substituteAnswer answer problem) = substituteAnswer answer problem
  · cases hnumeral : isFiniteNumeral (substituteAnswer answer problem) <;> simp [hrepeat] <;> rfl
  · simp [hrepeat]
    rfl

theorem calculate_cases (s : Setup) (answer problem : Text) :
    calculate s answer problem ∈ failureTexts ∨ isFiniteNumeral (calculate s answer problem) := by
  rw [calculate_eq]
  split
  · left
    simp [failureTexts]
  · rename_i hkept
    rcases shownText_cases s (substituteAnswer answer problem) with h | ⟨tree, v, -, hv, h⟩ | h
    · exact .inl h
    · right
      rw [h]
      exact isFiniteNumeral_text (finiteValue?_eq_some.1 hv).2
    · right
      rw [h]
      simpa [h] using hkept

end Calculations

/-! ## Graphs -/

section Graphs

variable {s : Setup} {r : Range} {tree : Expr} {n : ℕ} {later : List Point} {answer problem : Text}

theorem attemptSample_eq (h : n ≤ maxNat) : r.attemptSample n = .ok (r.sample n) := by
  rw [Range.attemptSample, ofWhole_eq h]
  exact attemptRoundPlaces_eq ..

theorem attemptPointsOnto_eq (h : tree.wellFormed) (hn : n ≤ maxNat + 1) :
    attemptPointsOnto s r tree n later = .ok (pointsOnto s r tree n later) := by
  induction n generalizing later with
  | zero => rfl
  | succ n ih =>
    rw [attemptPointsOnto, pointsOnto, attemptSample_eq (by omega : n ≤ maxNat)]
    show (s.attemptFinite (r.sample n) tree >>= _) = _
    rw [attemptFinite_eq h]
    cases hv : s.finiteValue? (r.sample n) tree with
    | none => exact ih (by omega)
    | some y => exact ih (by omega)

/-- A finite number of steps, each of which has its `x`. -/
theorem exists_sampleCount (hstep : (r.step == 0.0) = false) (hcount : ((r.stop - r.start) / r.step).isFinite) :
    ∃ n, r.sampleCount = .ok n ∧ (n + 1).toNat ≤ maxNat + 1 := by
  obtain ⟨negative, m, q, hquotient⟩ := isFinite_iff.1 hcount
  refine ⟨nearestInt negative m q, ?_, ?_⟩
  · rw [Range.sampleCount, divide, if_neg (by simp [hstep])]
    show toInt nearestInt _ = _
    rw [toInt, hquotient]
  · have hle := divNearest_le_maxNat (isDouble_of_finite hquotient)
    unfold nearestInt
    dsimp only
    split <;> omega

theorem isFinite_pointsOnto (hlater : ∀ q ∈ later, q.y.isFinite) :
    ∀ q ∈ pointsOnto s r tree n later, q.y.isFinite := by
  have hpoints : ∀ q ∈ pointsOnto s r tree n later, True ∧ q.y.isFinite :=
    forall_mem_pointsOnto (P := fun _ => True) (Q := fun y => y.isFinite)
      (fun _ _ _ hv => ⟨trivial, (finiteValue?_eq_some.1 hv).2⟩) fun q hq => ⟨trivial, hlater q hq⟩
  exact fun q hq => (hpoints q hq).2

theorem attemptGraph_eq (hstep : (r.step == 0.0) = false) (hcount : ((r.stop - r.start) / r.step).isFinite) :
    ∃ points, attemptGraph s r answer problem = .ok points ∧ graph s r answer problem = .ok points ∧
      ∀ p ∈ points, p.y.isFinite := by
  unfold attemptGraph graph
  cases htree : s.treeOf (substituteAnswer answer problem) with
  | error e =>
    rw [attemptTree_of_error htree]
    exact ⟨[], rfl, rfl, nofun⟩
  | ok tree =>
    rw [attemptTree_of_tree htree]
    dsimp only
    split
    · exact ⟨[], rfl, rfl, nofun⟩
    · obtain ⟨n, hn, hle⟩ := exists_sampleCount hstep hcount
      refine ⟨pointsOnto s r tree (n + 1).toNat [], ?_, ?_, isFinite_pointsOnto nofun⟩
      · rw [hn]
        exact attemptPointsOnto_eq (wellFormed_treeOf htree) hle
      · rw [samplePoints, hn]
        rfl

end Graphs

/-- **Whatever the text, nothing fails.** A calculation gives the text that it shows, which is that of a failure or writes
a finite number. A graph over a finite number of steps gives its points, all at finite heights. The tokens of a text, at
any depth, have no failure but the faults of the text, which are of two kinds. A tree made of them is evaluated to its
end. -/
theorem entry_points_never_fail (s : Setup) (answer problem : Text) :
    (attemptCalculation s answer problem = .ok (calculate s answer problem) ∧
      (calculate s answer problem ∈ failureTexts ∨ isFiniteNumeral (calculate s answer problem))) ∧
    (∀ r : Range, (r.step == 0.0) = false → ((r.stop - r.start) / r.step).isFinite →
      ∃ points, attemptGraph s r answer problem = .ok points ∧ graph s r answer problem = .ok points ∧
        ∀ p ∈ points, p.y.isFinite) ∧
    ∀ strict limit depth text,
      attemptTokenize strict limit depth text = (tokenize strict limit depth text).mapError .parsing ∧
      (∀ e, tokenize strict limit depth text = .error e →
        e.kind = .unexpectedToken ∨ e.kind = .unmatchedParenthesis) ∧
      ∀ ts, tokenize strict limit depth text = .ok ts → ∀ limit' x mode,
        ∃ v?, (treeOfTokens limit' ts).attempt x mode = .ok v? ∧ (treeOfTokens limit' ts).evaluate x mode = .ok v? := by
  refine ⟨⟨attemptCalculation_eq s answer problem, calculate_cases s answer problem⟩,
    fun r hstep hcount => attemptGraph_eq hstep hcount, fun strict limit depth text => ⟨?_, fun e he => ?_, ?_⟩⟩
  · exact attemptTokenize_eq strict limit depth text
  · exact isTextual_of_tokensWithin he
  · exact fun ts hts limit' x mode => exists_attempt (wellFormed_treeOfTokens (isProperToken_tokenize hts))

/-- A graph with a pole, a text with two operators in a row, and a root that is undefined. -/
theorem entry_points_never_fail_at_poles :
    (∃ points, graph ⟨.radians, true, 64⟩ ⟨0.0, 1.0, 0.5⟩ [] "1÷x".toList = .ok points ∧ ∀ p ∈ points, p.y.isFinite) ∧
    (∃ e, tokenize true 64 0 "2+⋅3".toList = .error e ∧
      (e.kind = .unexpectedToken ∨ e.kind = .unmatchedParenthesis)) ∧
    ∃ ts v?, tokenize true 64 0 "√x^1E400".toList = .ok ts ∧ (treeOfTokens 64 ts).attempt (-1.0) .radians = .ok v? := by
  refine ⟨?_, ?_, ?_⟩
  · obtain ⟨points, -, hpoints, hfinite⟩ := (entry_points_never_fail ⟨.radians, true, 64⟩ [] "1÷x".toList).2.1
      ⟨0.0, 1.0, 0.5⟩ (by decide +kernel) (by decide +kernel)
    exact ⟨points, hpoints, hfinite⟩
  · have hnone : (tokenize true 64 0 "2+⋅3".toList).toOption.isNone := by decide +kernel
    obtain ⟨-, -, htokens⟩ := entry_points_never_fail ⟨.radians, true, 64⟩ [] []
    cases h : tokenize true 64 0 "2+⋅3".toList with
    | ok ts =>
      rw [h] at hnone
      exact nomatch hnone
    | error e => exact ⟨e, rfl, (htokens true 64 0 _).2.1 e h⟩
  · have hsome : (tokenize true 64 0 "√x^1E400".toList).toOption.any fun ts => ts.length == 4 := by decide +kernel
    obtain ⟨ts, hts, -⟩ := exists_ok_of_any hsome
    obtain ⟨-, -, htokens⟩ := entry_points_never_fail ⟨.radians, true, 64⟩ [] []
    obtain ⟨v?, hattempt, -⟩ := (htokens true 64 0 _).2.2 ts hts 64 (-1.0) .radians
    exact ⟨ts, v?, hts, hattempt⟩

end Calculator
