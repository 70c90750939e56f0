import Calculator.Proofs.ReadBack
import Calculator.Proofs.SignOfZero
import Calculator.Proofs.TextFaults
import Calculator.Proofs.Understanding

/-!
# Graphs and values

* `MapsTo`, `Range.IsSample`, `HasFiniteValue` : a point of a graph, a sampled `x`, a value of a text.
* `OnCurve` : the point of a tree, up to the signs of zeros.
* `mapsTo_putFirst`, `mapsTo_pointsOnto` : what one sample adds to a graph, and what all of them do.
* `forall_mem_pointsOnto` : what holds of the samples with a finite value, and of these values, holds of the points.
* `graph_maps_values` : a graph maps the samples with a finite value to these values, and a calculation shows the one
  at zero.
-/

namespace Calculator

set_option autoImplicit false

open Calculator.Number

def MapsTo (points : List Point) (x y : Float) : Prop := ∃ p ∈ points, SameNumber p.x x ∧ SameNumber p.y y

/-- The range is sampled at `x`. -/
def Range.IsSample (r : Range) (x : Float) : Prop :=
  ∃ (n : Int) (i : ℕ), r.sampleCount = .ok n ∧ i ≤ n ∧ SameNumber (r.sample i) x

/-- The text has the finite value `y` at `x`. -/
def HasFiniteValue (s : Setup) (text : Text) (x y : Float) : Prop :=
  ∃ v, s.evaluate x text = .ok (.ok (some v)) ∧ v.isFinite ∧ SameNumber v y

/-! ## Samples -/

section Samples

variable {s : Setup} {r : Range} {tree : Expr} {points later : List Point} {p q : Point} {x x' y y' : Float}

theorem mapsTo_iff : MapsTo points x y ↔ ∃ p ∈ points, unsigned p.x = unsigned x ∧ unsigned p.y = unsigned y := by
  simp only [MapsTo, sameNumber_iff]

theorem mapsTo_cons : MapsTo (p :: points) x y ↔
    unsigned p.x = unsigned x ∧ unsigned p.y = unsigned y ∨ MapsTo points x y := by
  simp only [mapsTo_iff, List.exists_mem_cons_iff]

theorem isFinite_congr (h : unsigned x = unsigned x') : x.isFinite = x'.isFinite :=
  congr_unsigned (f := Float.isFinite) rfl h

/-- Finite values are the same at numbers that are the same. -/
theorem unsigned_finiteValue? (h : unsigned x = unsigned x') :
    (s.finiteValue? x tree).map unsigned = (s.finiteValue? x' tree).map unsigned := by
  unfold Setup.finiteValue? Setup.value?
  obtain ⟨e, hu, hv⟩ | ⟨u?, v?, hu, hv, hsame⟩ := (tree.sameOutcome_evaluate s.angleMode h).error_or_ok
  · rw [hu, hv]
  · rw [hu, hv]
    show (u?.filter Float.isFinite).map unsigned = (v?.filter Float.isFinite).map unsigned
    rw [← Option.bind_guard, ← Option.bind_guard]
    refine map_bind_congr hsame fun u v huv => ?_
    rw [Option.guard, Option.guard, isFinite_congr huv]
    split
    · exact congrArg some huv
    · rfl

/-- The point of the tree at `x` has the height `y`. -/
def OnCurve (s : Setup) (tree : Expr) (x y : Float) : Prop :=
  (s.finiteValue? x tree).map unsigned = some (unsigned y)

theorem OnCurve.congr (h : OnCurve s tree x y) (hx : unsigned x = unsigned x') (hy : unsigned y = unsigned y') :
    OnCurve s tree x' y' := by
  rw [OnCurve, ← unsigned_finiteValue? hx, h, hy]

theorem OnCurve.unique (h : OnCurve s tree x y) (h' : OnCurve s tree x' y') (hx : unsigned x = unsigned x') :
    unsigned y = unsigned y' :=
  Option.some.inj ((h.congr hx rfl).symm.trans h')

theorem onCurve_of_finiteValue? (h : s.finiteValue? x tree = some y) : OnCurve s tree x y := by
  rw [OnCurve, h, Option.map_some]

theorem mapsTo_putFirst (hp : OnCurve s tree p.x p.y) (hlater : ∀ q ∈ later, OnCurve s tree q.x q.y) :
    MapsTo (putFirst p later) x y ↔ unsigned p.x = unsigned x ∧ unsigned p.y = unsigned y ∨ MapsTo later x y := by
  cases later with
  | nil => exact mapsTo_cons
  | cons q rest =>
    rw [putFirst]
    split
    · rename_i hsame
      have hx : unsigned p.x = unsigned q.x := sameNumber_iff.1 (.inr hsame)
      have hy : unsigned p.y = unsigned q.y := hp.unique (hlater q (List.mem_cons_self ..)) hx
      rw [mapsTo_cons, mapsTo_cons, hx, hy]
      tauto
    · exact mapsTo_cons

theorem onCurve_putFirst (hp : OnCurve s tree p.x p.y) (hlater : ∀ q ∈ later, OnCurve s tree q.x q.y) :
    ∀ q ∈ putFirst p later, OnCurve s tree q.x q.y := by
  cases later with
  | nil =>
    intro q hq
    rw [List.mem_singleton.1 hq]
    exact hp
  | cons q rest =>
    have hrest : ∀ t ∈ rest, OnCurve s tree t.x t.y := fun t ht => hlater t (List.mem_cons_of_mem _ ht)
    rw [putFirst]
    split
    · rename_i hsame
      have hx : unsigned q.x = unsigned p.x := (sameNumber_iff.1 (.inr hsame)).symm
      exact List.forall_mem_cons.2 ⟨(hlater q (List.mem_cons_self ..)).congr hx rfl, hrest⟩
    · exact List.forall_mem_cons.2 ⟨hp, hlater⟩

/-- The points of the first samples: those with a finite value, at this height. -/
theorem mapsTo_pointsOnto (n : ℕ) (hlater : ∀ q ∈ later, OnCurve s tree q.x q.y) :
    MapsTo (pointsOnto s r tree n later) x y ↔
      (∃ i < n, unsigned (r.sample i) = unsigned x) ∧ OnCurve s tree x y ∨ MapsTo later x y := by
  induction n generalizing later with
  | zero => simp [pointsOnto]
  | succ n ih =>
    rw [pointsOnto, Nat.exists_lt_succ_right]
    cases hv : s.finiteValue? (r.sample n) tree with
    | none =>
      -- the last sample has no value, and so none of the numbers that are the same
      have hnone : ¬(unsigned (r.sample n) = unsigned x ∧ OnCurve s tree x y) := by
        rintro ⟨hx, h⟩
        rw [OnCurve, ← unsigned_finiteValue? hx, hv] at h
        cases h
      rw [or_and_right, or_assoc, iff_false_intro hnone, false_or]
      exact ih hlater
    | some v =>
      have hpoint := onCurve_of_finiteValue? hv
      have hlast : unsigned (r.sample n) = unsigned x ∧ unsigned v = unsigned y ↔
          unsigned (r.sample n) = unsigned x ∧ OnCurve s tree x y :=
        and_congr_right fun hx => ⟨fun hy => hpoint.congr hx hy, fun h => hpoint.unique h hx⟩
      rw [or_and_right, or_assoc, ← hlast, ← mapsTo_putFirst (p := ⟨r.sample n, v⟩) hpoint hlater]
      exact ih (onCurve_putFirst hpoint hlater)

/-- A point that takes the place of another one has the `y` of this. -/
theorem forall_mem_putFirst {P Q : Float → Prop} (hp : P p.x ∧ Q p.y) (hlater : ∀ q ∈ later, P q.x ∧ Q q.y) :
    ∀ q ∈ putFirst p later, P q.x ∧ Q q.y := by
  cases later with
  | nil => exact List.forall_mem_singleton.2 hp
  | cons q rest =>
    obtain ⟨hq, hrest⟩ := List.forall_mem_cons.1 hlater
    rw [putFirst]
    split
    · exact List.forall_mem_cons.2 ⟨⟨hp.1, hq.2⟩, hrest⟩
    · exact List.forall_mem_cons.2 ⟨hp, hlater⟩

theorem forall_mem_pointsOnto {P Q : Float → Prop} {n : ℕ}
    (h : ∀ i < n, ∀ v, s.finiteValue? (r.sample i) tree = some v → P (r.sample i) ∧ Q v)
    (hlater : ∀ q ∈ later, P q.x ∧ Q q.y) : ∀ q ∈ pointsOnto s r tree n later, P q.x ∧ Q q.y := by
  induction n generalizing later with
  | zero => exact hlater
  | succ n ih =>
    have hbefore := fun i hi => h i (Nat.lt_succ_of_lt hi)
    rw [pointsOnto]
    cases hv : s.finiteValue? (r.sample n) tree with
    | none => exact ih hbefore hlater
    | some v => exact ih hbefore (forall_mem_putFirst (h n n.lt_succ_self v hv) hlater)

end Samples

/-! ## Texts -/

section Texts

variable {s : Setup} {r : Range} {answer problem text : Text} {tree : Expr} {x y : Float} {n : Int}

theorem finiteValue?_eq_some {v : Float} :
    s.finiteValue? x tree = some v ↔ tree.evaluate x s.angleMode = .ok (some v) ∧ v.isFinite := by
  rw [Setup.finiteValue?, Option.filter_eq_some_iff, Setup.value?]
  cases tree.evaluate x s.angleMode <;> simp

theorem hasFiniteValue_iff (h : s.treeOf text = .ok tree) : HasFiniteValue s text x y ↔ OnCurve s tree x y := by
  rw [OnCurve, Option.map_eq_some_iff]
  refine exists_congr fun v => ?_
  rw [sameNumber_iff, finiteValue?_eq_some, Setup.evaluate_eq_ok, h, and_assoc]
  constructor
  · rintro ⟨⟨e, he, hv⟩, hfinite⟩
    obtain rfl := Except.ok.inj he
    exact ⟨hv, hfinite⟩
  · rintro ⟨hv, hfinite⟩
    exact ⟨⟨tree, rfl, hv⟩, hfinite⟩

theorem not_hasFiniteValue_of_error {e : TokenError} (h : s.treeOf text = .error e) : ¬HasFiniteValue s text x y := by
  rintro ⟨v, hv, -⟩
  obtain ⟨tree, htree, -⟩ := Setup.evaluate_eq_ok.1 hv
  cases h.symm.trans htree

theorem not_onCurve_of_isFailure (h : tree.isFailure) : ¬OnCurve s tree x y := by
  cases tree with
  | failure k => exact nofun
  | _ => cases h

/-- A text has points only if it has a tree, and this is no failure. -/
theorem graph_maps_iff (s : Setup) (answer problem : Text) (hn : r.sampleCount = .ok n) :
    ∃ points, graph s r answer problem = .ok points ∧
      ∀ x y, MapsTo points x y ↔ r.IsSample x ∧ HasFiniteValue s (substituteAnswer answer problem) x y := by
  have hempty : ∀ x y, MapsTo [] x y ↔ False := fun x y => by simp [MapsTo]
  cases htree : s.treeOf (substituteAnswer answer problem) with
  | error e =>
    refine ⟨[], by rw [graph, htree], fun x y => ?_⟩
    rw [hempty]
    exact (iff_false_intro fun h => not_hasFiniteValue_of_error htree h.2).symm
  | ok tree =>
    cases hfailure : tree.isFailure with
    | true =>
      refine ⟨[], by simp only [graph, htree, hfailure, if_true], fun x y => ?_⟩
      rw [hempty, hasFiniteValue_iff htree]
      exact (iff_false_intro fun h => not_onCurve_of_isFailure hfailure h.2).symm
    | false =>
      refine ⟨pointsOnto s r tree (n + 1).toNat [], ?_, fun x y => ?_⟩
      · simp only [graph, htree, hfailure, samplePoints, hn]
        rfl
      · rw [mapsTo_pointsOnto _ (by simp), hempty, or_false, hasFiniteValue_iff htree]
        refine and_congr_left fun _ => ?_
        constructor
        · rintro ⟨i, hi, hx⟩
          exact ⟨n, i, hn, by omega, sameNumber_iff.2 hx⟩
        · rintro ⟨n', i, hn', hi, hx⟩
          obtain rfl := Except.ok.inj (hn.symm.trans hn')
          exact ⟨i, by omega, sameNumber_iff.1 hx⟩

end Texts

/-! ## Calculations -/

def failureTexts : List Text :=
  [ParsingFault.unexpectedToken.text, ParsingFault.unmatchedParenthesis.text, failureText, noResultText]

section Calculations

variable {s : Setup} {answer problem : Text}

theorem calculate_of_value {y : Float} (h : HasFiniteValue s (substituteAnswer answer problem) 0.0 y) :
    calculate s answer problem = Display.text y := by
  obtain ⟨v, hv, hfinite, hsame⟩ := h
  obtain ⟨tree, htree, hvalue⟩ := Setup.evaluate_eq_ok.1 hv
  have hfailure : tree.isFailure = false := by
    cases tree with
    | failure k => cases hvalue
    | _ => rfl
  have hshown := (shownText_of_tree htree).trans (shownValue_of_evaluate hfailure hvalue hfinite)
  have hnumeral := isFiniteNumeral_text hfinite
  have hy : Display.text v = Display.text y :=
    congr_unsigned (f := Display.text) rfl (sameNumber_iff.1 hsame)
  rw [calculate_eq, if_neg, hshown, hy]
  rintro ⟨hrepeat, hnot⟩
  rw [← hrepeat, hshown, hnumeral] at hnot
  cases hnot

/-- What is shown of a text: that it failed, its finite value, or itself. -/
theorem shownText_cases (s : Setup) (text : Text) : shownText s text ∈ failureTexts ∨
    (∃ tree v, s.treeOf text = .ok tree ∧ s.finiteValue? 0.0 tree = some v ∧ shownText s text = Display.text v) ∨
    shownText s text = text := by
  cases htree : s.treeOf text with
  | error e =>
    left
    rw [shownText, htree]
    rcases isTextual_of_treeOf htree with hk | hk <;> simp [TokenError.kind, hk, failureTexts]
  | ok tree =>
    rw [shownText_of_tree htree, shownValue]
    split
    · left
      simp [failureTexts]
    · cases hv : s.finiteValue? 0.0 tree with
      | none => exact .inr (.inr rfl)
      | some v => exact .inr (.inl ⟨tree, v, rfl, hv, rfl⟩)

theorem calculate_of_no_value (h : ∀ y, ¬HasFiniteValue s (substituteAnswer answer problem) 0.0 y) :
    calculate s answer problem ∈ failureTexts ∨
      calculate s answer problem = substituteAnswer answer problem := by
  rw [calculate_eq]
  split
  · simp [failureTexts]
  · rcases shownText_cases s (substituteAnswer answer problem) with hshown | ⟨tree, v, htree, hv, -⟩ | hshown
    · exact .inl hshown
    · exact absurd ((hasFiniteValue_iff htree).2 (onCurve_of_finiteValue? hv)) (h v)
    · exact .inr hshown

end Calculations

theorem isSample_standard : Range.standard.IsSample 0.0 :=
  ⟨standardSteps, 10000, sampleCount_standard, by decide, .inr (by decide +kernel)⟩

/-- **Graphs, values and results agree.** Over any range that can be sampled a graph maps a number to a value if the
number is sampled and the text has this finite value there; a text that cannot be understood has none. The standard
range is sampled at zero, and a calculation shows the value that the graph has there, or a failure, or the text itself. -/
theorem graph_maps_values (s : Setup) (answer problem : Text) :
    (∀ r n, Range.sampleCount r = .ok n → ∃ points, graph s r answer problem = .ok points ∧
      ∀ x y, MapsTo points x y ↔ r.IsSample x ∧ HasFiniteValue s (substituteAnswer answer problem) x y) ∧
    Range.standard.IsSample 0.0 ∧
    ∃ points, graph s .standard answer problem = .ok points ∧
      (∀ y, MapsTo points 0.0 y → calculate s answer problem = Display.text y) ∧
      ((∀ y, ¬MapsTo points 0.0 y) →
        calculate s answer problem ∈ failureTexts ∨
          calculate s answer problem = substituteAnswer answer problem) := by
  refine ⟨fun r n => graph_maps_iff s answer problem, isSample_standard, ?_⟩
  obtain ⟨points, hpoints, hmaps⟩ := graph_maps_iff s answer problem sampleCount_standard
  refine ⟨points, hpoints, fun y hy => calculate_of_value ((hmaps 0.0 y).1 hy).2, fun hnone => ?_⟩
  exact calculate_of_no_value fun y hy => hnone y ((hmaps 0.0 y).2 ⟨isSample_standard, hy⟩)

/-- The graphs of `2⋅x`, which is zero at zero, and of `1÷x`, which is undefined there. -/
theorem graph_maps_twice_and_inverse :
    (∃ points, graph ⟨.radians, true, 64⟩ ⟨0.0, 1.0, 0.5⟩ "2".toList "ans⋅x".toList = .ok points ∧
      MapsTo points 0.5 1.0) ∧
    calculate ⟨.radians, true, 64⟩ "2".toList "ans⋅x".toList = "0".toList ∧
    (calculate ⟨.radians, true, 64⟩ [] "1÷x".toList ∈ failureTexts ∨
      calculate ⟨.radians, true, 64⟩ [] "1÷x".toList = "1÷x".toList) := by
  refine ⟨?_, ?_, ?_⟩
  · obtain ⟨points, hpoints, hmaps⟩ := (graph_maps_values ⟨.radians, true, 64⟩ "2".toList "ans⋅x".toList).1
      ⟨0.0, 1.0, 0.5⟩ 2 (by decide +kernel)
    have hsample : Range.IsSample ⟨0.0, 1.0, 0.5⟩ 0.5 :=
      ⟨2, 1, by decide +kernel, by decide, .inr (by decide +kernel)⟩
    exact ⟨points, hpoints, (hmaps 0.5 1.0).2 ⟨hsample, 1.0, by decide +kernel, by decide +kernel, .inl rfl⟩⟩
  · obtain ⟨hgraph, hsample, points, hpoints, hvalue, -⟩ :=
      graph_maps_values ⟨.radians, true, 64⟩ "2".toList "ans⋅x".toList
    obtain ⟨points', hpoints', hmaps⟩ := hgraph .standard standardSteps sampleCount_standard
    obtain rfl := Except.ok.inj (hpoints.symm.trans hpoints')
    have hzero : Display.text 0.0 = "0".toList := by decide +kernel
    exact (hvalue 0.0 ((hmaps 0.0 0.0).2 ⟨hsample, 0.0, by decide +kernel, by decide +kernel, .inl rfl⟩)).trans hzero
  · obtain ⟨hgraph, -, points, hpoints, -, hnone⟩ := graph_maps_values ⟨.radians, true, 64⟩ [] "1÷x".toList
    obtain ⟨points', hpoints', hmaps⟩ := hgraph .standard standardSteps sampleCount_standard
    obtain rfl := Except.ok.inj (hpoints.symm.trans hpoints')
    refine hnone fun y hy => ?_
    obtain ⟨v, hv, -⟩ := ((hmaps 0.0 y).1 hy).2
    have hundefined : Setup.evaluate ⟨.radians, true, 64⟩ 0.0 (substituteAnswer [] "1÷x".toList) = .ok (.ok none) := by
      decide +kernel
    cases hundefined.symm.trans hv

end Calculator
