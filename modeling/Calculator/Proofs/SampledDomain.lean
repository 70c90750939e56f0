import Calculator.Proofs.EntryPoints
import Calculator.Proofs.RoundedArithmetic

/-!
# The domain of a graph

A graph is sampled from the start of its range in steps. How many there are is a rounded quotient, and so the last
sample may lie behind the end of the range.

* `roundPlaces_mono`, `float_add_mono` : numbers rounded to places keep their order, and so do sums.
* `Range.IsOrdered` : a range from a start to an end no smaller, with a finite number of steps (`exists_steps`).
* `sample_le_sample`, `start_le_sample` : the samples are in order, and none lies before the start.
* `forall_pointsOnto` : every point lies at a sample.
* `samples_inside_iff` : no point lies behind the end if the last sample does not.
-/

namespace Calculator

set_option autoImplicit false

open Calculator.Number
open Float.Model (UnpackedFloat)
open Float.Model.Format (binary64)

/-! ## Rounded numbers -/

section Rounded

variable {x y z : Float} {places : ℕ} {a b : Bool} {m n : ℕ} {q p : ℤ}

theorem isRounded_roundPlaces (h : Binary.ofFloat x = .finite a m q) : IsRounded (roundPlaces places x)
    (signed a (divNearest (numerator m q * Nat.pow 10 places) (denominator q) * 10 ^ (-places : ℤ))) :=
  .of_rounds (rounds_roundPlaces places h) (by positivity)

theorem isNearest_places (places m : ℕ) (q : ℤ) : IsNearest (m * 2 ^ q * 10 ^ places)
    (divNearest (numerator m q * Nat.pow 10 places) (denominator q)) := by
  have hnear := isNearest_divNearest (numerator m q * Nat.pow 10 places) (denominator_pos q)
  rwa [Nat.cast_mul, mul_div_right_comm, ← value_eq_div, Nat.pow_eq, Nat.cast_pow, Nat.cast_ofNat] at hnear

theorem ofFloat_roundPlaces_infinite (h : Binary.ofFloat x = .infinite a) :
    Binary.ofFloat (roundPlaces places x) = .infinite a := by
  unfold roundPlaces
  rw [h]
  exact h

theorem roundPlaces_ne_nan (places : ℕ) (hx : Binary.ofFloat x ≠ .nan) :
    Binary.ofFloat (roundPlaces places x) ≠ .nan := by
  cases hparts : Binary.ofFloat x with
  | nan => exact absurd hparts hx
  | infinite a =>
    rw [ofFloat_roundPlaces_infinite hparts]
    exact Binary.noConfusion
  | finite a m q => exact (isRounded_roundPlaces hparts).isNumber

theorem roundPlaces_mono (h : x ≤ y) : roundPlaces places x ≤ roundPlaces places y := by
  obtain ⟨hx, hy, hle⟩ := float_le_iff.1 h
  rcases le_cases h with ⟨hxfinite, hyfinite⟩ | hinfinite
  · obtain ⟨a, m, q, hxparts⟩ := isFinite_iff.1 hxfinite
    obtain ⟨b, n, p, hyparts⟩ := isFinite_iff.1 hyfinite
    rw [exactValue_of_parts hxparts, exactValue_of_parts hyparts] at hle
    have hmono {m n : ℕ} {q p : ℤ} (hle : (m * 2 ^ q : ℚ) ≤ n * 2 ^ p) :
        (divNearest (numerator m q * Nat.pow 10 places) (denominator q) * 10 ^ (-places : ℤ) : ℚ) ≤
          divNearest (numerator n p * Nat.pow 10 places) (denominator p) * 10 ^ (-places : ℤ) := by
      have hnearest := (isNearest_places places m q).mono (isNearest_places places n p) (by gcongr)
      gcongr
    have hzero {m : ℕ} {q : ℤ} (h : (m * 2 ^ q : ℚ) = 0) :
        (divNearest (numerator m q * Nat.pow 10 places) (denominator q) * 10 ^ (-places : ℤ) : ℚ) = 0 := by
      have hnearest : divNearest (numerator m q * Nat.pow 10 places) (denominator q) ≤ 0 :=
        (isNearest_places places m q).le_of_le (by rw [h, zero_mul, Nat.cast_zero])
      rw [Nat.le_zero.1 hnearest, Nat.cast_zero, zero_mul]
    exact (isRounded_roundPlaces hxparts).le_of_le (isRounded_roundPlaces hyparts)
      (signed_le_signed hle (by positivity) (by positivity) (by positivity) (by positivity) hmono hmono hzero hzero)
  · exact le_of_infinite (roundPlaces_ne_nan places hx) (roundPlaces_ne_nan places hy)
      (hinfinite.imp ofFloat_roundPlaces_infinite ofFloat_roundPlaces_infinite)

theorem unpack_of_infinite (h : Binary.ofFloat x = .infinite a) :
    ∃ s, isMinus s = a ∧ x.toModel.unpack = .infinity s := by
  rw [ofFloat_eq_ofUnpacked] at h
  cases hx : x.toModel.unpack with
  | infinity s =>
    rw [hx] at h
    exact ⟨s, Binary.infinite.inj h, rfl⟩
  | _ =>
    rw [hx] at h
    cases h

theorem isPackable_infinity (s : UnpackedFloat.Sign) : IsPackable (.infinity s) := fun _ _ _ h => Binary.noConfusion h

theorem ofFloat_add_infinite (hx : x.isFinite) (hy : Binary.ofFloat y = .infinite a) :
    Binary.ofFloat (x + y) = .infinite a := by
  obtain ⟨t, rfl, ht⟩ := unpack_of_infinite hy
  have hsum : UnpackedFloat.add binary64 x.toModel.unpack y.toModel.unpack = .infinity t := by
    have hfinite := isFinite_unpack hx
    rw [ht]
    cases hu : x.toModel.unpack with
    | zero s | finite s m q hm => rfl
    | _ =>
      rw [hu] at hfinite
      cases hfinite
  show Binary.ofFloat (.ofModel (.pack (.add binary64 x.toModel.unpack y.toModel.unpack))) = _
  rw [hsum, ofFloat_pack (isPackable_infinity t)]
  rfl

theorem not_isFinite_div (hx : Binary.ofFloat x = .infinite a) (hy : y.isFinite) : ¬(x / y).isFinite := by
  obtain ⟨s, -, hs⟩ := unpack_of_infinite hx
  have hquotient : ∃ t, UnpackedFloat.div binary64 x.toModel.unpack y.toModel.unpack = .infinity t := by
    have hfinite := isFinite_unpack hy
    rw [hs]
    cases hu : y.toModel.unpack with
    | zero t | finite t m q hm => exact ⟨_, rfl⟩
    | _ =>
      rw [hu] at hfinite
      cases hfinite
  obtain ⟨t, ht⟩ := hquotient
  rw [isFinite_eq]
  show ¬(Binary.ofFloat (.ofModel (.pack (.div binary64 x.toModel.unpack y.toModel.unpack)))).isFinite
  rw [ht, ofFloat_pack (isPackable_infinity t)]
  exact Bool.false_ne_true

theorem add_ne_nan (hx : x.isFinite) (hy : Binary.ofFloat y ≠ .nan) : Binary.ofFloat (x + y) ≠ .nan := by
  cases hparts : Binary.ofFloat y with
  | nan => exact absurd hparts hy
  | infinite a =>
    rw [ofFloat_add_infinite hx hparts]
    exact Binary.noConfusion
  | finite a m q => exact (isRounded_add hx (isFinite_iff.2 ⟨a, m, q, hparts⟩)).isNumber

theorem float_add_mono (hx : x.isFinite) (h : y ≤ z) : x + y ≤ x + z := by
  obtain ⟨hy, hz, hle⟩ := float_le_iff.1 h
  rcases le_cases h with ⟨hyfinite, hzfinite⟩ | hinfinite
  · exact (isRounded_add hx hyfinite).le_of_le (isRounded_add hx hzfinite) (by linarith)
  · exact le_of_infinite (add_ne_nan hx hy) (add_ne_nan hx hz)
      (hinfinite.imp (ofFloat_add_infinite hx) (ofFloat_add_infinite hx))

end Rounded

/-! ## Steps -/

section Steps

variable {r : Range} {n i j : ℕ}

/-- The range is in order, and has a finite number of steps. -/
structure Range.IsOrdered (r : Range) : Prop where
  start : r.start.isFinite
  stop : r.stop.isFinite
  step : r.step.isFinite
  order : r.start ≤ r.stop
  positive : 0.0 < r.step
  count : ((r.stop - r.start) / r.step).isFinite

theorem exactValue_of_zero {x : Float} (h : x = 0.0 ∨ x = -0.0) : exactValue x = 0 := by
  rcases h with rfl | rfl
  · exact exactValue_zero
  · rw [exactValue_neg, exactValue_zero, neg_zero]

namespace Range.IsOrdered

theorem step_pos (h : r.IsOrdered) : 0 < exactValue r.step := by
  have hlt := (float_lt_iff.1 h.positive).2.2
  rwa [exactValue_zero] at hlt

theorem exists_steps (h : r.IsOrdered) : ∃ n : ℕ, r.sampleCount = .ok n ∧ n ≤ maxNat := by
  have hbeq : ¬r.step == 0.0 := by
    intro hzero
    have hpos := h.step_pos
    rw [exactValue_of_zero (zero_of_beq hzero)] at hpos
    exact lt_irrefl _ hpos
  have hrange : (r.stop - r.start).isFinite := by
    cases hparts : Binary.ofFloat (r.stop - r.start) with
    | nan => exact absurd hparts (isRounded_sub h.stop h.start).isNumber
    | infinite a => exact absurd h.count (not_isFinite_div hparts h.step)
    | finite a m q => exact isFinite_iff.2 ⟨a, m, q, hparts⟩
  have hquotient := isRounded_div hrange h.step h.step_pos.ne'
  have hnonneg : 0 ≤ exactValue ((r.stop - r.start) / r.step) := by
    refine hquotient.nonneg (div_nonneg ?_ h.step_pos.le)
    exact (isRounded_sub h.stop h.start).nonneg (sub_nonneg.2 (float_le_iff.1 h.order).2.2)
  obtain ⟨a, m, q, hparts⟩ := isFinite_iff.1 h.count
  rw [exactValue_of_parts hparts] at hnonneg
  refine ⟨divNearest (numerator m q) (denominator q), ?_, divNearest_le_maxNat (isDouble_of_finite hparts)⟩
  have hnearest : nearestInt a m q = divNearest (numerator m q) (denominator q) := by
    cases a
    · rfl
    · -- the quotient is a negative zero
      have hzero : divNearest (numerator m q) (denominator q) ≤ 0 := by
        refine (isNearest_divNearest _ (denominator_pos q)).le_of_le ?_
        rw [← value_eq_div, Nat.cast_zero]
        rw [signed_true] at hnonneg
        linarith
      rw [nearestInt, Nat.le_zero.1 hzero]
      rfl
  rw [Range.sampleCount, divide, if_neg hbeq]
  show toInt nearestInt _ = _
  rw [toInt, hparts]
  exact congrArg _ hnearest

theorem isRounded_steps (h : r.IsOrdered) (hi : i ≤ maxNat) :
    IsRounded (Float.ofNat i * r.step) (exactValue (Float.ofNat i) * exactValue r.step) :=
  isRounded_mul (isFinite_ofNat hi) h.step

theorem sample_le_sample (h : r.IsOrdered) (hij : i ≤ j) (hj : j ≤ maxNat) : r.sample i ≤ r.sample j := by
  have hi := hij.trans hj
  have hcount : Float.ofNat i ≤ Float.ofNat j := by
    have hi' := isRounded_ofNat (natCast_le_of_le_maxNat hi)
    exact hi'.le_of_le (isRounded_ofNat (natCast_le_of_le_maxNat hj)) (by exact_mod_cast hij)
  have hsteps := (h.isRounded_steps hi).le_of_le (h.isRounded_steps hj)
    (mul_le_mul_of_nonneg_right (float_le_iff.1 hcount).2.2 h.step_pos.le)
  exact roundPlaces_mono (float_add_mono h.start hsteps)

theorem start_le_sample (h : r.IsOrdered) (hi : i ≤ maxNat) : roundPlaces Range.places r.start ≤ r.sample i := by
  have hcount := (isRounded_ofNat (natCast_le_of_le_maxNat hi)).nonneg (Nat.cast_nonneg i)
  have hsteps : 0.0 ≤ Float.ofNat i * r.step := by
    have hzero := IsRounded.self isFinite_zero
    rw [exactValue_zero] at hzero
    exact hzero.le_of_le (h.isRounded_steps hi) (mul_nonneg hcount h.step_pos.le)
  have hstart : r.start ≤ r.start + 0.0 := by
    refine (IsRounded.self h.start).le_of_le (isRounded_add h.start isFinite_zero) ?_
    rw [exactValue_zero, add_zero]
  exact roundPlaces_mono (float_le_trans hstart (float_add_mono h.start hsteps))

end Range.IsOrdered

end Steps

/-! ## Points -/

section Points

variable {s : Setup} {r : Range} {tree : Expr} {n : ℕ} {later : List Point}

theorem forall_pointsOnto {P : Float → Prop} (h : ∀ i < n, P (r.sample i)) (hlater : ∀ q ∈ later, P q.x) :
    ∀ p ∈ pointsOnto s r tree n later, P p.x := by
  have hpoints : ∀ p ∈ pointsOnto s r tree n later, P p.x ∧ True :=
    forall_mem_pointsOnto (Q := fun _ => True) (fun i hi _ _ => ⟨h i hi, trivial⟩) fun q hq => ⟨hlater q hq, trivial⟩
  exact fun p hp => (hpoints p hp).1

theorem samplePoints_eq (h : r.sampleCount = .ok n) :
    samplePoints s r tree = .ok (pointsOnto s r tree (n + 1) []) := by
  rw [samplePoints, h]
  rfl

theorem le_of_sameNumber {x y z : Float} (h : SameNumber x y) (hle : x ≤ z) : y ≤ z := by
  rcases h with rfl | h
  · exact hle
  rcases eq_or_zeros_of_beq h with rfl | ⟨hx, hy⟩
  · exact hle
  obtain ⟨-, hz, hle⟩ := float_le_iff.1 hle
  rw [exactValue_of_zero hx] at hle
  refine float_le_iff.2 ⟨ne_nan_of_isFinite ?_, hz, (exactValue_of_zero hy).trans_le hle⟩
  rcases hy with rfl | rfl <;> rfl

/-- A constant has a point at every sample. -/
theorem exists_point (s : Setup) (r : Range) (n : ℕ) :
    ∃ p ∈ pointsOnto s r (.number 0.0) (n + 1) [], SameNumber p.x (r.sample n) := by
  have hpoint : OnCurve s (.number 0.0) (r.sample n) 0.0 := onCurve_of_finiteValue? rfl
  have hsample : ∃ i < n + 1, unsigned (r.sample i) = unsigned (r.sample n) := ⟨n, n.lt_succ_self, rfl⟩
  obtain ⟨p, hp, hx, -⟩ := (mapsTo_pointsOnto (n + 1) (List.forall_mem_nil _)).2 (.inl ⟨hsample, hpoint⟩)
  exact ⟨p, hp, hx⟩

/-- **No sample lies before the start of the range, and none behind its end if the last one does not.** -/
theorem samples_inside_iff (h : r.IsOrdered) (s : Setup) : ∃ n : ℕ, r.sampleCount = .ok n ∧
    (∀ tree, ∃ points, samplePoints s r tree = .ok points ∧
      ∀ p ∈ points, roundPlaces Range.places r.start ≤ p.x ∧ p.x ≤ r.sample n) ∧
    ((∀ tree points, samplePoints s r tree = .ok points → ∀ p ∈ points, p.x ≤ roundPlaces Range.places r.stop) ↔
      r.sample n ≤ roundPlaces Range.places r.stop) := by
  obtain ⟨n, hn, hmax⟩ := h.exists_steps
  have hinside (tree : Expr) : ∀ p ∈ pointsOnto s r tree (n + 1) [],
      roundPlaces Range.places r.start ≤ p.x ∧ p.x ≤ r.sample n := by
    refine forall_pointsOnto (P := fun x => roundPlaces Range.places r.start ≤ x ∧ x ≤ r.sample n) (fun i hi => ?_)
      (List.forall_mem_nil _)
    have hin : i ≤ n := Nat.le_of_lt_succ hi
    exact ⟨h.start_le_sample (hin.trans hmax), h.sample_le_sample hin hmax⟩
  refine ⟨n, hn, fun tree => ⟨_, samplePoints_eq hn, hinside tree⟩, fun hall => ?_,
    fun hlast tree points hpoints p hp => ?_⟩
  · obtain ⟨p, hp, hx⟩ := exists_point s r n
    exact le_of_sameNumber hx (hall _ _ (samplePoints_eq hn) p hp)
  · obtain rfl := Except.ok.inj (hpoints.symm.trans (samplePoints_eq hn))
    exact float_le_trans (hinside tree p hp).2 hlast

theorem samples_inside_quarters : Range.IsOrdered ⟨0.0, 1.0, 0.25⟩ ∧ ∀ tree points,
    samplePoints ⟨.radians, true, 64⟩ ⟨0.0, 1.0, 0.25⟩ tree = .ok points →
      ∀ p ∈ points, p.x ≤ roundPlaces Range.places 1.0 := by
  have hordered : Range.IsOrdered ⟨0.0, 1.0, 0.25⟩ := by constructor <;> decide +kernel
  obtain ⟨n, hn, -, hiff⟩ := samples_inside_iff hordered ⟨.radians, true, 64⟩
  have hcount : (Range.sampleCount ⟨0.0, 1.0, 0.25⟩).toOption = some 4 := by decide +kernel
  rw [hn] at hcount
  obtain rfl : n = 4 := Int.ofNat.inj (Option.some.inj hcount)
  exact ⟨hordered, hiff.2 (by decide +kernel)⟩

/-- Two steps of 0.6 lead behind one. -/
theorem samples_behind_one : Range.IsOrdered ⟨0.0, 1.0, 0.6⟩ ∧ ∃ points,
    samplePoints ⟨.radians, true, 64⟩ ⟨0.0, 1.0, 0.6⟩ (.name ['x']) = .ok points ∧
      ∃ p ∈ points, ¬p.x ≤ roundPlaces Range.places 1.0 := by
  refine ⟨by constructor <;> decide +kernel, ?_⟩
  have hcount : (Range.sampleCount ⟨0.0, 1.0, 0.6⟩).toOption.any fun n => n == 2 := by decide +kernel
  obtain ⟨n, hn, heq⟩ := exists_ok_of_any hcount
  obtain rfl : n = 2 := beq_iff_eq.1 heq
  refine ⟨_, samplePoints_eq hn, ?_⟩
  have hlast : (pointsOnto ⟨.radians, true, 64⟩ ⟨0.0, 1.0, 0.6⟩ (.name ['x']) 3 []).any
      fun p => !decide (p.x ≤ roundPlaces Range.places 1.0) := by
    decide +kernel
  simpa using hlast

end Points

end Calculator
