import Calculator.Function.Value
import Calculator.Proofs.Except
import Calculator.Proofs.HalfAway
import Calculator.Proofs.SignOfZero

/-!
# Rounding to integers

The function `round` adds a half to the magnitude of a double, cuts the sum to an integer and gives it the sign of the
double.

* `toFloor_eq` : the integer below a double.
* `withSignOf_spec`, `eq_of_exactValue_eq` : a double has its sign and its value.
* `exists_half_sum`, `exists_ofInt_floor`, `exists_roundAway` : the sum, and the whole number that it is cut to.
* `roundAway_nearest_iff` : the rounded number is the nearest integer, but for the magnitudes that go past it.
-/

namespace Calculator

set_option autoImplicit false

open Calculator.Number
open Float.Model (UnpackedFloat)
open Binary (ofUnpacked)

/-! ## Doubles -/

section Doubles

variable {x y : Float}

theorem isNegative_of_parts {a : Bool} {m : ℕ} {q : ℤ} (h : Binary.ofFloat x = .finite a m q) : isNegative x = a := by
  unfold Binary.ofFloat at h
  dsimp only at h
  split_ifs at h
  · exact (Binary.finite.inj h).1
  · exact (Binary.finite.inj h).1

theorem ofFloat_abs {a : Bool} {m : ℕ} {q : ℤ} (h : Binary.ofFloat x = .finite a m q) :
    Binary.ofFloat x.abs = .finite false m q := by
  have hdouble := isDouble_of_finite h
  have habs : ofUnpacked x.toModel.unpack.abs = .finite false m q := by
    rw [ofFloat_eq_ofUnpacked] at h
    cases hu : x.toModel.unpack with
    | finite s m' q' hm =>
      rw [hu] at h
      obtain ⟨-, rfl, rfl⟩ := Binary.finite.inj h
      rfl
    | zero s =>
      rw [hu] at h
      obtain ⟨-, rfl, rfl⟩ := Binary.finite.inj h
      rfl
    | _ =>
      rw [hu] at h
      cases h
  have hpack : IsPackable x.toModel.unpack.abs := by
    intro b n p h'
    obtain ⟨-, rfl, rfl⟩ := Binary.finite.inj (habs.symm.trans h')
    exact hdouble
  exact (ofFloat_pack hpack).trans habs

theorem toFloor_eq (hx : x.isFinite) : toFloor x = .ok ⌊exactValue x⌋ := by
  obtain ⟨a, m, q, hparts⟩ := isFinite_iff.1 hx
  have hvalue : exactValue x = (signedNumerator a m q : ℤ) / (denominator q : ℕ) := by
    rw [exactValue_of_parts hparts, value_eq_div]
    unfold signedNumerator
    cases a
    · simp
    · simp [neg_div]
  rw [toFloor, toInt, hparts, hvalue, Rat.floor_intCast_div_natCast]
  rfl

theorem eq_of_exactValue_eq (hx : x.isFinite) (hy : y.isFinite) (hsign : isNegative x = isNegative y)
    (hvalue : exactValue x = exactValue y) : x = y := by
  obtain ⟨a, m, q, hparts⟩ := isFinite_iff.1 hx
  obtain ⟨b, n, p, hparts'⟩ := isFinite_iff.1 hy
  rw [isNegative_of_parts hparts, isNegative_of_parts hparts'] at hsign
  rw [exactValue_of_parts hparts, exactValue_of_parts hparts', hsign] at hvalue
  have hmagnitude : (m * 2 ^ q : ℚ) = n * 2 ^ p := by
    cases b
    · exact hvalue
    · exact neg_inj.1 hvalue
  have hself := roundsTo_self (isDouble_of_finite hparts)
  rw [hmagnitude] at hself
  obtain ⟨rfl, rfl⟩ := hself.unique (roundsTo_self (isDouble_of_finite hparts'))
  refine ofFloat_inj ?_ ?_
  · rw [hparts, hparts', hsign]
  · rw [hparts]
    exact Binary.noConfusion

theorem withSignOf_spec (hx : x.isFinite) : (withSignOf x y).isFinite ∧ isNegative (withSignOf x y) = isNegative y ∧
    exactValue (withSignOf x y) = signed (isNegative y) |exactValue x| := by
  obtain ⟨a, m, q, hparts⟩ := isFinite_iff.1 hx
  have habs := ofFloat_abs hparts
  have hresult : Binary.ofFloat (withSignOf x y) = .finite (isNegative y) m q := by
    unfold withSignOf
    cases isNegative y
    · exact habs
    · rw [if_pos rfl, ofFloat_neg, habs]
      rfl
  rw [abs_exactValue_of_parts hparts]
  exact ⟨isFinite_iff.2 ⟨_, _, _, hresult⟩, isNegative_of_parts hresult, exactValue_of_parts hresult⟩

theorem isDoubleValue_floor {m n : ℕ} {q : ℤ} (h : IsDouble m q) (hn : ⌊(m * 2 ^ q : ℚ)⌋ = n) : IsDoubleValue n := by
  have hle : (n : ℚ) ≤ m * 2 ^ q := by exact_mod_cast Int.le_floor.1 hn.ge
  rcases le_or_gt 0 q with hq | hq
  · obtain ⟨d, rfl⟩ := Int.eq_ofNat_of_zero_le hq
    rw [value_eq_natCast, Int.floor_natCast, Nat.cast_inj] at hn
    exact ⟨m, d, h.fits, h.least, by rw [← hn, value_eq_natCast]⟩
  · have hone : (2 : ℚ) ^ q ≤ 1 := zpow_le_one_of_nonpos₀ (by norm_num) hq.le
    have hfits : n < 2 ^ 53 := by
      have hlt : (n : ℚ) ≤ m := hle.trans (mul_le_of_le_one_right m.cast_nonneg hone)
      exact (Nat.cast_le.1 hlt).trans_lt h.fits
    exact ⟨n, 0, hfits, by decide, by rw [zpow_zero, mul_one]⟩

end Doubles

/-- The sum that is cut to an integer. -/
theorem exists_half_sum {x : Float} {a : Bool} {m : ℕ} {q : ℤ} (h : Binary.ofFloat x = .finite a m q) :
    ∃ k p, RoundsTo (m * 2 ^ q + 1 / 2) k p ∧ (x.abs + 0.5).isFinite ∧ exactValue (x.abs + 0.5) = k * 2 ^ p := by
  have hhalf : Binary.ofFloat 0.5 = .finite false (2 ^ 52) (-53) := by decide +kernel
  have habs := ofFloat_abs h
  have hsum := isRounded_add (isFinite_iff.2 ⟨_, _, _, habs⟩) (isFinite_iff.2 ⟨_, _, _, hhalf⟩)
  have hvalue : exactValue x.abs + exactValue 0.5 = m * 2 ^ q + 1 / 2 := by
    rw [exactValue_of_parts habs, exactValue_of_parts hhalf, signed_false, signed_false]
    norm_num
  rw [hvalue] at hsum
  obtain ⟨hnumber, negative, k, p, hk, hsign, hresult⟩ := hsum
  have hpos : (0 : ℚ) < m * 2 ^ q + 1 / 2 := by positivity
  rw [abs_of_pos hpos] at hk hsign
  obtain rfl : negative = false := by
    cases negative
    · rfl
    · rw [signed_true] at hsign
      linarith
  -- at the greatest double a half is lost
  have hgreatest : IsDouble (2 ^ 53 - 1) 971 := ⟨by norm_num, by norm_num, by norm_num, .inl (by norm_num)⟩
  have hmax := roundsTo_add_half_of_large hgreatest (by norm_num) (by norm_num)
  have hlt : (k * 2 ^ p : ℚ) < infinityValue := by
    refine (hk.mono hmax ?_).trans_lt (value_lt_infinityValue hgreatest)
    have hcast : ((2 ^ 53 - 1 : ℕ) : ℚ) = 2 ^ 53 - 1 := by norm_num
    rw [hcast]
    exact add_le_add_left (value_le_maxDouble (isDouble_of_finite h)) _
  rw [signed_false, min_eq_left hlt.le] at hresult
  refine ⟨k, p, hk, isFinite_of_abs_lt hnumber ?_, hresult⟩
  rwa [hresult, abs_of_nonneg (by positivity)]

/-- The whole number that the cut sum is. -/
theorem exists_ofInt_floor {y : Float} (hy : y.isFinite) (h0 : 0 ≤ exactValue y) : ∃ n : ℕ, ⌊exactValue y⌋ = n ∧
    (Float.ofInt n).isFinite ∧ exactValue (Float.ofInt n) = n := by
  obtain ⟨n, hn⟩ := Int.eq_ofNat_of_zero_le (Int.floor_nonneg.2 h0)
  obtain ⟨a, m, q, hparts⟩ := isFinite_iff.1 hy
  have hvalue : exactValue y = m * 2 ^ q := by
    rw [← abs_of_nonneg h0, abs_exactValue_of_parts hparts]
  have hdouble := isDouble_of_finite hparts
  have hmax : (n : ℚ) ≤ maxDouble := calc
    (n : ℚ) = (⌊exactValue y⌋ : ℤ) := by rw [hn, Int.cast_natCast]
    _ ≤ m * 2 ^ q := (Int.floor_le _).trans_eq hvalue
    _ ≤ maxDouble := value_le_maxDouble hdouble
  have hlt : |(n : ℚ)| < infinityValue := by
    rw [abs_of_nonneg n.cast_nonneg, infinityValue]
    exact hmax.trans_lt maxDouble_lt
  have hrounded := isRounded_ofNat hmax
  have hresult : exactValue (Float.ofNat n) = n := by
    refine hrounded.exactValue_eq ?_ hlt.le
    rw [abs_of_nonneg n.cast_nonneg]
    exact isDoubleValue_floor hdouble (hvalue ▸ hn)
  exact ⟨n, hn, isFinite_of_abs_lt hrounded.isNumber (hresult ▸ hlt), hresult⟩

/-- The rounded number: the integer of the cut sum, with the sign of the double. -/
theorem exists_roundAway {x : Float} {a : Bool} {m : ℕ} {q : ℤ} (h : Binary.ofFloat x = .finite a m q) :
    ∃ (r : Float) (n : ℕ) (s : ℚ), roundAway x = .ok r ∧ r.isFinite ∧ isNegative r = a ∧ exactValue r = signed a n ∧
      ⌊s⌋ = n ∧ IsCut (m * 2 ^ q) s := by
  obtain ⟨k, p, hk, hsum, hsumvalue⟩ := exists_half_sum h
  obtain ⟨n, hn, hfinite, hnvalue⟩ := exists_ofInt_floor hsum (by rw [hsumvalue]; positivity)
  obtain ⟨hrfinite, hrsign, hrvalue⟩ := withSignOf_spec (y := x) hfinite
  rw [isNegative_of_parts h] at hrsign hrvalue
  rw [hnvalue, abs_of_nonneg n.cast_nonneg] at hrvalue
  have hround : roundAway x = .ok (withSignOf (Float.ofInt n) x) := by
    rw [roundAway, toFloor_eq hsum, hn]
    rfl
  rw [hsumvalue] at hn
  exact ⟨_, n, _, hround, hrfinite, hrsign, hrvalue, hn, isCut_rounded (isDouble_of_finite h) hk⟩

theorem round_value?_eq {x r : Float} (h : roundAway x = .ok r) (mode : AngleMode) :
    NamedFunction.round.value? mode x = some r := by
  have hcompute : NamedFunction.round.compute mode x = .ok (some r) := by
    show (do return some (← roundAway x) : Except ArithmeticFault (Option Float)) = _
    rw [h]
    rfl
  rw [NamedFunction.value?, hcompute]

/-- An integer with a sign. -/
def signedInt (negative : Bool) (n : ℤ) : ℤ := if negative then -n else n

theorem cast_signedInt (negative : Bool) (n : ℤ) : (signedInt negative n : ℚ) = signed negative n := by
  cases negative
  · rfl
  · exact Int.cast_neg n

theorem abs_signedInt (negative : Bool) {n : ℤ} (hn : 0 ≤ n) : |signedInt negative n| = n := by
  cases negative
  · exact abs_of_nonneg hn
  · exact (abs_neg n).trans (abs_of_nonneg hn)

theorem IsNearestAway.signed {w : ℚ} {n : ℤ} (h : IsNearestAway w n) (negative : Bool) :
    IsNearestAway (signed negative w) (signedInt negative n) := by
  cases negative
  · exact h
  · exact h.neg

/-- **A rounded number is the nearest integer, ties going away from zero**, but for the magnitudes that go past it:
there it is the next one. -/
theorem roundAway_nearest_iff {v : Float} (hv : v.isFinite) : ∃ (r : Float) (n : ℤ), roundAway v = .ok r ∧
    (∀ mode, NamedFunction.round.value? mode v = some r) ∧ r.isFinite ∧ exactValue r = n ∧ isNegative r = isNegative v ∧
    (IsNearestAway (exactValue v) n ↔ ¬GoesPast |exactValue v|) ∧
    (GoesPast |exactValue v| → |n| = ⌊|exactValue v| + 1 / 2⌋ + 1) ∧
    ((∃ z : ℤ, exactValue v = z) → ¬GoesPast |exactValue v| → r = v) := by
  obtain ⟨a, m, q, hparts⟩ := isFinite_iff.1 hv
  have hvalue := exactValue_of_parts hparts
  have hnonneg : (0 : ℚ) ≤ m * 2 ^ q := by positivity
  have habs := abs_exactValue_of_parts hparts
  obtain ⟨r, n, sum, hround, hrfinite, hrsign, hrvalue, hn, hcut⟩ := exists_roundAway hparts
  rw [IsCut, hn, ← habs] at hcut
  set floor := ⌊|exactValue v| + 1 / 2⌋ with hfloor
  have hfloor0 : 0 ≤ floor := Int.floor_nonneg.2 (by positivity)
  have hnearest : IsNearestAway (exactValue v) (signedInt a floor) := by
    rw [hfloor, habs, hvalue]
    exact (IsNearestAway.floor_add_half hnonneg).signed a
  have habsn : |signedInt a n| = n := abs_signedInt a n.cast_nonneg
  rw [← isNegative_of_parts hparts] at hrsign
  refine ⟨r, signedInt a n, hround, round_value?_eq hround, hrfinite, ?_, hrsign, ?_, ?_, ?_⟩
  · rw [hrvalue, cast_signedInt, Int.cast_natCast]
  · rcases hcut with ⟨hpast, heq⟩ | ⟨hnot, heq⟩
    · refine iff_of_false (fun h => ?_) (not_not.2 hpast)
      have hunique := h.abs_unique hnearest
      rw [habsn, abs_signedInt a hfloor0] at hunique
      omega
    · rw [heq]
      exact iff_of_true hnearest hnot
  · intro hpast
    rw [habsn]
    exact (hcut.resolve_right fun hnot => hnot.1 hpast).2
  · rintro ⟨z, hz⟩ hnot
    have heq := (hcut.resolve_left fun hpast => hnot hpast.1).2
    have hwhole : |exactValue v| = (z.natAbs : ℚ) := by rw [hz, Nat.cast_natAbs, Int.cast_abs]
    rw [hfloor, hwhole, floor_natCast_add_half, Nat.cast_inj] at heq
    rw [← heq, habs] at hwhole
    exact eq_of_exactValue_eq hrfinite hv hrsign (by rw [hrvalue, hvalue, hwhole])

theorem roundAway_nearest_minus_two_and_half : (-2.5 : Float).isFinite ∧ ¬GoesPast |exactValue (-2.5)| ∧
    ∃ (r : Float) (n : ℤ), roundAway (-2.5) = .ok r ∧ exactValue r = n ∧ IsNearestAway (exactValue (-2.5)) n := by
  have hparts : Binary.ofFloat (-2.5) = .finite true (5 * 2 ^ 50) (-51) := by decide +kernel
  have hvalue : |exactValue (-2.5)| = 5 / 2 := by
    rw [exactValue_of_parts hparts, abs_signed true (by positivity)]
    norm_num
  have hfinite : (-2.5 : Float).isFinite := isFinite_iff.2 ⟨_, _, _, hparts⟩
  have hnot : ¬GoesPast |exactValue (-2.5)| := by
    rw [hvalue]
    exact not_goesPast (by norm_num) (.inl (by norm_num))
  obtain ⟨r, n, hr, -, -, hn, -, hnearest, -⟩ := roundAway_nearest_iff hfinite
  exact ⟨hfinite, hnot, r, n, hr, hn, hnearest.2 hnot⟩

/-- The double before a half becomes one, but zero is nearer. -/
theorem roundAway_before_half : (0.49999999999999994 : Float).isFinite ∧ ∃ (r : Float) (n : ℤ),
    roundAway 0.49999999999999994 = .ok r ∧ exactValue r = n ∧ ¬IsNearestAway (exactValue 0.49999999999999994) n := by
  have hparts : Binary.ofFloat 0.49999999999999994 = .finite false (2 ^ 53 - 1) (-54) := by decide +kernel
  have hround : (roundAway 0.49999999999999994).toOption.any fun r =>
      Binary.ofFloat r == .finite false (2 ^ 52) (-52) := by
    decide +kernel
  obtain ⟨r, hok, hresult⟩ := exists_ok_of_any hround
  refine ⟨isFinite_iff.2 ⟨_, _, _, hparts⟩, r, 1, hok, ?_, fun h => ?_⟩
  · rw [exactValue_of_parts (beq_iff_eq.1 hresult), signed_false]
    norm_num
  · have hnearer := h.nearest 0
    rw [exactValue_of_parts hparts, signed_false] at hnearer
    norm_num at hnearer

end Calculator
