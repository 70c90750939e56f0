import Calculator.Proofs.FloatOrder

/-!
# Rounded arithmetic

* `RoundsTo.mono` : numbers go to doubles in the same order.
* `RoundsSigned` : parts, still with any exponent, that are a number rounded, its sign included.
* `IsRounded` : a double, perhaps infinite, that is a number rounded.
* `isRounded_add`, `isRounded_sub`, `isRounded_mul`, `isRounded_div` : sums, differences, products and quotients.
* `IsRounded.le_of_le` : rounding keeps the order.
-/

namespace Calculator.Number

set_option autoImplicit false

open Float.Model (UnpackedFloat)
open Float.Model.Format (binary64)
open Float.Model.UnpackedFloat (Sign decreaseExponent)
open Binary (ofUnpacked)

/-! ## Nearest doubles -/

section Nearest

variable {a b r : ℚ}

theorem add_le_two_mul_of_nearer (hab : b < a) (h : |r - a| ≤ |r - b|) : a + b ≤ 2 * r := by
  have hsq := sq_le_sq.2 h
  refine le_of_mul_le_mul_left ?_ (sub_pos.2 hab)
  linarith

theorem two_mul_le_add_of_nearer (hab : b < a) (h : |r - b| ≤ |r - a|) : 2 * r ≤ a + b := by
  have hsq := sq_le_sq.2 h
  refine le_of_mul_le_mul_left ?_ (sub_pos.2 hab)
  linarith

theorem RoundsTo.mono {r' : ℚ} {k k' : ℕ} {q q' : ℤ} (h : RoundsTo r k q) (h' : RoundsTo r' k' q') (hle : r ≤ r') :
    (k * 2 ^ q : ℚ) ≤ k' * 2 ^ q' := by
  by_contra hlt
  have hlt := not_le.1 hlt
  have hnear := add_le_two_mul_of_nearer hlt (h.abs_sub_le h'.isDoubleValue)
  have hnear' := two_mul_le_add_of_nearer hlt (h'.abs_sub_le h.isDoubleValue)
  obtain rfl : r = r' := hle.antisymm (by linarith)
  obtain ⟨rfl, rfl⟩ := h.unique h'
  exact lt_irrefl _ hlt

theorem roundsTo_self {m : ℕ} {q : ℤ} (h : IsDouble m q) : RoundsTo (m * 2 ^ q) m q where
  least := h.least
  full := h.full.imp_left fun hfull => mul_le_mul_of_nonneg_right (by exact_mod_cast hfull) (by positivity)
  fits := mul_lt_mul_of_pos_right (by exact_mod_cast h.fits) (by positivity)
  nearest := IsNearest.of_lt (by rw [mul_div_cancel_right₀ _ (by positivity)]; simp)

theorem rounds_self {m : ℕ} {q : ℤ} (h : IsDouble m q) (negative : Bool) :
    Rounds (.finite negative m q) negative (m * 2 ^ q) :=
  ⟨m, q, roundsTo_self h, (if_neg h.fits.ne).symm⟩

end Nearest

/-! ## Parts -/

/-- The parts are those of the double nearest to `r`, of the sign of `r`; the exponent may be too large. -/
def RoundsSigned (b : Binary) (r : ℚ) : Prop := ∃ negative, Rounds b negative |r| ∧ signed negative |r| = r

section Parts

variable {u v : UnpackedFloat} {m : ℕ}

theorem RoundsSigned.of_rounds {b : Binary} {negative : Bool} {w : ℚ} (h : Rounds b negative w) (hw : 0 ≤ w) :
    RoundsSigned b (signed negative w) := by
  have habs := abs_signed negative hw
  exact ⟨negative, by rwa [habs], by rw [habs]⟩

theorem roundsSigned_zero (s : Sign) : RoundsSigned (ofUnpacked (.zero s)) 0 := by
  have h := RoundsSigned.of_rounds (rounds_zero (isMinus s)) le_rfl
  rwa [signed_zero] at h

theorem roundsSigned_self (hu : IsPackable u) (hfinite : (ofUnpacked u).isFinite) :
    RoundsSigned (ofUnpacked u) (ofUnpacked u).value := by
  cases u with
  | notANumber | infinity s => cases hfinite
  | zero s =>
    rw [value_zero]
    exact roundsSigned_zero s
  | finite s m q hm => exact .of_rounds (rounds_self (hu _ m q rfl) (isMinus s)) (value_pos hm q).le

theorem log2_mul_two_pow (hm : m ≠ 0) (d : ℕ) : (m * 2 ^ d).log2 = m.log2 + d := by
  rw [Nat.log2_eq_iff (by positivity)]
  have hlow := Nat.log2_self_le hm
  have hhigh : m < 2 ^ (m.log2 + 1) := Nat.lt_log2_self
  constructor
  · rw [pow_add]
    exact Nat.mul_le_mul_right _ hlow
  · rw [add_right_comm, pow_add]
    exact Nat.mul_lt_mul_of_pos_right hhigh (by positivity)

theorem rounds_round (s : Sign) (hm : 0 < m) (e : ℤ) :
    Rounds (ofUnpacked (.round binary64 s m e)) (isMinus s) (m * 2 ^ e) := by
  set t := target m e with ht
  set d := (e - t).toNat with hd
  have hround : UnpackedFloat.round binary64 s m e = .roundWithAccuracy binary64 s (m * 2 ^ d) (e - d) .exact := by
    rw [← Nat.shiftLeft_eq, hd, ht, ← targetExponent_eq]
    rfl
  have hvalue : (m * 2 ^ e : ℚ) = (m * 2 ^ d : ℕ) * 2 ^ (e - d) := by
    rw [zpow_sub₀ two_ne_zero, zpow_natCast]
    push_cast
    field_simp
  have htarget : e - d ≤ target (m * 2 ^ d) (e - d) := by
    unfold target at ht ⊢
    rw [log2_mul_two_pow hm.ne']
    omega
  rw [hround, hvalue]
  exact rounds_roundWithAccuracy s rfl htarget

theorem roundsSigned_normalize (z e : ℤ) :
    RoundsSigned (ofUnpacked (.normalize binary64 z e .positive)) (z * 2 ^ e) := by
  unfold UnpackedFloat.normalize
  rcases lt_trichotomy z 0 with hz | rfl | hz
  · obtain ⟨m, rfl⟩ := Int.exists_eq_neg_ofNat hz.le
    have hm : 0 < m := by omega
    have hnat : (-(-(m : ℤ))).toNat = m := by omega
    have h := RoundsSigned.of_rounds (rounds_round .negative hm e) (value_pos hm e).le
    rw [Int.compare_eq_lt.2 hz]
    dsimp only
    rw [hnat, Int.cast_neg, Int.cast_natCast, neg_mul]
    exact h
  · rw [Int.compare_eq_eq.2 rfl, Int.cast_zero, zero_mul]
    exact roundsSigned_zero .positive
  · obtain ⟨m, rfl⟩ := Int.eq_ofNat_of_zero_le hz.le
    have hm : 0 < m := by omega
    have h := RoundsSigned.of_rounds (rounds_round .positive hm e) (value_pos hm e).le
    rw [Int.compare_eq_gt.2 hz]
    dsimp only
    rw [Int.toNat_natCast, Int.cast_natCast]
    exact h

theorem apply_decreaseExponent (s : Sign) (m : ℕ) {q e : ℤ} (he : e ≤ q) :
    ((s.apply (decreaseExponent m q e).1 : ℤ) : ℚ) * 2 ^ e = signed (isMinus s) (m * 2 ^ q) := by
  obtain ⟨d, rfl⟩ : ∃ d : ℕ, q = e + d := ⟨(q - e).toNat, by omega⟩
  have hshift : (decreaseExponent m (e + d) e).1 = m * 2 ^ d := by
    rw [← Nat.shiftLeft_eq]
    show m <<< (e + d - e).toNat = m <<< d
    congr 1
    omega
  rw [hshift, zpow_add₀ two_ne_zero, zpow_natCast]
  cases s <;> simp only [Sign.apply, isMinus, signed_true, signed_false] <;> push_cast <;> ring

theorem roundsSigned_add (hu : IsPackable u) (hv : IsPackable v) (hufinite : (ofUnpacked u).isFinite)
    (hvfinite : (ofUnpacked v).isFinite) :
    RoundsSigned (ofUnpacked (.add binary64 u v)) ((ofUnpacked u).value + (ofUnpacked v).value) := by
  cases u with
  | notANumber | infinity s => cases hufinite
  | zero s =>
    rw [value_zero, zero_add]
    cases v with
    | notANumber | infinity t => cases hvfinite
    | zero t =>
      rw [value_zero]
      cases s <;> cases t <;> exact roundsSigned_zero _
    | finite t n r hn => exact roundsSigned_self hv rfl
  | finite s m q hm =>
    cases v with
    | notANumber | infinity t => cases hvfinite
    | zero t =>
      rw [value_zero, add_zero]
      exact roundsSigned_self hu rfl
    | finite t n r hn =>
      have hvalue : (ofUnpacked (.finite s m q hm)).value + (ofUnpacked (.finite t n r hn)).value =
          ((s.apply (decreaseExponent m q (min q r)).1 + t.apply (decreaseExponent n r (min q r)).1 : ℤ) : ℚ) *
            2 ^ min q r := by
        rw [Int.cast_add, add_mul, apply_decreaseExponent s m (min_le_left q r),
          apply_decreaseExponent t n (min_le_right q r)]
        rfl
      rw [hvalue]
      exact roundsSigned_normalize _ _

theorem roundsSigned_mul (hu : IsPackable u) (hv : IsPackable v) (hufinite : (ofUnpacked u).isFinite)
    (hvfinite : (ofUnpacked v).isFinite) :
    RoundsSigned (ofUnpacked (.mul binary64 u v)) ((ofUnpacked u).value * (ofUnpacked v).value) := by
  cases u with
  | notANumber | infinity s => cases hufinite
  | zero s =>
    rw [value_zero, zero_mul]
    cases v with
    | notANumber | infinity t => cases hvfinite
    | zero t | finite t n r hn => exact roundsSigned_zero _
  | finite s m q hm =>
    cases v with
    | notANumber | infinity t => cases hvfinite
    | zero t =>
      rw [value_zero, mul_zero]
      exact roundsSigned_zero _
    | finite t n r hn =>
      have hround := rounds_mul s t hm hn (le_target_mul (hu _ m q rfl) (hv _ n r rfl) hm hn)
      have h := RoundsSigned.of_rounds hround (mul_pos (value_pos hm q) (value_pos hn r)).le
      rwa [signed_mul] at h

theorem roundsSigned_div (hu : IsPackable u) (hv : IsPackable v) (hufinite : (ofUnpacked u).isFinite)
    (hvfinite : (ofUnpacked v).isFinite) (hne : (ofUnpacked v).value ≠ 0) :
    RoundsSigned (ofUnpacked (.div binary64 u v)) ((ofUnpacked u).value / (ofUnpacked v).value) := by
  cases v with
  | notANumber | infinity t => cases hvfinite
  | zero t => exact absurd (value_zero t) hne
  | finite t n r hn =>
    cases u with
    | notANumber | infinity s => cases hufinite
    | zero s =>
      rw [value_zero, zero_div]
      exact roundsSigned_zero _
    | finite s m q hm =>
      have h := RoundsSigned.of_rounds (rounds_div s t hm hn (q := q) (p := r))
        (div_pos (value_pos hm q) (value_pos hn r)).le
      rwa [signed_div] at h

theorem unpacked_sub_eq (u v : UnpackedFloat) : UnpackedFloat.sub binary64 u v = .add binary64 u v.neg := by
  cases u with
  | finite s m q hm =>
    cases v with
    | finite t n r hn =>
      have happly (z : ℤ) : (-t).apply z = -t.apply z := by
        cases t
        · exact (neg_neg z).symm
        · rfl
      show UnpackedFloat.normalize binary64 (s.apply _ - t.apply _) _ _ =
        .normalize binary64 (s.apply _ + (-t).apply _) _ _
      rw [happly, ← sub_eq_add_neg]
    | _ => rfl
  | _ => cases v <;> rfl

theorem isPackable_neg (hv : IsPackable v) : IsPackable v.neg := by
  intro negative m q h
  rw [ofUnpacked_neg] at h
  cases hparts : ofUnpacked v with
  | finite negative' m' q' =>
    rw [hparts] at h
    obtain ⟨-, rfl, rfl⟩ := Binary.finite.inj h
    exact hv _ _ _ hparts
  | _ =>
    rw [hparts] at h
    cases h

theorem roundsSigned_sub (hu : IsPackable u) (hv : IsPackable v) (hufinite : (ofUnpacked u).isFinite)
    (hvfinite : (ofUnpacked v).isFinite) :
    RoundsSigned (ofUnpacked (.sub binary64 u v)) ((ofUnpacked u).value - (ofUnpacked v).value) := by
  have hneg : (ofUnpacked v.neg).isFinite := by
    rw [ofUnpacked_neg]
    cases hparts : ofUnpacked v with
    | finite negative m q => rfl
    | _ => rw [hparts] at hvfinite; cases hvfinite
  have h := roundsSigned_add hu (isPackable_neg hv) hufinite hneg
  rwa [← unpacked_sub_eq, ofUnpacked_neg, value_opposite, ← sub_eq_add_neg] at h

end Parts

/-! ## Doubles -/

/-- `x` is `r` rounded: the double nearest to it, of its sign, and an infinity if that is too large. -/
structure IsRounded (x : Float) (r : ℚ) : Prop where
  isNumber : Binary.ofFloat x ≠ .nan
  nearest : ∃ negative k q, RoundsTo |r| k q ∧ signed negative |r| = r ∧
    exactValue x = signed negative (min (k * 2 ^ q) infinityValue)

section Pack

variable {u : UnpackedFloat} {s : Sign} {m : ℕ} {q : ℤ}

/-- But for the greatest exponent, rounded parts are those of a double. -/
theorem RoundsTo.parts_bounds {r : ℚ} {k : ℕ} {p : ℤ} {a b : Bool} (h : RoundsTo r k q)
    (hparts : roundedParts a k q = .finite b m p) : m < 2 ^ 53 ∧ -1074 ≤ p ∧ (2 ^ 52 ≤ m ∨ p = -1074) := by
  have hk := h.le_two_pow
  have hleast := h.least
  unfold roundedParts at hparts
  split at hparts
  · obtain ⟨-, rfl, rfl⟩ := Binary.finite.inj hparts
    exact ⟨by norm_num, by omega, .inl le_rfl⟩
  · obtain ⟨-, rfl, rfl⟩ := Binary.finite.inj hparts
    exact ⟨by omega, hleast, h.full_mantissa⟩

/-- Parts with an exponent that no double has make an infinity. -/
theorem ofFloat_pack_large (hm : 0 < m) (hq : 971 < q) :
    Binary.ofFloat (.ofModel (.pack (.finite s m q hm))) = .infinite (isMinus s) := by
  have hlarge : 2 ^ binary64.exponentBits ≤
      (q + binary64.exponentBias + binary64.mantissaBitsWithoutImplicit).toNat + 1 := by
    show 2 ^ 11 ≤ (q + 1023 + 52).toNat + 1
    omega
  rw [ofFloat_eq_ofUnpacked]
  show ofUnpacked (UnpackedFloat.unpack binary64 (UnpackedFloat.pack binary64 (.finite s m q hm))) = _
  unfold UnpackedFloat.pack
  rw [if_pos hlarge]
  cases s <;> rfl

theorem isRounded_pack {r : ℚ} (h : RoundsSigned (ofUnpacked u) r) : IsRounded (.ofModel (.pack u)) r := by
  obtain ⟨negative, ⟨k, q, hk, hparts⟩, hsign⟩ := h
  obtain ⟨m, p, hmp, hvalue⟩ := roundedParts_eq negative k q
  obtain ⟨hfits, hleast, hfull⟩ := hk.parts_bounds hmp
  rw [hmp] at hparts
  have hnumber : u ≠ .notANumber := by
    rintro rfl
    cases hparts
  refine ⟨ofFloat_pack_ne_nan hnumber, negative, k, q, hk, hsign, ?_⟩
  rw [← hvalue]
  rcases le_or_gt p 971 with hp | hp
  · have hdouble : IsDouble m p := ⟨hfits, hleast, hp, hfull⟩
    have hpack : IsPackable u := by
      intro negative' m' p' h
      obtain ⟨-, rfl, rfl⟩ := Binary.finite.inj (hparts.symm.trans h)
      exact hdouble
    rw [exactValue, ofFloat_pack hpack, hparts, min_eq_left (value_lt_infinityValue hdouble).le]
    rfl
  · cases u with
    | finite s m' p' hm =>
      obtain ⟨rfl, rfl, rfl⟩ := Binary.finite.inj hparts
      have hfull' : (2 : ℚ) ^ 52 ≤ m' := by exact_mod_cast hfull.resolve_right (by omega)
      have hpow : (2 : ℚ) ^ (972 : ℤ) ≤ 2 ^ p' := zpow_le_zpow_right₀ (by norm_num) hp
      have hlarge : infinityValue ≤ m' * 2 ^ p' := calc
        infinityValue = 2 ^ 52 * 2 ^ (972 : ℤ) := by
          rw [infinityValue, ← zpow_natCast (2 : ℚ) 52, ← zpow_add₀ two_ne_zero]
          rfl
        _ ≤ m' * 2 ^ p' := by gcongr
      rw [exactValue, ofFloat_pack_large hm hp, min_eq_right hlarge]
      rfl
    | zero s =>
      obtain ⟨-, -, rfl⟩ := Binary.finite.inj hparts
      exact absurd hp (by decide)
    | _ => cases hparts

end Pack

section Arithmetic

variable {x y : Float}

theorem isFinite_unpack (hx : x.isFinite) : (ofUnpacked x.toModel.unpack).isFinite := by
  rwa [← ofFloat_eq_ofUnpacked, ← isFinite_eq]

theorem isRounded_add (hx : x.isFinite) (hy : y.isFinite) : IsRounded (x + y) (exactValue x + exactValue y) := by
  rw [exactValue, exactValue, ofFloat_eq_ofUnpacked, ofFloat_eq_ofUnpacked]
  exact isRounded_pack (roundsSigned_add (isPackable_unpack x) (isPackable_unpack y) (isFinite_unpack hx)
    (isFinite_unpack hy))

theorem isRounded_sub (hx : x.isFinite) (hy : y.isFinite) : IsRounded (x - y) (exactValue x - exactValue y) := by
  rw [exactValue, exactValue, ofFloat_eq_ofUnpacked, ofFloat_eq_ofUnpacked]
  exact isRounded_pack (roundsSigned_sub (isPackable_unpack x) (isPackable_unpack y) (isFinite_unpack hx)
    (isFinite_unpack hy))

theorem isRounded_mul (hx : x.isFinite) (hy : y.isFinite) : IsRounded (x * y) (exactValue x * exactValue y) := by
  rw [exactValue, exactValue, ofFloat_eq_ofUnpacked, ofFloat_eq_ofUnpacked]
  exact isRounded_pack (roundsSigned_mul (isPackable_unpack x) (isPackable_unpack y) (isFinite_unpack hx)
    (isFinite_unpack hy))

theorem isRounded_div (hx : x.isFinite) (hy : y.isFinite) (hne : exactValue y ≠ 0) :
    IsRounded (x / y) (exactValue x / exactValue y) := by
  rw [exactValue, ofFloat_eq_ofUnpacked] at hne
  rw [exactValue, exactValue, ofFloat_eq_ofUnpacked, ofFloat_eq_ofUnpacked]
  exact isRounded_pack (roundsSigned_div (isPackable_unpack x) (isPackable_unpack y) (isFinite_unpack hx)
    (isFinite_unpack hy) hne)

end Arithmetic

namespace IsRounded

variable {x y : Float} {r t : ℚ}

theorem of_rounds {negative : Bool} (h : Rounds (Binary.ofFloat x) negative r) (hr : 0 ≤ r) :
    IsRounded x (signed negative r) := by
  obtain ⟨k, q, hk, hparts⟩ := h
  obtain ⟨m, p, hmp, hvalue⟩ := roundedParts_eq negative k q
  rw [hmp] at hparts
  have habs := abs_signed negative hr
  refine ⟨by rw [hparts]; exact Binary.noConfusion, negative, k, q, by rwa [habs], by rw [habs], ?_⟩
  rw [exactValue, hparts, ← hvalue, min_eq_left (value_lt_infinityValue (isDouble_of_finite hparts)).le]
  rfl

theorem self (hx : x.isFinite) : IsRounded x (exactValue x) := by
  obtain ⟨negative, m, q, hparts⟩ := isFinite_iff.1 hx
  have hself : Rounds (Binary.ofFloat x) negative (m * 2 ^ q) := by
    rw [hparts]
    exact rounds_self (isDouble_of_finite hparts) negative
  rw [exactValue, hparts]
  exact of_rounds hself (by positivity)

theorem le_of_le (h : IsRounded x r) (h' : IsRounded y t) (hle : r ≤ t) : x ≤ y := by
  obtain ⟨hx, a, k, q, hk, hr, hvalue⟩ := h
  obtain ⟨hy, b, j, p, hj, ht, hvalue'⟩ := h'
  refine float_le_iff.2 ⟨hx, hy, ?_⟩
  rw [hvalue, hvalue']
  have hzero {w : ℚ} {k : ℕ} {q : ℤ} (hk : RoundsTo w k q) (hw : w = 0) : min (k * 2 ^ q : ℚ) infinityValue = 0 := by
    have hdouble : IsDoubleValue w := ⟨0, 0, by norm_num, by norm_num, by rw [hw]; norm_num⟩
    rw [hk.eq_of_isDoubleValue hdouble, hw, min_eq_left infinityValue_pos.le]
  exact signed_le_signed (by rwa [hr, ht]) (abs_nonneg r) (abs_nonneg t) (le_min (by positivity) infinityValue_pos.le)
    (le_min (by positivity) infinityValue_pos.le) (fun h => min_le_min_right _ (hk.mono hj h))
    (fun h => min_le_min_right _ (hj.mono hk h)) (hzero hk) (hzero hj)

theorem nonneg (h : IsRounded x r) (hr : 0 ≤ r) : 0 ≤ exactValue x := by
  have hzero := self isFinite_zero
  rw [exactValue_zero] at hzero
  have hle := float_le_iff.1 (hzero.le_of_le h hr)
  rw [exactValue_zero] at hle
  exact hle.2.2

theorem exactValue_eq (h : IsRounded x r) (hr : IsDoubleValue |r|) (hlt : |r| ≤ infinityValue) : exactValue x = r := by
  obtain ⟨-, negative, k, q, hk, hsign, hvalue⟩ := h
  rw [hvalue, hk.eq_of_isDoubleValue hr, min_eq_left hlt, hsign]

end IsRounded

theorem isRounded_ofNat {n : ℕ} (h : (n : ℚ) ≤ maxDouble) : IsRounded (Float.ofNat n) n :=
  .of_rounds (rounds_float_ofNat h) n.cast_nonneg

end Calculator.Number
