import Calculator.Proofs.Doubles
import Calculator.Proofs.Nearest
import Mathlib.Algebra.Order.Field.Power
import Mathlib.Tactic.GCongr
import Mathlib.Tactic.Positivity

/-!
# The nearest double

* `RoundsTo r k q` : `k` units of `2 ^ q` are the double nearest to `r`, and `q` is the exponent of the doubles around it.
* `IsDoubleValue`, `RoundsTo.abs_sub_le` : no double is nearer to `r`.
* `Describes` : what a mantissa with its two residual bits says about a number.
* `ofUnpacked_roundWithAccuracy` : the logic rounds to the nearest double.
-/

namespace Calculator.Number

set_option autoImplicit false

open Float.Model (UnpackedFloat totalExponent)
open Float.Model.Format (binary64)
open Float.Model.UnpackedFloat (Sign Accuracy ExtendedMantissa roundWithAccuracy shiftToTargetExponent shiftToExponent)
open Binary (ofUnpacked)

/-- The value of a double without its sign, as far as it is not too large. -/
def IsDoubleValue (w : ℚ) : Prop := ∃ (m : ℕ) (q : ℤ), m < 2 ^ 53 ∧ -1074 ≤ q ∧ w = m * 2 ^ q

/-- `k` units of `2 ^ q` are the double nearest to `r`. -/
structure RoundsTo (r : ℚ) (k : ℕ) (q : ℤ) : Prop where
  least : -1074 ≤ q
  full : 2 ^ 52 * 2 ^ q ≤ r ∨ q = -1074
  fits : r < 2 ^ 53 * 2 ^ q
  nearest : IsNearest (r / 2 ^ q) k

namespace RoundsTo

variable {r : ℚ} {k : ℕ} {q : ℤ}

theorem le_two_pow (h : RoundsTo r k q) : k ≤ 2 ^ 53 := by
  refine h.nearest.le_of_le ?_
  rw [div_le_iff₀ (by positivity)]
  exact_mod_cast h.fits.le

theorem full_mantissa (h : RoundsTo r k q) : 2 ^ 52 ≤ k ∨ q = -1074 := by
  refine h.full.imp_left fun hfull => h.nearest.ge_of_ge ?_
  rw [le_div_iff₀ (by positivity)]
  exact_mod_cast hfull

theorem abs_sub_le_of_multiple (h : RoundsTo r k q) (j : ℤ) : |r - k * 2 ^ q| ≤ |r - j * 2 ^ q| := by
  have hpos : (0 : ℚ) < 2 ^ q := by positivity
  rw [abs_sub_mul hpos, abs_sub_mul hpos]
  exact mul_le_mul_of_nonneg_right (h.nearest.abs_sub_le_abs_sub j) hpos.le

theorem abs_sub_le_half (h : RoundsTo r k q) : |r - k * 2 ^ q| ≤ 2 ^ q / 2 := by
  have hpos : (0 : ℚ) < 2 ^ q := by positivity
  rw [abs_sub_mul hpos]
  linarith [mul_le_mul_of_nonneg_right h.nearest.within hpos.le]

theorem abs_sub_le (h : RoundsTo r k q) {w : ℚ} (hw : IsDoubleValue w) : |r - k * 2 ^ q| ≤ |r - w| := by
  obtain ⟨m, p, hm, hp, rfl⟩ := hw
  rcases le_or_gt q p with hqp | hqp
  · obtain ⟨n, hn⟩ := Int.eq_ofNat_of_zero_le (sub_nonneg.2 hqp)
    have hmultiple : (m : ℚ) * 2 ^ p = ((m * 2 ^ n : ℕ) : ℤ) * 2 ^ q := by
      rw [show p = n + q by omega, zpow_add₀ two_ne_zero, zpow_natCast]
      push_cast
      ring
    rw [hmultiple]
    exact h.abs_sub_le_of_multiple _
  · -- below the doubles with the exponent of `r` all others are farther away than the least of them
    have hleast : (2 : ℚ) ^ 52 * 2 ^ q ≤ r := h.full.resolve_right (by omega)
    have hbelow : (m : ℚ) * 2 ^ p ≤ 2 ^ 52 * 2 ^ q := by
      have hm' : (m : ℚ) ≤ 2 ^ 53 := by exact_mod_cast hm.le
      have hpq : (2 : ℚ) ^ p ≤ 2 ^ (q - 1) := zpow_le_zpow_right₀ (by norm_num) (by omega)
      calc (m : ℚ) * 2 ^ p ≤ 2 ^ 53 * 2 ^ (q - 1) := by gcongr
        _ = 2 ^ 52 * 2 ^ q := by
          rw [zpow_sub_one₀ two_ne_zero]
          ring
    have hnear := h.abs_sub_le_of_multiple ((2 ^ 52 : ℕ) : ℤ)
    rw [Int.cast_natCast, Nat.cast_pow, Nat.cast_ofNat] at hnear
    rw [abs_of_nonneg (by linarith : 0 ≤ r - 2 ^ 52 * 2 ^ q)] at hnear
    rw [abs_of_nonneg (by linarith : 0 ≤ r - m * 2 ^ p)]
    linarith

theorem eq_of_isDoubleValue (h : RoundsTo r k q) (hr : IsDoubleValue r) : (k * 2 ^ q : ℚ) = r := by
  have := h.abs_sub_le hr
  rw [sub_self, abs_zero, abs_nonpos_iff, sub_eq_zero] at this
  exact this.symm

/-- Rounding does not pass a double. -/
theorem ge_of_isDoubleValue (h : RoundsTo r k q) {w : ℚ} (hw : IsDoubleValue w) (hwr : w ≤ r) : w ≤ k * 2 ^ q := by
  by_contra hlt
  have hnear := h.abs_sub_le hw
  rw [abs_of_nonneg (by linarith), abs_of_nonneg (by linarith)] at hnear
  linarith

theorem isDoubleValue (h : RoundsTo r k q) : IsDoubleValue (k * 2 ^ q) := by
  rcases h.le_two_pow.lt_or_eq with hk | hk
  · exact ⟨k, q, hk, h.least, rfl⟩
  · refine ⟨2 ^ 52, q + 1, by norm_num, by have := h.least; omega, ?_⟩
    rw [hk, zpow_add_one₀ two_ne_zero]
    push_cast
    ring

end RoundsTo

/-! ## Mantissas with residual bits -/

/-- The mantissa is the whole part of `x`, and the bits compare the rest with a half. -/
def Describes (em : ExtendedMantissa) (x : ℚ) : Prop :=
  match em.roundBit, em.stickyBit with
  | false, false => x = em.mantissa
  | false, true => em.mantissa < x ∧ x < em.mantissa + 1 / 2
  | true, false => x = em.mantissa + 1 / 2
  | true, true => em.mantissa + 1 / 2 < x ∧ x < em.mantissa + 1

namespace Describes

variable {em : ExtendedMantissa} {x : ℚ}

theorem floor_le (h : Describes em x) : em.mantissa ≤ x ∧ x < em.mantissa + 1 := by
  obtain ⟨m, round, sticky⟩ := em
  cases round <;> cases sticky <;> simp only [Describes] at h <;> constructor <;> linarith

theorem isNearest (h : Describes em x) : IsNearest x em.roundedMantissa := by
  obtain ⟨m, round, sticky⟩ := em
  cases round <;> cases sticky <;> simp only [Describes] at h
  · show IsNearest x m
    exact IsNearest.of_lt (by rw [h, sub_self, abs_zero]; norm_num)
  · show IsNearest x m
    exact IsNearest.of_lt (abs_lt.2 ⟨by linarith, by linarith⟩)
  · exact IsNearest.of_half h
  · show IsNearest x (m + 1 : ℕ)
    refine IsNearest.of_lt (abs_lt.2 ?_)
    push_cast
    constructor <;> linarith

theorem shiftRightOne (h : Describes em x) : Describes em.shiftRightOne (x / 2) := by
  obtain ⟨m, round, sticky⟩ := em
  have hm : (m : ℚ) = 2 * (m / 2 : ℕ) + (m % 2 : ℕ) := by exact_mod_cast (Nat.div_add_mod m 2).symm
  rcases Nat.mod_two_eq_zero_or_one m with hlast | hlast <;> rw [hlast] at hm <;> push_cast at hm <;>
    cases round <;> cases sticky <;> simp only [Describes] at h <;>
    simp only [Describes, ExtendedMantissa.shiftRightOne, hlast, bne_self_eq_false, Nat.reduceBNe, Bool.or_false,
      Bool.or_true, Bool.or_self]
  case inl.false.false => linarith
  case inr.false.false => linarith
  all_goals constructor <;> linarith

theorem shiftRight (h : Describes em x) (n : ℕ) : Describes (em >>> n) (x / 2 ^ n) := by
  induction n with
  | zero =>
    rw [pow_zero, div_one]
    exact h
  | succ n ih =>
    rw [pow_succ, ← div_div]
    exact ih.shiftRightOne

end Describes

/-! ## Rounding -/

/-- The exponent of the doubles around `m * 2 ^ e`. -/
def target (m : ℕ) (e : ℤ) : ℤ := max (m.log2 + e - 52) (-1074)

/-- `k` units of `2 ^ q` as the parts of a double. -/
def roundedParts (negative : Bool) (k : ℕ) (q : ℤ) : Binary :=
  if k = 2 ^ 53 then .finite negative (2 ^ 52) (q + 1) else .finite negative k q

section Round

variable {m : ℕ} {e : ℤ} {acc : Accuracy} {x : ℚ}

theorem targetExponent_eq : binary64.targetExponent (totalExponent m e) = target m e := by
  show max ((m.log2 : ℤ) + 1 + e - 53) (-1074) = _
  rw [target]
  congr 1
  omega

theorem shiftToTargetExponent_eq (he : e ≤ target m e) : shiftToTargetExponent binary64 m e acc =
    (ExtendedMantissa.ofMantissaAndAccuracy m acc >>> (target m e - e).toNat, target m e) := by
  unfold shiftToTargetExponent shiftToExponent
  rw [targetExponent_eq]
  refine Prod.ext rfl ?_
  show e + ((target m e - e).toNat : ℤ) = target m e
  omega

/-- The exponent is the one of the doubles around the number. -/
theorem bounds_of_target (he : e ≤ target m e) (hx : m ≤ x ∧ x < m + 1) :
    (2 ^ 52 * 2 ^ target m e ≤ x * 2 ^ e ∨ target m e = -1074) ∧ x * 2 ^ e < 2 ^ 53 * 2 ^ target m e := by
  have hlog : m < 2 ^ (m.log2 + 1) := Nat.lt_log2_self
  have hupper : x < 2 ^ (m.log2 + 1) := by
    have : ((m + 1 : ℕ) : ℚ) ≤ (2 ^ (m.log2 + 1) : ℕ) := by exact_mod_cast hlog
    push_cast at this
    linarith
  constructor
  · rcases max_choice ((m.log2 : ℤ) + e - 52) (-1074) with h | h
    · left
      have hm : m ≠ 0 := by
        rintro rfl
        unfold target at he
        simp at he h
        omega
      have hlower : (2 : ℚ) ^ m.log2 ≤ x := by
        have : ((2 ^ m.log2 : ℕ) : ℚ) ≤ m := by exact_mod_cast Nat.log2_self_le hm
        push_cast at this
        linarith
      calc (2 : ℚ) ^ 52 * 2 ^ target m e = 2 ^ m.log2 * 2 ^ e := by
            rw [target, h, zpow_sub₀ two_ne_zero, zpow_add₀ two_ne_zero]
            norm_cast
            field_simp
        _ ≤ x * 2 ^ e := by gcongr
    · exact .inr h
  · have hexponent : (m.log2 : ℤ) + 1 + e ≤ 53 + target m e := by
      unfold target
      omega
    calc x * 2 ^ e < 2 ^ (m.log2 + 1) * 2 ^ e := by gcongr
      _ = (2 : ℚ) ^ ((m.log2 : ℤ) + 1 + e) := by
        rw [zpow_add₀ two_ne_zero]
        norm_cast
      _ ≤ 2 ^ (53 + target m e) := zpow_le_zpow_right₀ (by norm_num) hexponent
      _ = 2 ^ 53 * 2 ^ target m e := by
        rw [zpow_add₀ two_ne_zero]
        rfl

/-- A rounded mantissa keeps its exponent, unless it has become a power of two of one digit more. -/
theorem shiftToTargetExponent_again {k : ℕ} {t : ℤ} (hk : k ≤ 2 ^ 53) (ht : -1074 ≤ t)
    (hfull : 2 ^ 52 ≤ k ∨ t = -1074) : shiftToTargetExponent binary64 k t .exact =
      if k = 2 ^ 53 then (⟨2 ^ 52, false, false⟩, t + 1) else (⟨k, false, false⟩, t) := by
  split_ifs with htop
  · have htarget : target k t = t + 1 := by
      rw [target, htop, Nat.log2_two_pow]
      omega
    rw [shiftToTargetExponent_eq (by omega), htarget, add_sub_cancel_left, htop]
    rfl
  · have htarget : target k t = t := by
      have hlog : k.log2 ≤ 52 := by
        rcases eq_or_ne k 0 with rfl | hzero
        · decide
        · have := (Nat.log2_lt hzero).2 (by omega : k < 2 ^ 53)
          omega
      rw [target]
      rcases hfull with hfull | rfl
      · have := (Nat.le_log2 (by omega)).2 hfull
        omega
      · omega
    rw [shiftToTargetExponent_eq htarget.ge, htarget, sub_self]
    rfl

theorem ofUnpacked_roundWithAccuracy (s : Sign) (hx : Describes (.ofMantissaAndAccuracy m acc) x)
    (he : e ≤ target m e) : ∃ k, RoundsTo (x * 2 ^ e) k (target m e) ∧
      ofUnpacked (roundWithAccuracy binary64 s m e acc) = roundedParts (isMinus s) k (target m e) := by
  set t := target m e with ht
  set em := ExtendedMantissa.ofMantissaAndAccuracy m acc >>> (t - e).toNat with hem
  have hshift : x / 2 ^ (t - e).toNat = x * 2 ^ e / 2 ^ t := by
    rw [← zpow_natCast, Int.toNat_of_nonneg (by omega), zpow_sub₀ two_ne_zero]
    field_simp
  have hdescribes : Describes em (x * 2 ^ e / 2 ^ t) := hshift ▸ hx.shiftRight _
  have hmantissa : (ExtendedMantissa.ofMantissaAndAccuracy m acc).mantissa = m := by
    rcases acc with _ | (_ | _ | _) <;> rfl
  have hrounds : RoundsTo (x * 2 ^ e) em.roundedMantissa t := by
    obtain ⟨hfull, hfits⟩ := bounds_of_target he (hmantissa ▸ hx.floor_le)
    exact ⟨le_max_right _ _, hfull, hfits, hdescribes.isNearest⟩
  refine ⟨em.roundedMantissa, hrounds, ?_⟩
  have hfull : 2 ^ 52 ≤ em.roundedMantissa ∨ t = -1074 := hrounds.full_mantissa
  have hagain := shiftToTargetExponent_again hrounds.le_two_pow hrounds.least hfull
  unfold roundWithAccuracy
  rw [shiftToTargetExponent_eq he]
  dsimp only
  rw [← ht, ← hem, hagain]
  by_cases htop : em.roundedMantissa = 2 ^ 53
  · rw [roundedParts, if_pos htop, if_pos htop]
    rfl
  · rw [roundedParts, if_neg htop, if_neg htop]
    by_cases hzero : em.roundedMantissa = 0
    · rw [dif_pos hzero, hzero, hfull.resolve_left (by omega)]
      rfl
    · rw [dif_neg hzero]
      rfl

end Round

/-! ## Doubles of limited size -/

def maxDouble : ℚ := (2 ^ 53 - 1) * 2 ^ (971 : ℤ)

/-- `b` is the double nearest to `r`, with the given sign. -/
def Rounds (b : Binary) (negative : Bool) (r : ℚ) : Prop :=
  ∃ k q, RoundsTo r k q ∧ b = roundedParts negative k q

theorem RoundsTo.isDouble {r : ℚ} {k : ℕ} {q : ℤ} (h : RoundsTo r k q) (hr : r ≤ maxDouble) {negative negative' : Bool}
    {m : ℕ} {p : ℤ} (hparts : roundedParts negative k q = .finite negative' m p) : IsDouble m p := by
  have hk := h.le_two_pow
  have hq : q ≤ 971 := by
    rcases h.full with hfull | rfl
    · by_contra hlt
      have hpow : (2 : ℚ) ^ (971 + 1 : ℤ) ≤ 2 ^ q := zpow_le_zpow_right₀ (by norm_num) (by omega)
      rw [zpow_add_one₀ two_ne_zero] at hpow
      have hpos : (0 : ℚ) < 2 ^ (971 : ℤ) := by positivity
      have hle : (2 : ℚ) ^ 52 * 2 ^ q ≤ (2 ^ 53 - 1) * 2 ^ (971 : ℤ) := hfull.trans hr
      generalize (2 : ℚ) ^ (971 : ℤ) = unit at hpow hpos hle
      linarith
    · decide
  unfold roundedParts at hparts
  split at hparts
  · rename_i htop
    obtain ⟨-, rfl, rfl⟩ := Binary.finite.inj hparts
    have hq' : q ≠ 971 := by
      rintro rfl
      have hle : r / 2 ^ (971 : ℤ) ≤ (2 ^ 53 - 1 : ℕ) := by
        rw [div_le_iff₀ (by positivity)]
        exact hr.trans (by rw [maxDouble]; norm_num)
      have := h.nearest.le_of_le hle
      omega
    exact ⟨by norm_num, by have := h.least; omega, by omega, .inl le_rfl⟩
  · obtain ⟨-, rfl, rfl⟩ := Binary.finite.inj hparts
    exact ⟨by omega, h.least, hq, h.full_mantissa⟩

theorem roundedParts_eq (negative : Bool) (k : ℕ) (q : ℤ) :
    ∃ m p, roundedParts negative k q = .finite negative m p ∧ (m * 2 ^ p : ℚ) = k * 2 ^ q := by
  unfold roundedParts
  split
  · rename_i htop
    refine ⟨2 ^ 52, q + 1, rfl, ?_⟩
    rw [htop, zpow_add_one₀ two_ne_zero]
    push_cast
    ring
  · exact ⟨k, q, rfl, rfl⟩

theorem ofFloat_pack_of_rounds {u : UnpackedFloat} {negative : Bool} {r : ℚ} (h : Rounds (ofUnpacked u) negative r)
    (hr : r ≤ maxDouble) : Rounds (Binary.ofFloat (.ofModel (.pack u))) negative r := by
  obtain ⟨k, q, hk, hu⟩ := h
  have hpack : IsPackable u := fun _ _ _ hfinite => hk.isDouble hr (hu.symm.trans hfinite)
  exact ⟨k, q, hk, (ofFloat_pack hpack).trans hu⟩

end Calculator.Number
