import Calculator.Number.Rounding
import Mathlib.Algebra.Order.Field.Rat
import Mathlib.Algebra.Order.Ring.Abs
import Mathlib.Data.Nat.Cast.Order.Field
import Mathlib.Tactic.FieldSimp
import Mathlib.Tactic.Linarith
import Mathlib.Tactic.NormNum
import Mathlib.Tactic.Ring

/-!
# The nearest integer

* `IsNearest x n` : `n` is an integer nearest to `x`, the even one of two.
* `IsNearest.unique`, `divNearest_eq_iff` : there is one, and `divNearest` finds it.
* `IsNearest.of_lt`, `IsNearest.of_half` : what is nearest.
* `IsNearest.of_abs_sub_le` : what lies no farther from `n` than a number that goes to `n` goes to `n` too.
* `IsNearest.abs_sub_le_abs_sub` : no other integer is nearer.
-/

namespace Calculator.Number

set_option autoImplicit false

/-- `n` is the integer nearest to `x`; half a unit goes to the even neighbour. -/
structure IsNearest (x : ℚ) (n : ℕ) : Prop where
  within : |x - n| ≤ 1 / 2
  even_of_half : |x - n| = 1 / 2 → Even n

namespace IsNearest

variable {x y : ℚ} {m n : ℕ}

theorem unique (hm : IsNearest x m) (hn : IsNearest x n) : m = n := by
  by_contra hne
  wlog hlt : m < n generalizing m n
  · exact this hn hm (Ne.symm hne) (by omega)
  have hcast : (m : ℚ) + 1 ≤ n := by exact_mod_cast hlt
  have hm' := abs_le.1 hm.within
  have hn' := abs_le.1 hn.within
  have hm_even : Even m := hm.even_of_half (by rw [abs_of_nonneg] <;> linarith)
  have hn_even : Even n := hn.even_of_half (by rw [abs_of_nonpos] <;> linarith)
  have hsucc : n = m + 1 := by
    have : (n : ℚ) ≤ (m + 1 : ℕ) := by
      push_cast
      linarith
    have : n ≤ m + 1 := by exact_mod_cast this
    omega
  rw [hsucc, Nat.even_add_one] at hn_even
  exact hn_even hm_even

theorem mono (hm : IsNearest x m) (hn : IsNearest y n) (h : x ≤ y) : m ≤ n := by
  by_contra hlt
  have hcast : (n : ℚ) + 1 ≤ m := by exact_mod_cast not_le.1 hlt
  have hm' := abs_le.1 hm.within
  have hn' := abs_le.1 hn.within
  obtain rfl : x = y := h.antisymm (by linarith)
  exact hlt (hm.unique hn).le

theorem of_abs_sub_le (hy : IsNearest y n) (h : |x - n| ≤ |y - n|) : IsNearest x n where
  within := h.trans hy.within
  even_of_half hx := hy.even_of_half (le_antisymm hy.within (hx ▸ h))

theorem of_lt (h : |x - n| < 1 / 2) : IsNearest x n where
  within := h.le
  even_of_half hx := absurd hx h.ne

theorem of_half (h : x = n + 1 / 2) : IsNearest x (n + n % 2) := by
  have heven : Even (n + n % 2) := by
    rw [Nat.even_iff]
    omega
  refine ⟨?_, fun _ => heven⟩
  rcases Nat.mod_two_eq_zero_or_one n with hn | hn <;> rw [h, hn, abs_le] <;> push_cast <;> constructor <;> linarith

/-- The neighbours of `n` are farther away than half a unit, or as far. -/
theorem abs_sub_le_abs_sub (hn : IsNearest x n) (j : ℤ) : |x - n| ≤ |x - j| := by
  rcases eq_or_ne (n : ℤ) j with rfl | hj
  · simp
  have hone : (1 : ℚ) ≤ |(n : ℚ) - j| := by
    have : 1 ≤ |(n : ℤ) - j| := Int.one_le_abs (sub_ne_zero.2 hj)
    exact_mod_cast this
  have hsum := abs_sub_le (n : ℚ) x j
  rw [abs_sub_comm (n : ℚ) x] at hsum
  have := hn.within
  linarith

theorem le_of_le {b : ℕ} (hn : IsNearest x n) (h : x ≤ b) : n ≤ b := by
  by_contra hlt
  have hcast : (b : ℚ) + 1 ≤ n := by exact_mod_cast not_le.1 hlt
  have := abs_le.1 hn.within
  linarith

theorem ge_of_ge {a : ℕ} (hn : IsNearest x n) (h : a ≤ x) : a ≤ n := by
  by_contra hlt
  have hcast : (n : ℚ) + 1 ≤ a := by exact_mod_cast not_le.1 hlt
  have := abs_le.1 hn.within
  linarith

end IsNearest

theorem abs_sub_mul {unit : ℚ} (hunit : 0 < unit) (x y : ℚ) : |x - y * unit| = |x / unit - y| * unit := by
  rw [← abs_of_pos hunit, ← abs_mul, abs_of_pos hunit, sub_mul, div_mul_cancel₀ _ hunit.ne']

/-! ## Quotients -/

variable {n d r : ℕ}

theorem div_eq_add_mod_div (n : ℕ) (hd : 0 < d) : (n : ℚ) / d = (n / d : ℕ) + (n % d : ℕ) / d := by
  have hd' : (d : ℚ) ≠ 0 := by exact_mod_cast hd.ne'
  rw [eq_comm, add_div' _ _ _ hd']
  congr 1
  exact_mod_cast Nat.div_add_mod' n d

theorem isNearest_divNearest (n : ℕ) (hd : 0 < d) : IsNearest (n / d) (divNearest n d) := by
  have hd' : (0 : ℚ) < d := by exact_mod_cast hd
  have hmod := div_eq_add_mod_div n hd
  have hlt : ((n % d : ℕ) : ℚ) / d < 1 := by
    rw [div_lt_one hd']
    exact_mod_cast Nat.mod_lt n hd
  have hnonneg : (0 : ℚ) ≤ (n % d : ℕ) / d := by positivity
  unfold divNearest
  split_ifs with hlow hhigh
  · have hhalf : ((n % d : ℕ) : ℚ) / d < 1 / 2 := by
      rw [div_lt_iff₀ hd']
      have : (2 : ℚ) * (n % d : ℕ) < d := by exact_mod_cast hlow
      linarith
    refine IsNearest.of_lt ?_
    rw [hmod, abs_lt]
    constructor <;> linarith
  · have hhalf : 1 / 2 < ((n % d : ℕ) : ℚ) / d := by
      rw [lt_div_iff₀ hd']
      have : (d : ℚ) < 2 * (n % d : ℕ) := by exact_mod_cast hhigh
      linarith
    refine IsNearest.of_lt ?_
    rw [hmod, abs_lt]
    push_cast
    constructor <;> linarith
  · refine IsNearest.of_half ?_
    rw [hmod, add_right_inj, div_eq_iff hd'.ne']
    have : (2 : ℚ) * (n % d : ℕ) = d := by exact_mod_cast (by omega : 2 * (n % d) = d)
    linarith

theorem divNearest_eq_iff (hd : 0 < d) : divNearest n d = r ↔ IsNearest (n / d) r := by
  constructor
  · rintro rfl
    exact isNearest_divNearest n hd
  · exact (isNearest_divNearest n hd).unique

end Calculator.Number
