/-!
# Rounding a quotient

* `divNearest n d` : the integer nearest to `n / d`, a tie going to the even one.
* `divNearest_mul` : a whole quotient is kept.
-/

namespace Calculator.Number

set_option autoImplicit false

/-- The integer nearest to `n / d`; half a unit goes to the even neighbour. -/
def divNearest (n d : Nat) : Nat :=
  if 2 * (n % d) < d then n / d
  else if d < 2 * (n % d) then n / d + 1
  else n / d + n / d % 2

theorem divNearest_mul (n : Nat) {d : Nat} (h : 0 < d) : divNearest (n * d) d = n := by
  simp [divNearest, Nat.mul_div_cancel n h, h]

end Calculator.Number
