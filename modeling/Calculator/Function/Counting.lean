import Calculator.Number.Elementary
import Calculator.Fault

/-!
# Counting

* `factorial` : exact, up to the largest one that a double can hold.
* `reportOf?` : the report about a factorial that has no value.
* `permutations`, `combinations` : of the whole parts of two doubles; zero where nothing can be chosen.
-/

namespace Calculator.Counting

set_option autoImplicit false

open Calculator.Number (ArithmeticFault toWhole)

/-- The factorial of the next number is too large for a double. -/
def factorialLimit : Nat := 170

def product : Nat → Nat
  | 0 => 1
  | n + 1 => (n + 1) * product n

def factorial (n : Int) : Except ArithmeticFault Nat :=
  if n < 0 then .error (.negativeFactorial n)
  else if factorialLimit < n then .error (.largeFactorial n)
  else .ok (product n.toNat)

/-- The report about a factorial that has no value. -/
def reportOf? : ArithmeticFault → Option Report
  | .negativeFactorial n =>
    some ⟨.calculation, "Factorial of negative number: ".toList ++ Text.decimalInt n, "3026".toList, none⟩
  | .largeFactorial n =>
    some ⟨.calculation, "Number too big for factorial: ".toList ++ Text.decimalInt n, "3026".toList, none⟩
  | _ => none

/-- The number of sequences of `r` out of `n`. -/
def permutations (n r : Float) : Except ArithmeticFault Float := do
  let n ← toWhole n
  let r ← toWhole r
  if n < 0 ∨ r < 0 ∨ n < r then return 0.0
  return Float.ofNat ((← factorial n) / (← factorial (n - r)))

/-- The number of sets of `r` out of `n`. -/
def combinations (n r : Float) : Except ArithmeticFault Float := do
  let n ← toWhole n
  let r ← toWhole r
  if n < 0 ∨ r < 0 ∨ n < r then return 0.0
  return Float.ofNat ((← factorial n) / ((← factorial r) * (← factorial (n - r))))

end Calculator.Counting
