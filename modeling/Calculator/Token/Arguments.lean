import Calculator.Text.Basic

/-!
# Argument lists

`splitArguments` : the arguments up to the parenthesis that closes the list, and what follows it. A comma separates
arguments where no inner parenthesis is open.

* `length_splitArguments` : what follows is shorter.
-/

namespace Calculator

set_option autoImplicit false

/-- Puts `c` in front of the first argument. -/
def ontoFirst (c : Char) : List Text × Text → List Text × Text
  | (a :: args, after) => ((c :: a) :: args, after)
  | ([], after) => ([[c]], after)

/-- Splits what stands behind an opening parenthesis, with `inner` more of them open. -/
def splitArguments : (inner : Nat) → Text → Option (List Text × Text)
  | _, [] => none
  | inner, '(' :: rest => (splitArguments (inner + 1) rest).map (ontoFirst '(')
  | 0, ')' :: rest => some ([[]], rest)
  | inner + 1, ')' :: rest => (splitArguments inner rest).map (ontoFirst ')')
  | 0, ',' :: rest => (splitArguments 0 rest).map fun r => ([] :: r.1, r.2)
  | inner, c :: rest => (splitArguments inner rest).map (ontoFirst c)

theorem ontoFirst_snd (c : Char) (r : List Text × Text) : (ontoFirst c r).2 = r.2 := by
  obtain ⟨args, after⟩ := r
  cases args <;> rfl

theorem length_splitArguments {inner : Nat} {t : Text} {r : List Text × Text} (h : splitArguments inner t = some r) :
    r.2.length < t.length := by
  fun_induction splitArguments inner t generalizing r with
  | case1 => simp at h
  | case2 inner rest ih | case4 inner rest ih | case6 inner c rest _ _ _ _ ih =>
    obtain ⟨s, hs, rfl⟩ := Option.map_eq_some_iff.1 h
    rw [ontoFirst_snd]
    exact Nat.lt_succ_of_lt (ih hs)
  | case3 rest => obtain rfl := Option.some.inj h; simp
  | case5 rest ih =>
    obtain ⟨s, hs, rfl⟩ := Option.map_eq_some_iff.1 h
    have := ih hs
    exact Nat.lt_succ_of_lt this

end Calculator
