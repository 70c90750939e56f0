import Mathlib.Data.List.Infix
import Mathlib.Data.Nat.Count
import Calculator.Token.Lexeme

/-!
# Argument lists

The list of a call ends at the first parenthesis that closes one more than were opened behind it, and the commas outside
inner parentheses separate its arguments.

* `nesting` : how many more parentheses a text opens than it closes; `Balanced`, `outerCommas` read it at every place.
* `IsArgument` : what stands between two of the separating commas; `Separated` : all that they separate.
* `exists_of_splitArguments` : what `splitArguments` finds; `nonneg_of_splitArguments` : when it finds nothing.
* `ClosesAt` : the text up to the end of the list.
* `argumentsAt_splits` : the list that opens at a place of a text is split there, or is not closed.
-/

namespace Calculator

set_option autoImplicit false

/-! ## Nesting -/

namespace Text

/-- How many more parentheses the text opens than it closes. -/
def nesting (t : Text) : Int := t.count '(' - t.count ')'

def weight (c : Char) : Int := if c = '(' then 1 else if c = ')' then -1 else 0

/-- Behind `inner` open parentheses, the text closes these and its own and no others. -/
structure Balanced (inner : Int) (t : Text) : Prop where
  nonneg : ∀ p : Text, p <+: t → 0 ≤ inner + nesting p
  total : inner + nesting t = 0

/-- The number of the commas where, behind `inner` open parentheses, none is open any more. -/
def outerCommas (inner : Int) (t : Text) : Nat :=
  Nat.count (fun i => t[i]? = some ',' ∧ inner + nesting (t.take i) = 0) t.length

/-- Behind `inner` open parentheses, the text is what remains of an argument. -/
structure IsArgument (inner : Int) (t : Text) : Prop where
  balanced : Balanced inner t
  outerCommas_eq_zero : outerCommas inner t = 0

variable {inner : Int} {c : Char} {t : Text}

theorem weight_of_ne (hopening : c ≠ '(') (hclosing : c ≠ ')') : weight c = 0 := by
  simp [weight, hopening, hclosing]

theorem add_weight_closing (inner : Nat) : (inner + 1 : Nat) + weight ')' = inner := by
  have hweight : weight ')' = -1 := rfl
  omega

@[simp] theorem nesting_nil : nesting [] = 0 := rfl

theorem nesting_cons (c : Char) (t : Text) : nesting (c :: t) = weight c + nesting t := by
  unfold nesting weight
  rw [List.count_cons, List.count_cons]
  by_cases hopening : c = '('
  · subst hopening
    simp
    omega
  · by_cases hclosing : c = ')'
    · subst hclosing
      simp
      omega
    · simp [hopening, hclosing]

theorem nesting_concat_closing (t : Text) : nesting (t ++ [')']) = nesting t - 1 := by
  unfold nesting
  rw [List.count_append, List.count_append]
  simp
  omega

theorem nonneg_nil (hinner : 0 ≤ inner) : ∀ p : Text, p <+: [] → 0 ≤ inner + nesting p := by
  intro p hp
  simpa [List.prefix_nil.1 hp] using hinner

theorem nonneg_cons (h : ∀ p : Text, p <+: t → 0 ≤ inner + weight c + nesting p) (hinner : 0 ≤ inner) :
    ∀ p : Text, p <+: c :: t → 0 ≤ inner + nesting p := by
  intro p hp
  rcases List.prefix_cons_iff.1 hp with rfl | ⟨q, rfl, hq⟩
  · simpa using hinner
  · have hq' := h q hq
    rw [nesting_cons]
    omega

theorem balanced_nil : Balanced 0 [] := ⟨nonneg_nil (Int.le_refl 0), rfl⟩

theorem Balanced.cons (h : Balanced (inner + weight c) t) (hinner : 0 ≤ inner) : Balanced inner (c :: t) where
  nonneg := nonneg_cons h.nonneg hinner
  total := by
    have htotal := h.total
    rw [nesting_cons]
    omega

theorem outerCommas_cons (inner : Int) (c : Char) (t : Text) : outerCommas inner (c :: t) =
    outerCommas (inner + weight c) t + if c = ',' ∧ inner = 0 then 1 else 0 := by
  unfold outerCommas
  rw [List.length_cons, Nat.count_succ']
  simp only [List.getElem?_cons_succ, List.take_succ_cons, nesting_cons, Int.add_assoc]
  simp

theorem isArgument_nil : IsArgument 0 [] := ⟨balanced_nil, rfl⟩

theorem IsArgument.cons (h : IsArgument (inner + weight c) t) (hinner : 0 ≤ inner) (hc : ¬(c = ',' ∧ inner = 0)) :
    IsArgument inner (c :: t) where
  balanced := h.balanced.cons hinner
  outerCommas_eq_zero := by rw [outerCommas_cons, h.outerCommas_eq_zero, if_neg hc]

end Text

/-! ## Splitting -/

open Text

/-- The arguments are what the commas of `u` separate where, behind `inner` open parentheses, none is open any more. -/
structure Separated (inner : Int) (u : Text) (arguments : List Text) : Prop where
  joined : [','].intercalate arguments = u
  balanced : Balanced inner u
  length_eq : arguments.length = outerCommas inner u + 1
  first : IsArgument inner (arguments.headD [])
  others : ∀ a ∈ arguments.tail, IsArgument 0 a

section Splitting

variable {inner : Int} {c : Char} {t u after : Text} {arguments : List Text}

theorem separated_nil : Separated 0 [] [[]] where
  joined := rfl
  balanced := balanced_nil
  length_eq := rfl
  first := isArgument_nil
  others := List.forall_mem_nil _

theorem Separated.exists_cons (h : Separated inner u arguments) : ∃ first others, arguments = first :: others :=
  List.exists_cons_of_length_eq_add_one h.length_eq

/-- A character that separates nothing belongs to the first argument. -/
theorem Separated.cons (h : Separated (inner + weight c) u arguments) (hinner : 0 ≤ inner)
    (hc : ¬(c = ',' ∧ inner = 0)) : Separated inner (c :: u) (ontoFirst c (arguments, after)).1 := by
  obtain ⟨first, others, rfl⟩ := h.exists_cons
  refine ⟨?_, h.balanced.cons hinner, ?_, h.first.cons hinner hc, h.others⟩
  · rw [← h.joined]
    cases others <;> rfl
  · rw [outerCommas_cons, if_neg hc]
    exact h.length_eq

/-- Where no parenthesis is open in front, all arguments are read from their beginning. -/
theorem Separated.forall_isArgument (h : Separated 0 u arguments) : ∀ a ∈ arguments, IsArgument 0 a := by
  obtain ⟨first, others, rfl⟩ := h.exists_cons
  intro a ha
  rcases List.mem_cons.1 ha with rfl | ha
  · exact h.first
  · exact h.others a ha

theorem Separated.comma (h : Separated 0 u arguments) : Separated 0 (',' :: u) ([] :: arguments) where
  joined := by
    obtain ⟨first, others, rfl⟩ := h.exists_cons
    rw [← h.joined]
    rfl
  balanced := Balanced.cons h.balanced (Int.le_refl 0)
  length_eq := by
    rw [outerCommas_cons, if_pos ⟨rfl, rfl⟩, List.length_cons, h.length_eq]
    rfl
  first := isArgument_nil
  others := h.forall_isArgument

/-- What is split behind a character `c` that separates nothing is split with it. -/
theorem exists_separated_cons {behind : Int} {r : List Text × Text} (hbehind : behind = inner + weight c)
    (h : ∃ u, t = u ++ ')' :: r.2 ∧ Separated behind u r.1) (hinner : 0 ≤ inner) (hc : ¬(c = ',' ∧ inner = 0)) :
    ∃ u, c :: t = u ++ ')' :: (ontoFirst c r).2 ∧ Separated inner u (ontoFirst c r).1 := by
  obtain ⟨u, rfl, hu⟩ := h
  subst hbehind
  exact ⟨c :: u, by rw [ontoFirst_snd]; rfl, hu.cons hinner hc⟩

end Splitting

theorem ne_closing {inner : Nat} {c : Char} (hzero : inner = 0 → c = ')' → False)
    (hsucc : ∀ n, inner = n + 1 → c = ')' → False) : c ≠ ')' := by
  cases inner with
  | zero => exact hzero rfl
  | succ n => exact hsucc n rfl

/-- The list ends in front of what follows it, and its arguments are separated. -/
theorem exists_of_splitArguments {inner : Nat} {t : Text} {r : List Text × Text}
    (h : splitArguments inner t = some r) : ∃ u, t = u ++ ')' :: r.2 ∧ Separated inner u r.1 := by
  fun_induction splitArguments inner t generalizing r with
  | case1 => cases h
  | case2 inner rest ih =>
    obtain ⟨s, hs, rfl⟩ := Option.map_eq_some_iff.1 h
    exact exists_separated_cons rfl (ih hs) (by omega) (by simp)
  | case3 rest =>
    obtain rfl := Option.some.inj h
    exact ⟨[], rfl, separated_nil⟩
  | case4 inner rest ih =>
    obtain ⟨s, hs, rfl⟩ := Option.map_eq_some_iff.1 h
    exact exists_separated_cons (add_weight_closing inner).symm (ih hs) (by omega) (by simp)
  | case5 rest ih =>
    obtain ⟨s, hs, rfl⟩ := Option.map_eq_some_iff.1 h
    obtain ⟨u, rfl, hu⟩ := ih hs
    exact ⟨',' :: u, rfl, hu.comma⟩
  | case6 inner c rest hopening hclosing hclosing' hcomma ih =>
    obtain ⟨s, hs, rfl⟩ := Option.map_eq_some_iff.1 h
    have hbehind : (inner : Int) = inner + weight c := by
      rw [weight_of_ne hopening (ne_closing hclosing hclosing'), Int.add_zero]
    refine exists_separated_cons hbehind (ih hs) (by omega) ?_
    rintro ⟨rfl, hinner⟩
    exact hcomma (by omega) rfl

/-- What cannot be split closes nothing that was opened in front of it. -/
theorem nonneg_of_splitArguments {inner : Nat} {t : Text} (h : splitArguments inner t = none) :
    ∀ p : Text, p <+: t → 0 ≤ inner + nesting p := by
  fun_induction splitArguments inner t with
  | case1 inner => exact nonneg_nil (by omega)
  | case2 inner rest ih => exact nonneg_cons (ih (Option.map_eq_none_iff.1 h)) (by omega)
  | case3 rest => cases h
  | case4 inner rest ih =>
    refine nonneg_cons ?_ (by omega)
    rw [add_weight_closing]
    exact ih (Option.map_eq_none_iff.1 h)
  | case5 rest ih => exact nonneg_cons (ih (Option.map_eq_none_iff.1 h)) (by omega)
  | case6 inner c rest hopening hclosing hclosing' hcomma ih =>
    refine nonneg_cons ?_ (by omega)
    rw [weight_of_ne hopening (ne_closing hclosing hclosing'), Int.add_zero]
    exact ih (Option.map_eq_none_iff.1 h)

/-! ## Lists in a text -/

/-- The list whose opening parenthesis stands in front of `t` is `u`: with the parenthesis behind it, `u` is the
shortest beginning of `t` that closes one parenthesis more than it opens. -/
structure ClosesAt (t u : Text) : Prop where
  isPrefix : u ++ [')'] <+: t
  nesting_eq : nesting (u ++ [')']) = -1
  shortest : ∀ p : Text, p <+: t → nesting p = -1 → u.length < p.length

theorem closesAt_of_balanced {u after : Text} (h : Balanced 0 u) : ClosesAt (u ++ ')' :: after) u where
  isPrefix := ⟨after, by simp⟩
  nesting_eq := by
    have htotal := h.total
    rw [nesting_concat_closing]
    omega
  shortest p hp hnesting := by
    by_contra hshort
    have hu : p <+: u := List.prefix_of_prefix_length_le hp (List.prefix_append u _) (by omega)
    have hnonneg := h.nonneg p hu
    omega

/-- **An argument list is split exactly.** -/
theorem argumentsAt_splits (text : Text) (opening : Nat) :
    ((∃ p : Text, p <+: text.drop (opening + 1) ∧ nesting p = -1) →
      ∃ u arguments, ClosesAt (text.drop (opening + 1)) u ∧
        argumentsAt text opening = .ok (arguments, opening + 2 + u.length) ∧
        [','].intercalate arguments = u ∧ (∀ a ∈ arguments, Balanced 0 a ∧ outerCommas 0 a = 0) ∧
        arguments.length = outerCommas 0 u + 1) ∧
    ((∀ p : Text, p <+: text.drop (opening + 1) → nesting p ≠ -1) →
      ∃ e, argumentsAt text opening = .error e ∧ e.kind = .unmatchedParenthesis) := by
  unfold argumentsAt
  cases hsplit : splitArguments 0 (text.drop (opening + 1)) with
  | none =>
    have hnonneg := nonneg_of_splitArguments hsplit
    refine ⟨?_, fun _ => ⟨_, rfl, rfl⟩⟩
    rintro ⟨p, hp, hclosed⟩
    have := hnonneg p hp
    omega
  | some r =>
    obtain ⟨arguments, after⟩ := r
    obtain ⟨u, hu, hseparated⟩ := exists_of_splitArguments hsplit
    have hclosesAt : ClosesAt (text.drop (opening + 1)) u := hu ▸ closesAt_of_balanced hseparated.balanced
    refine ⟨fun _ => ⟨u, arguments, hclosesAt, ?_, hseparated.joined, ?_, hseparated.length_eq⟩, fun hnever => ?_⟩
    · have hlength := congrArg List.length hu
      simp only [List.length_drop, List.length_append, List.length_cons] at hlength
      have hstop : text.length - after.length = opening + 2 + u.length := by omega
      exact congrArg (fun stop => Except.ok (arguments, stop)) hstop
    · intro a ha
      obtain ⟨hbalanced, hcommas⟩ := hseparated.forall_isArgument a ha
      exact ⟨hbalanced, hcommas⟩
    · exact absurd hclosesAt.nesting_eq (hnever _ hclosesAt.isPrefix)

/-- A comma inside an inner call separates nothing. -/
example : argumentsAt "hypot(logb(8,2),4)+1".toList 5 = .ok (["logb(8,2)".toList, "4".toList], 18) := by decide

end Calculator
