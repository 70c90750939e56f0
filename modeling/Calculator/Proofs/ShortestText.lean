import Calculator.Proofs.ShortestDecimal

/-!
# The text of a double

* `Spelling.shortText`, `Spelling.IsDoubleForm` : the form in which doubles are written.
* `Leads r t e` : the digits `t`, the first of which has the exponent `e`, write `r`.
* `exists_placedText` : with its point placed, such a number is in that form.
* `exists_shortestText` : so is every finite double, and what it is written as stands for it.
-/

namespace Calculator

set_option autoImplicit false

open Calculator.Number
open Calculator.Text (decimal zeroFill dropTail)
open Spelling (pointText isDigit_decimal ofDigitChars_decimal)

/-! ## The form -/

namespace Spelling

/-- The exponent with its sign and a small mark, if there is one. -/
def signedMark : Option ℤ → Text
  | none => []
  | some e => 'e' :: exponentText e

/-- The number as a double is written. -/
def shortText (s : Spelling) : Text := s.whole ++ (pointText s.places ++ signedMark s.exponent)

/-- No zero leads but one that is alone, and a point or an exponent tells the number from a whole one. -/
structure IsDoubleForm (s : Spelling) : Prop where
  leading : s.whole.head? = some '0' → s.whole = ['0']
  fraction : s.places ≠ [] ∨ s.exponent ≠ none

end Spelling

/-! ## Digits -/

/-- The digits `t`, the first of which is no zero and has the exponent `e`, write `r`. -/
structure Leads (r : ℚ) (t : Text) (e : ℤ) : Prop where
  ne_nil : t ≠ []
  isDigit : ∀ c ∈ t, c.isDigit
  leading : t.head? ≠ some '0'
  value : (Nat.ofDigitChars 10 t 0 * 10 ^ (e + 1 - t.length) : ℚ) = r

theorem head?_decimal {n : ℕ} (hn : 0 < n) : (decimal n).head? ≠ some '0' := by
  induction n using Nat.strong_induction_on with
  | _ n ih =>
    rcases Nat.lt_or_ge n 10 with hlt | hge
    · unfold decimal
      rw [Nat.toDigits_of_lt_base hlt]
      interval_cases n <;> decide
    · have hsplit : decimal n = decimal (n / 10) ++ [Nat.digitChar (n % 10)] := Nat.toDigits_of_base_le (by decide) hge
      have hne : decimal (n / 10) ≠ [] := Nat.toDigits_ne_nil
      rw [hsplit, List.head?_append_of_ne_nil _ hne]
      exact ih (n / 10) (by omega) (by omega)

/-- The zeros at the end of a number are not needed. -/
theorem leads_dropTail {n : ℕ} (hn : 0 < n) (g : ℤ) :
    Leads (n * 10 ^ g) (dropTail (· == '0') (decimal n)) (g + (decimal n).length - 1) := by
  obtain ⟨k, hk⟩ := exists_replicate_zero (decimal n)
  have hvalue : n = 10 ^ k * Nat.ofDigitChars 10 (dropTail (· == '0') (decimal n)) 0 := by
    rw [← Nat.ofDigitChars_replicate_zero, ← Nat.ofDigitChars_append, ← hk, ofDigitChars_decimal]
  have hdigits : ∀ c ∈ dropTail (· == '0') (decimal n), c.isDigit := fun c hc => isDigit_decimal c (mem_of_mem_dropTail hc)
  have hlength : (decimal n).length = (dropTail (· == '0') (decimal n)).length + k := by
    rw [← List.length_replicate (n := k) (a := '0'), ← List.length_append, ← hk]
  have hhead := head?_decimal hn
  generalize dropTail (· == '0') (decimal n) = t at hk hvalue hdigits hlength
  have hne : t ≠ [] := by
    rintro rfl
    rw [Nat.ofDigitChars_nil, mul_zero] at hvalue
    omega
  refine ⟨hne, hdigits, ?_, ?_⟩
  · rwa [hk, List.head?_append_of_ne_nil _ hne] at hhead
  · have hscale : (g + (decimal n).length - 1 + 1 - t.length : ℤ) = k + g := by omega
    rw [hscale, zpow_add₀ (by norm_num), zpow_natCast, hvalue]
    push_cast
    ring

/-! ## The point -/

section Placed

variable {r : ℚ} {t : Text} {e : ℤ}

/-- With an exponent the point follows the first digit. -/
theorem exists_exponent_text (h : Leads r t e) (he : e < -4 ∨ 16 ≤ e) :
    ∃ s : Spelling, s.IsDoubleForm ∧ placedText t e = s.shortText ∧ s.value = r := by
  obtain ⟨d, rest, rfl⟩ := List.exists_cons_of_ne_nil h.ne_nil
  have hd : ∀ c ∈ [d], c.isDigit := fun c hc => h.isDigit c (by simp_all)
  have hrest : ∀ c ∈ rest, c.isDigit := fun c hc => h.isDigit c (List.mem_cons_of_mem _ hc)
  refine ⟨⟨[d], rest, some e, List.cons_ne_nil _ _, hd, hrest⟩, ⟨fun h0 => ?_, .inr nofun⟩, ?_, ?_⟩
  · exact congrArg (fun c => [c]) (Option.some.inj h0)
  · unfold placedText
    rw [if_pos he]
    cases rest <;> rfl
  · rw [← h.value, List.length_cons]
    show ((Nat.ofDigitChars 10 (d :: rest) 0 : ℕ) : ℚ) * 10 ^ (e - rest.length : ℤ) = _
    congr 2
    push_cast
    ring

/-- Below one zeros stand behind the point. -/
theorem exists_small_text (h : Leads r t e) (he : ¬(e < -4 ∨ 16 ≤ e)) (hneg : e < 0) :
    ∃ s : Spelling, s.IsDoubleForm ∧ placedText t e = s.shortText ∧ s.value = r := by
  set places := List.replicate (-e - 1).toNat '0' ++ t with hplaces
  have hdigits : ∀ c ∈ places, c.isDigit := by
    intro c hc
    rcases List.mem_append.1 hc with hc | hc
    · rw [List.eq_of_mem_replicate hc]
      decide
    · exact h.isDigit c hc
  have hne : places ≠ [] := List.append_ne_nil_of_right_ne_nil _ h.ne_nil
  refine ⟨⟨['0'], places, none, List.cons_ne_nil _ _, by simp, hdigits⟩, ⟨fun _ => rfl, .inl hne⟩, ?_, ?_⟩
  · unfold placedText
    rw [if_neg he, if_pos hneg]
    show '0' :: '.' :: places = ['0'] ++ (pointText places ++ [])
    obtain ⟨c, rest, hcons⟩ := List.exists_cons_of_ne_nil hne
    rw [hcons, List.append_nil]
    rfl
  · have hvalue : Nat.ofDigitChars 10 (['0'] ++ places) 0 = Nat.ofDigitChars 10 t 0 := by
      rw [hplaces, ← List.append_assoc, Nat.ofDigitChars_append]
      congr 1
      exact (Nat.ofDigitChars_replicate_zero (n := (-e - 1).toNat + 1)).trans (Nat.mul_zero _)
    have hscale : (0 - places.length : ℤ) = e + 1 - t.length := by
      rw [hplaces, List.length_append, List.length_replicate]
      omega
    show ((Nat.ofDigitChars 10 (['0'] ++ places) 0 : ℕ) : ℚ) * 10 ^ (0 - places.length : ℤ) = r
    rw [hvalue, hscale, h.value]

theorem placedText_of_nonneg (he : ¬(e < -4 ∨ 16 ≤ e)) (hpos : ¬e < 0) : placedText t e =
    (t ++ List.replicate (e.toNat + 1 - t.length) '0').take (e.toNat + 1) ++ '.' ::
      (if ((t ++ List.replicate (e.toNat + 1 - t.length) '0').drop (e.toNat + 1)).isEmpty then ['0']
        else (t ++ List.replicate (e.toNat + 1 - t.length) '0').drop (e.toNat + 1)) := by
  unfold placedText
  rw [if_neg he, if_neg hpos]

/-- With more digits than the whole part has, the point stands between them. -/
theorem exists_point_within (h : Leads r t e) (he : ¬(e < -4 ∨ 16 ≤ e)) (hpos : ¬e < 0)
    (hlt : e.toNat + 1 < t.length) : ∃ s : Spelling, s.IsDoubleForm ∧ placedText t e = s.shortText ∧ s.value = r := by
  have hhead : (t.take (e.toNat + 1)).head? = t.head? := by rw [List.head?_take, if_neg (Nat.succ_ne_zero _)]
  have hwhole : t.take (e.toNat + 1) ≠ [] := by
    rw [ne_eq, List.take_eq_nil_iff]
    exact not_or.2 ⟨Nat.succ_ne_zero _, h.ne_nil⟩
  have hplaces : t.drop (e.toNat + 1) ≠ [] := by
    rw [ne_eq, List.drop_eq_nil_iff]
    omega
  refine ⟨⟨t.take (e.toNat + 1), t.drop (e.toNat + 1), none, hwhole, fun c hc => h.isDigit c (List.mem_of_mem_take hc),
    fun c hc => h.isDigit c (List.mem_of_mem_drop hc)⟩, ⟨fun h0 => ?_, .inl hplaces⟩, ?_, ?_⟩
  · exact absurd (hhead.symm.trans h0) h.leading
  · rw [placedText_of_nonneg he hpos, show e.toNat + 1 - t.length = 0 by omega, List.replicate_zero, List.append_nil]
    show t.take (e.toNat + 1) ++ _ = t.take (e.toNat + 1) ++ (pointText (t.drop (e.toNat + 1)) ++ [])
    obtain ⟨c, rest, hcons⟩ := List.exists_cons_of_ne_nil hplaces
    rw [hcons, List.append_nil]
    rfl
  · show ((Nat.ofDigitChars 10 (t.take (e.toNat + 1) ++ t.drop (e.toNat + 1)) 0 : ℕ) : ℚ) *
      10 ^ (0 - (t.drop (e.toNat + 1)).length : ℤ) = r
    rw [List.take_append_drop, ← h.value, List.length_drop]
    congr 2
    omega

/-- Otherwise zeros fill the whole part, and one stands behind the point. -/
theorem exists_point_behind (h : Leads r t e) (he : ¬(e < -4 ∨ 16 ≤ e)) (hpos : ¬e < 0)
    (hge : t.length ≤ e.toNat + 1) : ∃ s : Spelling, s.IsDoubleForm ∧ placedText t e = s.shortText ∧ s.value = r := by
  have htext := placedText_of_nonneg (t := t) he hpos
  have hvalue : Nat.ofDigitChars 10 (t ++ List.replicate (e.toNat + 1 - t.length) '0' ++ ['0']) 0 =
      10 ^ (e.toNat + 1 - t.length + 1) * Nat.ofDigitChars 10 t 0 := by
    rw [List.append_assoc, ← List.replicate_succ', Nat.ofDigitChars_append, Nat.ofDigitChars_replicate_zero]
  have hlength : (t ++ List.replicate (e.toNat + 1 - t.length) '0').length = e.toNat + 1 := by
    rw [List.length_append, List.length_replicate]
    omega
  have hdigits : ∀ c ∈ t ++ List.replicate (e.toNat + 1 - t.length) '0', c.isDigit := by
    intro c hc
    rcases List.mem_append.1 hc with hc | hc
    · exact h.isDigit c hc
    · rw [List.eq_of_mem_replicate hc]
      decide
  have hhead : (t ++ List.replicate (e.toNat + 1 - t.length) '0').head? = t.head? :=
    List.head?_append_of_ne_nil _ h.ne_nil
  have hne : t ++ List.replicate (e.toNat + 1 - t.length) '0' ≠ [] := List.append_ne_nil_of_left_ne_nil h.ne_nil _
  generalize t ++ List.replicate (e.toNat + 1 - t.length) '0' = whole at *
  refine ⟨⟨whole, ['0'], none, hne, hdigits, List.forall_mem_singleton.2 rfl⟩, ⟨fun h0 => ?_, .inl nofun⟩, ?_, ?_⟩
  · exact absurd (hhead.symm.trans h0) h.leading
  · rw [htext, ← hlength, List.take_length, List.drop_length]
    rfl
  · have hscale : (e + 1 - t.length : ℤ) = (e.toNat + 1 - t.length + 1 : ℕ) + (0 - 1) := by omega
    show ((Nat.ofDigitChars 10 (whole ++ ['0']) 0 : ℕ) : ℚ) * 10 ^ (0 - 1 : ℤ) = r
    rw [hvalue, ← h.value, hscale, zpow_add₀ (by norm_num), zpow_natCast]
    push_cast
    ring

theorem exists_placedText (h : Leads r t e) :
    ∃ s : Spelling, s.IsDoubleForm ∧ placedText t e = s.shortText ∧ s.value = r := by
  by_cases he : e < -4 ∨ 16 ≤ e
  · exact exists_exponent_text h he
  · by_cases hneg : e < 0
    · exact exists_small_text h he hneg
    · rcases Nat.lt_or_ge (e.toNat + 1) t.length with hlt | hge
      · exact exists_point_within h he hneg hlt
      · exact exists_point_behind h he hneg hge

end Placed

/-! ## Doubles -/

theorem shortest_eq (m : ℕ) (q : ℤ) : shortest m q =
    (dropTail (· == '0') (decimal (found m q).1), (found m q).2 + (decimal (found m q).1).length - 1) := rfl

theorem shortestText_of_finite {x : Float} {negative : Bool} {m : ℕ} {q : ℤ}
    (hx : Binary.ofFloat x = .finite negative m q) : shortestText x =
      signText negative (if m = 0 then "0.0".toList else placedText (shortest m q).1 (shortest m q).2) := by
  unfold shortestText
  rw [hx]
  rfl

/-- **A finite double is written as a number that stands for it.** -/
theorem exists_shortestText {x : Float} {negative : Bool} {m : ℕ} {q : ℤ}
    (hx : Binary.ofFloat x = .finite negative m q) :
    ∃ s : Spelling, s.IsDoubleForm ∧ shortestText x = signText negative s.shortText ∧ s.toFloat negative = x := by
  rw [shortestText_of_finite hx]
  rcases Nat.eq_zero_or_pos m with rfl | hm
  · have hzero : ∀ c ∈ ['0'], c.isDigit := List.forall_mem_singleton.2 rfl
    refine ⟨⟨['0'], ['0'], none, by decide, hzero, hzero⟩, ⟨fun _ => rfl, .inl (List.cons_ne_nil _ _)⟩, rfl, ?_⟩
    obtain rfl : q = -1074 := (isDouble_of_finite hx).full.resolve_left (by decide)
    have hzero : Binary.ofFloat (Numeral.decimal negative 0 (-1)).toFloat = .finite negative 0 (-1074) := by
      cases negative <;> decide +kernel
    exact ofFloat_inj (hzero.trans hx.symm) (hzero ▸ nofun)
  · rw [if_neg hm.ne', shortest_eq]
    obtain ⟨s, hform, htext, hvalue⟩ :=
      exists_placedText (leads_dropTail (found_pos (isDouble_of_finite hx) hm) (found m q).2)
    exact ⟨s, hform, by rw [htext], toFloat_of_found hx hm hvalue⟩

end Calculator
