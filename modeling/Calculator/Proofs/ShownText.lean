import Calculator.Display
import Calculator.Proofs.Nearest
import Calculator.Proofs.Spelling
import Mathlib.Data.List.DropRight

/-!
# The texts of shown numbers

* `trimZeros_point` : what is left of digits with a point.
* `Spells t r` : `t` is written in plain form and means `r`.
* `scientificDigits`, `placesDigits` : the digits of a number with an exponent, and with places.
* `spells_decimal`, `spells_scientificDigits`, `spells_placesDigits` : all digits shown are in plain form.
-/

namespace Calculator

set_option autoImplicit false

open Calculator.Number
open Calculator.Text (decimal decimalInt zeroFill dropTail)
open Display (trimZeros)
open Spelling (pointText markText isDigit_decimal)

/-! ## The end of a text -/

section DropTail

variable {p : Char → Bool}

theorem dropTail_eq_rdropWhile (t : Text) : dropTail p t = t.rdropWhile p := rfl

theorem dropTail_append (t u : Text) :
    dropTail p (t ++ u) = if dropTail p u = [] then dropTail p t else t ++ dropTail p u := by
  unfold dropTail
  rw [List.reverse_append, List.dropWhile_append]
  by_cases h : u.reverse.dropWhile p = []
  · rw [h]
    rfl
  · have hempty : (u.reverse.dropWhile p).isEmpty = false := by simpa using h
    rw [hempty, if_neg (by simp), if_neg (by simpa using h)]
    simp

theorem dropTail_of_digits {t : Text} (ht : ∀ c ∈ t, c.isDigit) : dropTail (· == '.') t = t := by
  rw [dropTail_eq_rdropWhile, List.rdropWhile_eq_self_iff]
  intro hne hlast
  have hdigit := ht _ (t.getLast_mem hne)
  rw [beq_iff_eq.1 hlast] at hdigit
  exact absurd hdigit (by decide)

theorem exists_replicate_zero (t : Text) : ∃ n, t = dropTail (· == '0') t ++ List.replicate n '0' := by
  refine ⟨(t.rtakeWhile (· == '0')).length, ?_⟩
  have hzeros : t.rtakeWhile (· == '0') = List.replicate (t.rtakeWhile (· == '0')).length '0' :=
    List.eq_replicate_of_mem fun c hc => by simpa using List.mem_rtakeWhile_imp hc
  rw [← hzeros, dropTail_eq_rdropWhile, List.rdropWhile_append_rtakeWhile]

theorem mem_of_mem_dropTail {t : Text} {c : Char} (h : c ∈ dropTail p t) : c ∈ t :=
  (List.rdropWhile_prefix p t).subset h

/-- Without its zeros a number keeps its whole part, and the point if any place is left. -/
theorem trimZeros_point {whole places : Text} (hwhole : ∀ c ∈ whole, c.isDigit) (hplaces : ∀ c ∈ places, c.isDigit) :
    trimZeros (whole ++ '.' :: places) = whole ++ pointText (dropTail (· == '0') places) := by
  have hsplit : whole ++ '.' :: places = (whole ++ ['.']) ++ places := by simp
  rw [trimZeros, hsplit, dropTail_append]
  cases hzeros : dropTail (· == '0') places with
  | nil =>
    rw [if_pos rfl, dropTail_append, if_neg (by decide)]
    show dropTail (· == '.') (whole ++ ['.']) = whole ++ []
    rw [dropTail_append, if_pos (by decide), dropTail_of_digits hwhole, List.append_nil]
  | cons c rest =>
    have hrest : ∀ d ∈ c :: rest, d.isDigit := fun d hd => hplaces d (mem_of_mem_dropTail (hzeros ▸ hd))
    rw [if_neg (List.cons_ne_nil _ _), dropTail_append, dropTail_of_digits hrest, if_neg (List.cons_ne_nil _ _)]
    simp [pointText]

end DropTail

/-! ## Plain form -/

/-- The text is written in plain form and means `r`. -/
def Spells (t : Text) (r : ℚ) : Prop := ∃ s : Spelling, s.text = t ∧ s.value = r

theorem spells_decimal (n : ℕ) : Spells (decimal n) n := by
  refine ⟨⟨decimal n, [], none, Nat.toDigits_ne_nil, isDigit_decimal, fun _ h => nomatch h⟩, ?_, ?_⟩
  · exact List.append_nil _
  · show ((Nat.ofDigitChars 10 (decimal n ++ []) 0 : ℕ) : ℚ) * 10 ^ (0 - 0 : ℤ) = n
    rw [List.append_nil, Spelling.ofDigitChars_decimal, sub_zero, zpow_zero, mul_one]

/-- Digits with a point and an exponent mean the same without the zeros at their end. -/
theorem spells_trimZeros {whole places : Text} (hne : whole ≠ []) (hwhole : ∀ c ∈ whole, c.isDigit)
    (hplaces : ∀ c ∈ places, c.isDigit) (e : Option ℤ) :
    Spells (trimZeros (whole ++ '.' :: places) ++ markText e)
      ((Nat.ofDigitChars 10 (whole ++ places) 0 : ℕ) * 10 ^ (e.getD 0 - places.length : ℤ)) := by
  have hkept : ∀ c ∈ dropTail (· == '0') places, c.isDigit := fun c hc => hplaces c (mem_of_mem_dropTail hc)
  refine ⟨⟨whole, dropTail (· == '0') places, e, hne, hwhole, hkept⟩, ?_, ?_⟩
  · rw [trimZeros_point hwhole hplaces, List.append_assoc]
    rfl
  · obtain ⟨n, hn⟩ := exists_replicate_zero places
    show ((Nat.ofDigitChars 10 (whole ++ dropTail (· == '0') places) 0 : ℕ) : ℚ) *
      10 ^ (e.getD 0 - (dropTail (· == '0') places).length : ℤ) = _
    generalize dropTail (· == '0') places = kept at hn
    have hdigits : Nat.ofDigitChars 10 (whole ++ places) 0 = 10 ^ n * Nat.ofDigitChars 10 (whole ++ kept) 0 := by
      rw [hn, ← List.append_assoc, Nat.ofDigitChars_append, Nat.ofDigitChars_replicate_zero]
    have hlength : (places.length : ℤ) = kept.length + n := by
      rw [hn, List.length_append, List.length_replicate]
      push_cast
      rfl
    have hpow : (10 : ℚ) ^ (e.getD 0 - kept.length : ℤ) = 10 ^ n * 10 ^ (e.getD 0 - places.length : ℤ) := by
      rw [← zpow_natCast, ← zpow_add₀ (by norm_num)]
      congr 1
      omega
    rw [hdigits, hpow]
    push_cast
    ring

/-! ## The three ways of showing a number -/

/-- The number `c / 10 ^ 6 * 10 ^ e` with an exponent. -/
def scientificDigits (c : ℕ) (e : ℤ) : Text :=
  trimZeros (coefficientText Display.exponentPlaces c) ++ 'E' :: decimalInt e

/-- The number `n / 10 ^ places` without an exponent. -/
def placesDigits (places n : ℕ) : Text :=
  trimZeros (decimal (n / 10 ^ places) ++ '.' :: zeroFill places (decimal (n % 10 ^ places)))

theorem length_decimal {n k : ℕ} (hk : 0 < k) (hn : 10 ^ (k - 1) ≤ n) (hn' : n < 10 ^ k) : (decimal n).length = k := by
  have hle : (decimal n).length ≤ k := (Nat.length_toDigits_le_iff (by decide) hk).2 hn'
  rcases Nat.lt_or_ge 1 k with h | h
  · have hnot : ¬(decimal n).length ≤ k - 1 := by
      intro hle'
      have := (Nat.length_toDigits_le_iff (by decide) (by omega)).1 hle'
      omega
    omega
  · have : 0 < (decimal n).length := Nat.length_toDigits_pos
    omega

/-- The seven digits of a coefficient, with a point behind the first one. -/
theorem exists_coefficientText {c : ℕ} (hc : 10 ^ 6 ≤ c) (hc' : c < 10 ^ 7) : ∃ d rest, decimal c = d :: rest ∧
    rest.length = 6 ∧ coefficientText Display.exponentPlaces c = [d] ++ '.' :: rest := by
  have hlength : (decimal c).length = 7 := length_decimal (by decide) hc hc'
  have hfill : zeroFill (Display.exponentPlaces + 1) (decimal c) = decimal c := by
    rw [zeroFill, hlength]
    rfl
  obtain ⟨d, rest, hcons⟩ : ∃ d rest, decimal c = d :: rest := List.exists_cons_of_ne_nil Nat.toDigits_ne_nil
  rw [hcons] at hlength
  have hrest : rest.length = 6 := Nat.succ.inj hlength
  refine ⟨d, rest, hcons, hrest, ?_⟩
  rw [coefficientText, hfill, hcons]
  cases rest with
  | nil => exact absurd hrest (by decide)
  | cons => rfl

theorem spells_scientificDigits {c : ℕ} (hc : 10 ^ 6 ≤ c) (hc' : c < 10 ^ 7) (e : ℤ) :
    Spells (scientificDigits c e) (c * 10 ^ (e - 6)) := by
  obtain ⟨d, rest, hcons, hrest, htext⟩ := exists_coefficientText hc hc'
  have hdigits := isDigit_decimal (n := c)
  rw [hcons] at hdigits
  have h := spells_trimZeros (List.cons_ne_nil d []) (fun a ha => hdigits a (by simp_all))
    (fun a ha => hdigits a (List.mem_cons_of_mem _ ha)) (some e)
  have hjoin : [d] ++ rest = decimal c := hcons.symm
  rw [hjoin, Spelling.ofDigitChars_decimal, hrest, ← htext] at h
  exact h

section Places

variable {places n : ℕ}

theorem isDigit_zeroFill {t : Text} (ht : ∀ c ∈ t, c.isDigit) : ∀ c ∈ zeroFill places t, c.isDigit := by
  intro c hc
  rcases List.mem_append.1 hc with hc | hc
  · rw [List.eq_of_mem_replicate hc]
    decide
  · exact ht c hc

theorem ofDigitChars_zeroFill (places n : ℕ) : Nat.ofDigitChars 10 (zeroFill places (decimal n)) 0 = n := by
  rw [zeroFill, Nat.ofDigitChars_append, Nat.ofDigitChars_replicate_zero, mul_zero, Spelling.ofDigitChars_decimal]

theorem spells_placesDigits (hplaces : 0 < places) : Spells (placesDigits places n) (n * 10 ^ (-places : ℤ)) := by
  set low := n % 10 ^ places with hlow
  have hlength : (zeroFill places (decimal low)).length = places := by
    have : (decimal low).length ≤ places :=
      (Nat.length_toDigits_le_iff (by decide) hplaces).2 (Nat.mod_lt _ (by positivity))
    rw [zeroFill, List.length_append, List.length_replicate]
    omega
  have hvalue : Nat.ofDigitChars 10 (decimal (n / 10 ^ places) ++ zeroFill places (decimal low)) 0 = n := by
    rw [Nat.ofDigitChars_append, Spelling.ofDigitChars_decimal, Nat.ofDigitChars_eq_ofDigitChars_zero, hlength,
      ofDigitChars_zeroFill]
    exact Nat.div_add_mod n _
  have h := @spells_trimZeros (decimal (n / 10 ^ places)) (zeroFill places (decimal low)) Nat.toDigits_ne_nil
    isDigit_decimal (isDigit_zeroFill isDigit_decimal) none
  rw [hvalue, hlength] at h
  simpa [markText, placesDigits] using h

theorem placesDigits_eq (places n : ℕ) : placesDigits places n =
    decimal (n / 10 ^ places) ++ pointText (dropTail (· == '0') (zeroFill places (decimal (n % 10 ^ places)))) :=
  trimZeros_point isDigit_decimal (isDigit_zeroFill isDigit_decimal)

theorem placesDigits_of_mod_eq_zero (h : n % 10 ^ places = 0) : placesDigits places n = decimal (n / 10 ^ places) := by
  have hzeros : dropTail (· == '0') (zeroFill places (decimal 0)) = [] := by
    rw [dropTail_eq_rdropWhile, List.rdropWhile_eq_nil_iff]
    intro c hc
    rcases List.mem_append.1 hc with hc | hc
    · exact beq_iff_eq.2 (List.eq_of_mem_replicate hc)
    · exact beq_iff_eq.2 (List.mem_singleton.1 hc)
  rw [placesDigits_eq, h, hzeros]
  exact List.append_nil _

theorem point_mem_placesDigits (h : n % 10 ^ places ≠ 0) : '.' ∈ placesDigits places n := by
  rw [placesDigits_eq]
  cases hplaces : dropTail (· == '0') (zeroFill places (decimal (n % 10 ^ places))) with
  | nil =>
    obtain ⟨k, hk⟩ := exists_replicate_zero (zeroFill places (decimal (n % 10 ^ places)))
    have hzero := congrArg (Nat.ofDigitChars 10 · 0) hk
    rw [hplaces, List.nil_append] at hzero
    simp only [ofDigitChars_zeroFill, Nat.ofDigitChars_replicate_zero] at hzero
    exact absurd hzero h
  | cons c rest => exact List.mem_append_right _ (List.mem_cons_self ..)

theorem mark_not_mem_placesDigits (places n : ℕ) : 'E' ∉ placesDigits places n := by
  intro h
  have hfilled : 'E' ∈ decimal (n / 10 ^ places) ++ '.' :: zeroFill places (decimal (n % 10 ^ places)) :=
    mem_of_mem_dropTail (mem_of_mem_dropTail h)
  rcases List.mem_append.1 hfilled with hwhole | hplaces
  · exact absurd (isDigit_decimal _ hwhole) (by decide)
  · rcases List.mem_cons.1 hplaces with heq | hplaces
    · cases heq
    · exact absurd (isDigit_zeroFill isDigit_decimal _ hplaces) (by decide)

end Places

end Calculator
