import Calculator.Proofs.AnswerValue
import Calculator.Proofs.Rereading
import Calculator.Proofs.WrittenNumber

/-!
# The form of shown numbers

There is one form in which finite doubles are shown, and the reader of expressions takes it for one number.

* `IsWholeText`, `IsPlacesText`, `IsCanonical` : digits without superfluous zeros, with or without an exponent.
* `isCanonical_decimal`, `isCanonical_placesDigits`, `isCanonical_scientificDigits` : the three ways of showing a number.
* `float_lt_zero_iff`, `float_beq_zero_iff` : when a double is negative, and when it is zero.
* `tokenize_signText`, `treeOf_signText` : the tokens and the tree of a number behind its sign.
* `CanonicallyShown`, `exists_canonicallyShown` : the text of a finite double is in that form, and is read as the double
  nearest to what it writes.
-/

namespace Calculator

set_option autoImplicit false

open Calculator.Number
open Calculator.Text (decimal decimalInt zeroFill dropTail)
open Display (trimZeros)
open Spelling (pointText isDigit_decimal)

/-! ## The form -/

/-- Digits without a superfluous zero in front. -/
structure IsWholeText (t : Text) : Prop where
  ne_nil : t ≠ []
  isDigit : ∀ c ∈ t, c.isDigit
  leading : t.head? = some '0' → t = ['0']

/-- Digits without a zero at the end, or none. -/
structure IsPlacesText (t : Text) : Prop where
  isDigit : ∀ c ∈ t, c.isDigit
  trailing : t.getLast? ≠ some '0'

/-- Digits and places; or one digit that is not zero, places and an exponent, which has a sign only if it is negative. -/
inductive IsCanonical : Text → Prop where
  | plain {whole places : Text} (hwhole : IsWholeText whole) (hplaces : IsPlacesText places) :
      IsCanonical (whole ++ pointText places)
  | scientific {d : Char} {places exponent : Text} {negative : Bool} (hd : d.isDigit) (hzero : d ≠ '0')
      (hplaces : IsPlacesText places) (hexponent : IsWholeText exponent) (hsign : negative → exponent ≠ ['0']) :
      IsCanonical (d :: pointText places ++ 'E' :: signText negative exponent)

theorem isWholeText_decimal (n : ℕ) : IsWholeText (decimal n) :=
  ⟨Nat.toDigits_ne_nil, isDigit_decimal, Json.head?_decimal_eq_zero⟩

theorem isPlacesText_dropTail {t : Text} (ht : ∀ c ∈ t, c.isDigit) : IsPlacesText (dropTail (· == '0') t) where
  isDigit c hc := ht c (mem_of_mem_dropTail hc)
  trailing h := by
    rw [dropTail_eq_rdropWhile] at h
    have hne : t.rdropWhile (· == '0') ≠ [] := by
      rintro heq
      rw [heq] at h
      cases h
    rw [List.getLast?_eq_some_getLast hne] at h
    exact List.rdropWhile_last_not _ _ hne (beq_iff_eq.2 (Option.some.inj h))

theorem isPlacesText_nil : IsPlacesText [] := ⟨List.forall_mem_nil _, (Option.some_ne_none _).symm⟩

theorem isCanonical_decimal (n : ℕ) : IsCanonical (decimal n) := by
  have h := IsCanonical.plain (isWholeText_decimal n) isPlacesText_nil
  rwa [pointText, List.append_nil] at h

theorem isCanonical_placesDigits (places n : ℕ) : IsCanonical (placesDigits places n) := by
  rw [placesDigits_eq]
  exact .plain (isWholeText_decimal _) (isPlacesText_dropTail (isDigit_zeroFill isDigit_decimal))

theorem exists_decimalInt (e : ℤ) :
    ∃ negative t, decimalInt e = signText negative t ∧ IsWholeText t ∧ (negative → t ≠ ['0']) := by
  cases e with
  | ofNat n => exact ⟨false, decimal n, rfl, isWholeText_decimal n, nofun⟩
  | negSucc n =>
    refine ⟨true, decimal (n + 1), rfl, isWholeText_decimal _, fun _ h => ?_⟩
    exact head?_decimal n.succ_pos (congrArg List.head? h)

theorem isCanonical_scientificDigits {c : ℕ} (hc : 10 ^ 6 ≤ c) (hc' : c < 10 ^ 7) (e : ℤ) :
    IsCanonical (scientificDigits c e) := by
  obtain ⟨d, rest, hcons, -, htext⟩ := exists_coefficientText hc hc'
  obtain ⟨negative, t, he, ht, hsign⟩ := exists_decimalInt e
  have hdigits := isDigit_decimal (n := c)
  have hleading := head?_decimal (n := c) (by omega)
  rw [hcons] at hdigits hleading
  obtain ⟨hd, hrest⟩ := List.forall_mem_cons.1 hdigits
  rw [scientificDigits, htext, trimZeros_point (List.forall_mem_singleton.2 hd) hrest, he]
  exact .scientific hd (fun hzero => hleading (congrArg some hzero)) (isPlacesText_dropTail hrest) ht hsign

theorem Shown.isCanonical {w r : ℚ} {t : Text} (h : Shown w t r) : IsCanonical t := by
  cases h with
  | scientific regime h => exact isCanonical_scientificDigits h.coefficient_bounds.1 h.coefficient_bounds.2 _
  | whole hn hw => exact isCanonical_decimal _
  | places low high => exact isCanonical_placesDigits _ _

/-! ## Signs -/

section Signs

variable {v : Float} {negative : Bool} {m : ℕ} {q : ℤ}

/-- A double is negative if it has a minus and is not zero. -/
theorem float_lt_zero_iff (hv : Binary.ofFloat v = .finite negative m q) : v < 0.0 ↔ (negative && m != 0) = true := by
  change decide (v.toModel.unpack.lt (0.0 : Float).toModel.unpack) = true ↔ _
  rw [decide_eq_true_iff, unpack_zero]
  rcases Nat.eq_zero_or_pos m with rfl | hm
  · obtain ⟨s, -, hunpack⟩ := unpack_of_zero hv
    rw [hunpack, Bool.and_comm]
    exact iff_of_false Bool.false_ne_true Bool.false_ne_true
  · obtain ⟨s, rfl, hunpack⟩ := unpack_of_finite hv hm
    rw [hunpack, bne_iff_ne.2 hm.ne', Bool.and_true]
    cases s with
    | positive => exact iff_of_false Bool.false_ne_true Bool.false_ne_true
    | negative => exact iff_of_true rfl rfl

theorem float_beq_zero_iff (hv : Binary.ofFloat v = .finite negative m q) : v == 0.0 ↔ m = 0 := by
  change (v.toModel.unpack.compare (0.0 : Float).toModel.unpack == some .eq) = true ↔ _
  rw [unpack_zero]
  rcases Nat.eq_zero_or_pos m with rfl | hm
  · obtain ⟨s, -, hunpack⟩ := unpack_of_zero hv
    rw [hunpack]
    exact iff_of_true rfl rfl
  · obtain ⟨s, rfl, hunpack⟩ := unpack_of_finite hv hm
    rw [hunpack]
    refine iff_of_false ?_ hm.ne'
    cases s <;> exact Bool.false_ne_true

end Signs

section SignText

variable (u : Spelling) (negative : Bool)

theorem head?_signText : (signText negative u.text).head? = some '-' ↔ negative = true := by
  cases negative with
  | true => exact iff_of_true rfl rfl
  | false =>
    obtain ⟨c, rest, htext, hc⟩ := u.exists_text_eq
    refine iff_of_false (fun h => ?_) Bool.false_ne_true
    rw [signText, if_neg Bool.false_ne_true, htext] at h
    obtain rfl := Option.some.inj h
    exact absurd hc (by decide)

variable {u negative}

theorem eq_of_signText_eq_zero (h : signText negative u.text = ['0']) : negative = false ∧ u.text = ['0'] := by
  cases negative with
  | true => exact absurd (List.cons.inj h).1 (by decide)
  | false => exact ⟨rfl, h⟩

theorem eq_of_signText_eq_minus_zero (h : signText negative u.text = ['-', '0']) : negative = true ∧ u.text = ['0'] := by
  have hnegative := (head?_signText u negative).1 (congrArg List.head? h)
  rw [hnegative] at h
  exact ⟨hnegative, (List.cons.inj h).2⟩

theorem Spelling.value_of_text_eq_zero (h : u.text = ['0']) : u.value = 0 := by
  have hread := u.read?_text
  rw [h] at hread
  have hdigits : 0 = u.digits := (Numeral.decimal.inj (Option.some.inj hread)).2.1
  rw [Spelling.value, ← hdigits, Nat.cast_zero, zero_mul]

/-! ## Reading -/

variable (u negative)

theorem tokensFrom_signText (argument : Text → Except TokenError Expr) :
    tokensFrom (signText negative u.text) argument none (lexemes (signText negative u.text)) =
      .ok (signedTokens negative (u.toFloat false)) := by
  cases negative with
  | false => exact tokensFrom_text u argument
  | true => exact tokensFrom_minus u argument

/-- A number in plain form is one token, behind that of a minus if there is one. -/
theorem tokenize_signText (strict : Bool) {limit depth : ℤ} (h : depth ≤ limit) :
    tokenize strict limit depth (signText negative u.text) = .ok (signedTokens negative (u.toFloat false)) := by
  obtain ⟨levels, hlevels⟩ : ∃ levels : ℕ, (limit - depth + 1).toNat = levels + 1 := ⟨(limit - depth).toNat, by omega⟩
  rw [tokenize, hlevels, tokensWithin_succ_eq_ok]
  exact ⟨tokensFrom_signText u negative _, fun _ => by cases negative <;> rfl⟩

theorem treeOf_signText {s : Setup} (hs : 1 ≤ s.maxDepth) :
    s.treeOf (signText negative u.text) = .ok (signedNumber negative (u.toFloat false)) := by
  cases negative with
  | false => exact treeOf_text (by omega) u
  | true => exact treeOf_minus hs u

end SignText

/-! ## Shown and read back -/

/-- `v` is shown in the canonical form, as `u` behind a minus if there is one, and is read back as one number. -/
structure CanonicallyShown (v : Float) (negative : Bool) (u : Spelling) : Prop where
  text_eq : Display.text v = signText negative u.text
  isCanonical : IsCanonical u.text
  minus_iff : (Display.text v).head? = some '-' ↔ v < 0.0
  ne_minus_zero : Display.text v ≠ ['-', '0']
  zero_iff : Display.text v = ['0'] ↔ v == 0.0
  tokenize_eq (strict : Bool) {limit depth : ℤ} : depth ≤ limit →
    tokenize strict limit depth (Display.text v) = .ok (signedTokens negative (u.toFloat false))
  treeOf_eq {s : Setup} : 1 ≤ s.maxDepth → s.treeOf (Display.text v) = .ok (signedNumber negative (u.toFloat false))
  evaluate_eq (x : Float) (mode : AngleMode) :
    (signedNumber negative (u.toFloat false)).evaluate x mode = .ok (some (u.toFloat negative))
  nearest : Rounds (Binary.ofFloat (u.toFloat negative)) negative u.value

/-- What is shown of a double behind its sign. -/
theorem exists_shownText {v : Float} {negative : Bool} {m : ℕ} {q : ℤ}
    (hv : Binary.ofFloat v = .finite negative m q) : ∃ u : Spelling,
      Display.text v = signText (negative && m != 0) u.text ∧ IsCanonical u.text ∧ u.value ≤ maxDouble ∧
        (u.text = ['0'] → m = 0) := by
  obtain ⟨w, r, hshown, hw, -, hpos⟩ := exists_shown (isDouble_of_finite hv)
  obtain ⟨u, htext, rfl⟩ := hshown.spells
  refine ⟨u, by rw [text_eq hv, htext], htext ▸ hshown.isCanonical, hshown.le_maxDouble hw, fun hzero => ?_⟩
  by_contra hm
  have hvalue : 0 < u.value := hshown.pos_iff.1 (hpos (Nat.pos_of_ne_zero hm))
  exact hvalue.ne' (u.value_of_text_eq_zero hzero)

/-- **Every finite double is shown in the canonical form, and read back as one number.** Its text begins with a minus if
the double is negative, is that of zero only for the zeros, and has the value of the double nearest to what it writes. -/
theorem exists_canonicallyShown {v : Float} (hv : v.isFinite) : ∃ negative u, CanonicallyShown v negative u := by
  obtain ⟨minus, m, q, hparts⟩ := isFinite_iff.1 hv
  obtain ⟨u, hdisplay, hcanonical, hmax, hzero⟩ := exists_shownText hparts
  refine ⟨minus && m != 0, u, hdisplay, hcanonical, ?minus, ?minusZero, ⟨?zero, ?zeros⟩, ?tokens, ?tree,
    fun x mode => evaluate_signedNumber _ u x mode, rounds_toFloat _ _ _ hmax⟩
  case minus => rw [hdisplay, head?_signText, float_lt_zero_iff hparts]
  case minusZero =>
    rw [hdisplay]
    intro h
    obtain ⟨hminus, htext⟩ := eq_of_signText_eq_minus_zero h
    exact bne_iff_ne.1 (Bool.and_eq_true_iff.1 hminus).2 (hzero htext)
  case zero =>
    rw [hdisplay]
    exact fun h => (float_beq_zero_iff hparts).2 (hzero (eq_of_signText_eq_zero h).2)
  case zeros =>
    intro h
    rcases zero_of_beq h with rfl | rfl <;> decide +kernel
  case tokens =>
    rw [hdisplay]
    exact fun strict limit depth h => tokenize_signText u _ strict h
  case tree =>
    rw [hdisplay]
    exact fun hs => treeOf_signText u _ hs

/-- A subnormal double, shown with an exponent. -/
theorem exists_canonicallyShown_of_subnormal :
    (-2.5e-310 : Float).isFinite ∧ Display.text (-2.5e-310) = "-2.5E-310".toList ∧
      ∃ negative u, CanonicallyShown (-2.5e-310) negative u :=
  ⟨by decide +kernel, by decide +kernel, exists_canonicallyShown (by decide +kernel)⟩

end Calculator
