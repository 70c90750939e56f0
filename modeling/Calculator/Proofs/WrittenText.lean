import Calculator.Json.Reader
import Calculator.Json.Writer
import Mathlib.Tactic.SplitIfs

/-!
# Texts in JSON

A text is written in ASCII, with an escape for every other character and a pair of escapes for one beyond the basic
plane. It is read back as it was.

* `hexQuad?_hexDigits` : the four digits of an escape mean its unit.
* `readText_escape`, `readText_pair` : one escape, and a pair of them.
* `readText_writtenChar` : whatever follows, a written character is read as itself.
* `readText_writtenText` : so is a written text.
-/

namespace Calculator.Json

set_option autoImplicit false

open Calculator.Text (hex zeroFill)

/-- The character in front of what is read. -/
def onto (c : Char) (r : Option (Text × Text)) : Option (Text × Text) := r.map fun r => (c :: r.1, r.2)

/-! ## Digits -/

theorem hexValue?_digitChar : ∀ d, d < 16 → hexValue? (Nat.digitChar d) = some d := by decide

theorem hex_eq {n : Nat} (h : n < 65536) : hex 4 n =
    [Nat.digitChar (n / 4096), Nat.digitChar (n / 256 % 16), Nat.digitChar (n / 16 % 16), Nat.digitChar (n % 16)] := by
  have hzero : Nat.digitChar 0 = '0' := rfl
  have hdiv : n / 16 / 16 = n / 256 := Nat.div_div_eq_div_mul ..
  have hdiv' : n / 256 / 16 = n / 4096 := Nat.div_div_eq_div_mul ..
  have hsplit (m : Nat) := Nat.toDigits_eq_if (b := 16) (n := m) (by decide)
  unfold hex zeroFill
  rw [hsplit n, hsplit (n / 16), hdiv, hsplit (n / 256), hdiv', Nat.toDigits_of_lt_base (by omega : n / 4096 < 16)]
  split_ifs with h1 h2 h3
  · rw [show n / 4096 = 0 by omega, show n / 256 % 16 = 0 by omega, show n / 16 % 16 = 0 by omega,
      show n % 16 = n by omega, hzero]
    rfl
  · rw [show n / 4096 = 0 by omega, show n / 256 % 16 = 0 by omega, show n / 16 % 16 = n / 16 by omega, hzero]
    rfl
  · rw [show n / 4096 = 0 by omega, show n / 256 % 16 = n / 256 by omega, hzero]
    rfl
  · rfl

theorem hexQuad?_hexDigits {n : Nat} (h : n < 65536) :
    ∃ a b c d, hex 4 n = [a, b, c, d] ∧ hexQuad? a b c d = some n := by
  refine ⟨_, _, _, _, hex_eq h, ?_⟩
  unfold hexQuad?
  rw [hexValue?_digitChar _ (by omega), hexValue?_digitChar _ (by omega), hexValue?_digitChar _ (by omega),
    hexValue?_digitChar _ (by omega)]
  show some _ = some n
  congr 1
  omega

/-! ## Escapes -/

/-- An escape that is no half of a pair. -/
theorem readText_escape {n : Nat} (h : n < 65536) (hhigh : isHighSurrogate n = false) (t : Text) :
    readText (unitEscape n ++ t) = onto (loneCodePoint n) (readText t) := by
  obtain ⟨a, b, c, d, hdigits, hquad⟩ := hexQuad?_hexDigits h
  unfold unitEscape
  rw [hdigits]
  show readText ('\\' :: 'u' :: a :: b :: c :: d :: t) = _
  rw [readText.eq_def]
  split
  · rename_i heq
    cases heq
  · rename_i heq
    cases heq
  · rename_i heq
    -- another escape follows, which is read by itself
    simp only [List.cons.injEq] at heq
    obtain ⟨-, -, rfl, rfl, rfl, rfl, rfl⟩ := heq
    simp only [hquad, hhigh, Option.bind_eq_bind, Option.bind_some, Bool.false_eq_true, ↓reduceIte]
    rw [onto, Option.map_eq_bind]
    rfl
  · rename_i heq
    simp only [List.cons.injEq] at heq
    obtain ⟨-, -, rfl, rfl, rfl, rfl, rfl⟩ := heq
    simp only [hquad, Option.bind_eq_bind, Option.bind_some]
    rw [onto, Option.map_eq_bind]
    rfl
  · rename_i hne heq
    simp only [List.cons.injEq] at heq
    obtain ⟨-, rfl, rfl⟩ := heq
    exact absurd rfl (hne a b c d t rfl)
  · rename_i hne heq
    simp only [List.cons.injEq] at heq
    obtain ⟨rfl, rfl⟩ := heq
    exact absurd rfl (hne 'u' (a :: b :: c :: d :: t) rfl)

theorem readText_pair {m n : Nat} (hm : isHighSurrogate m) (hn : isLowSurrogate n) (t : Text) :
    readText (unitEscape m ++ unitEscape n ++ t) =
      onto (Char.ofNat (0x10000 + (m - 0xD800) * 0x400 + (n - 0xDC00))) (readText t) := by
  have hm' := hm
  have hn' := hn
  simp only [isHighSurrogate, isLowSurrogate, Bool.and_eq_true, decide_eq_true_eq] at hm' hn'
  obtain ⟨a, b, c, d, hdigits, hquad⟩ := hexQuad?_hexDigits (by omega : m < 65536)
  obtain ⟨e, f, g, k, hdigits', hquad'⟩ := hexQuad?_hexDigits (by omega : n < 65536)
  unfold unitEscape
  rw [hdigits, hdigits']
  show readText ('\\' :: 'u' :: a :: b :: c :: d :: '\\' :: 'u' :: e :: f :: g :: k :: t) = _
  rw [readText]
  simp only [hquad, hquad', hm, hn, Option.bind_eq_bind, Option.bind_some, ↓reduceIte]
  rw [onto, Option.map_eq_bind]
  rfl

theorem readText_escaped {c e : Char} (h : escaped? e = some c) (t : Text) :
    readText ('\\' :: e :: t) = onto c (readText t) := by
  have hne : e ≠ 'u' := by
    rintro rfl
    cases h
  rw [readText]
  · simp only [h, Option.bind_eq_bind, Option.bind_some]
    rw [onto, Option.map_eq_bind]
    rfl
  · intro _ _ _ _ _ _ _ _ _ heq
    exact absurd heq hne
  · intro _ _ _ _ _ heq
    exact absurd heq hne

theorem readText_plain {c : Char} (hquote : c ≠ '"') (hslash : c ≠ '\\') (h : 0x20 ≤ c.toNat) (t : Text) :
    readText (c :: t) = onto c (readText t) := by
  rw [readText]
  · rw [if_neg (by omega), onto, Option.map_eq_bind]
    rfl
  · exact hquote
  · intro _ _ _ _ _ _ _ _ _ heq
    exact absurd heq hslash
  · intro _ _ _ _ _ heq
    exact absurd heq hslash
  · intro _ _ heq
    exact absurd heq hslash

/-! ## Texts -/

/-- No character is half of a pair. -/
theorem not_surrogate (c : Char) : isHighSurrogate c.toNat = false ∧ isLowSurrogate c.toNat = false := by
  have hvalid : c.toNat < 0xD800 ∨ 0xDFFF < c.toNat ∧ c.toNat < 0x110000 := c.valid
  simp only [isHighSurrogate, isLowSurrogate, Bool.and_eq_false_iff, decide_eq_false_iff_not]
  omega

theorem loneCodePoint_toNat (c : Char) : loneCodePoint c.toNat = c := by
  rw [loneCodePoint, (not_surrogate c).1, (not_surrogate c).2, Char.ofNat_toNat]
  rfl

/-- A written character is read as itself. -/
theorem readText_writtenChar (c : Char) (t : Text) : readText (writtenChar c ++ t) = onto c (readText t) := by
  unfold writtenChar
  split
  case h_8 _ hquote hslash _ _ _ _ _ =>
    split_ifs with hascii hplane
    · exact readText_plain hquote hslash hascii.1 t
    · rw [readText_escape hplane (not_surrogate c).1, loneCodePoint_toNat]
    · have htop : c.toNat < 0x110000 := by
        have hvalid : c.toNat < 0xD800 ∨ 0xDFFF < c.toNat ∧ c.toNat < 0x110000 := c.valid
        omega
      have hhigh : isHighSurrogate (0xD800 + (c.toNat - 0x10000) / 0x400) := by
        simp only [isHighSurrogate, Bool.and_eq_true, decide_eq_true_eq]
        omega
      have hlow : isLowSurrogate (0xDC00 + (c.toNat - 0x10000) % 0x400) := by
        simp only [isLowSurrogate, Bool.and_eq_true, decide_eq_true_eq]
        omega
      rw [readText_pair hhigh hlow, Nat.add_sub_cancel_left, Nat.add_sub_cancel_left, Nat.add_assoc,
        Nat.div_add_mod', Nat.add_sub_cancel' (by omega), Char.ofNat_toNat]
  all_goals exact readText_escaped (by rfl) t

/-- **A written text is read back**, up to its closing mark. -/
theorem readText_writtenText (t rest : Text) :
    readText (t.flatMap writtenChar ++ '"' :: rest) = some (t, rest) := by
  induction t with
  | nil => rw [List.flatMap_nil, List.nil_append, readText]
  | cons c t ih =>
    rw [List.flatMap_cons, List.append_assoc, readText_writtenChar, ih]
    rfl

end Calculator.Json
