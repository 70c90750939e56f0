import Calculator.Proofs.DecimalDouble
import Calculator.Proofs.Lexemes
import Calculator.Proofs.Sequence
import Calculator.Proofs.Spelling

/-!
# The numbers of literals

A literal is made of digits, points, marks and minus signs. So it spells none of the words for what is no decimal
number, and the number it writes, which may be too large for a double, is never undefined.

* `isNaN_iff`, `ofFloat_pack_ne_nan` : which doubles are undefined; none that is put together from parts of a number.
* `not_isNaN_toFloat` : a decimal number stands for a number, or for an infinity.
* `mem_alphabet_of_literal` : the characters of a literal.
* `not_isNaN_of_literalTokens` : the tokens of a literal are operators and numbers.
-/

namespace Calculator

set_option autoImplicit false

open Calculator.Number
open Float.Model (UnpackedFloat)
open Float.Model.Format (binary64)
open Binary (ofUnpacked ofFields)

/-! ## Undefined doubles -/

theorem isNaN_iff {x : Float} : x.isNaN ↔ Binary.ofFloat x = .nan := by
  show x.toModel.unpack.isNaN ↔ _
  rw [ofFloat_eq_ofUnpacked]
  cases x.toModel.unpack with
  | notANumber => exact iff_of_true rfl rfl
  | _ => exact iff_of_false Bool.false_ne_true Binary.noConfusion

/-- Parts of a number make a number; a too large exponent makes it infinite. -/
theorem ofFloat_pack_ne_nan {u : UnpackedFloat} (h : u ≠ .notANumber) : Binary.ofFloat (.ofModel (.pack u)) ≠ .nan := by
  cases u with
  | notANumber => exact absurd rfl h
  | infinity s => cases s <;> exact Binary.noConfusion
  | zero s => cases s <;> exact Binary.noConfusion
  | finite s m q hm =>
    rw [ofFloat_eq_ofUnpacked]
    show ofUnpacked (UnpackedFloat.unpack binary64 (UnpackedFloat.pack binary64 (.finite s m q hm))) ≠ .nan
    have hfields (e : BitVec 11) (f : BitVec 52) (he : e.toNat ≠ 2047) :
        ofUnpacked (UnpackedFloat.unpack binary64 (UnpackedFloat.packComponents binary64 s e f)) ≠ .nan := by
      rw [ofUnpacked_unpack_packComponents, ofFields, if_neg he]
      split <;> exact Binary.noConfusion
    unfold UnpackedFloat.pack
    dsimp only
    split_ifs with hlarge
    · cases s <;> exact Binary.noConfusion
    · refine hfields _ _ ?_
      change ¬2 ^ 11 ≤ _ at hlarge
      rw [BitVec.toNat_ofNat]
      omega
    · exact hfields _ _ (by decide)

theorem ofFloat_neg_ne_nan {x : Float} (h : Binary.ofFloat x ≠ .nan) : Binary.ofFloat (-x) ≠ .nan := by
  rw [ofFloat_neg]
  cases hx : Binary.ofFloat x with
  | nan => exact absurd hx h
  | _ => exact nofun

/-! ## Decimal numbers -/

theorem roundWithAccuracy_ne_nan (s : UnpackedFloat.Sign) (m : ℕ) (q : ℤ) (acc : UnpackedFloat.Accuracy) :
    UnpackedFloat.roundWithAccuracy binary64 s m q acc ≠ .notANumber := by
  intro h
  unfold UnpackedFloat.roundWithAccuracy at h
  dsimp only at h
  rcases dite_eq_iff.1 h with ⟨_, hzero⟩ | ⟨_, hfinite⟩
  · cases hzero
  · cases hfinite

theorem unpacked_ofScientific_ne_nan (m : ℕ) (e : ℤ) : UnpackedFloat.ofScientific binary64 m e ≠ .notANumber := by
  intro h
  unfold UnpackedFloat.ofScientific at h
  rcases dite_eq_iff.1 h with ⟨_, hzero⟩ | ⟨_, h⟩
  · cases hzero
  rcases ite_eq_iff.1 h with ⟨_, hlarge⟩ | ⟨_, h⟩
  · cases hlarge
  rcases ite_eq_iff.1 h with ⟨_, hsmall⟩ | ⟨_, h⟩
  · cases hsmall
  rcases ite_eq_iff.1 h with ⟨_, hproduct⟩ | ⟨_, hquotient⟩
  · exact roundWithAccuracy_ne_nan .positive _ _ _ hproduct
  · exact roundWithAccuracy_ne_nan .positive _ _ _ hquotient

section Operations

variable {x y : Float} {a b : Bool} {m n : ℕ} {q p : ℤ}

theorem ofFloat_mul_ne_nan (hx : Binary.ofFloat x = .finite a m q) (hy : Binary.ofFloat y = .finite b n p)
    (hn : 0 < n) : Binary.ofFloat (x * y) ≠ .nan := by
  obtain ⟨t, -, hyu⟩ := unpack_of_finite hy hn
  refine ofFloat_pack_ne_nan (u := .mul binary64 x.toModel.unpack y.toModel.unpack) ?_
  rw [hyu]
  rcases Nat.eq_zero_or_pos m with rfl | hm
  · obtain ⟨s, -, hxu⟩ := unpack_of_zero hx
    rw [hxu]
    exact nofun
  · obtain ⟨s, -, hxu⟩ := unpack_of_finite hx hm
    rw [hxu]
    exact roundWithAccuracy_ne_nan (s * t) _ _ _

theorem ofFloat_div_ne_nan (hx : Binary.ofFloat x = .finite a m q) (hy : Binary.ofFloat y = .finite b n p)
    (hn : 0 < n) : Binary.ofFloat (x / y) ≠ .nan := by
  obtain ⟨t, -, hyu⟩ := unpack_of_finite hy hn
  refine ofFloat_pack_ne_nan (u := .div binary64 x.toModel.unpack y.toModel.unpack) ?_
  rw [hyu]
  rcases Nat.eq_zero_or_pos m with rfl | hm
  · obtain ⟨s, -, hxu⟩ := unpack_of_zero hx
    rw [hxu]
    exact nofun
  · obtain ⟨s, -, hxu⟩ := unpack_of_finite hx hm
    rw [hxu]
    exact roundWithAccuracy_ne_nan (s / t) _ _ _

end Operations

theorem ofScientific_ne_nan (m : ℕ) (places : Bool) (e : ℕ) :
    Binary.ofFloat (Float.ofScientific m places e) ≠ .nan := by
  unfold Float.ofScientific
  split
  · -- few digits and a small power of ten: both are doubles, and the power is not zero
    rename_i hsmall
    obtain ⟨k, q, hk, -⟩ := ofFloat_toUInt64 hsmall.1
    obtain ⟨n, p, hn, hpos, -⟩ := exists_powerOfTen (Nat.lt_succ_of_le hsmall.2)
    dsimp only
    split
    · exact ofFloat_div_ne_nan hk hn hpos
    · exact ofFloat_mul_ne_nan hk hn hpos
  · exact ofFloat_pack_ne_nan (unpacked_ofScientific_ne_nan m _)

theorem not_isNaN_toFloat (negative : Bool) (d : ℕ) (e : ℤ) : (Numeral.decimal negative d e).toFloat.isNaN = false := by
  have hmagnitude : Binary.ofFloat (if e < 0 then Float.ofScientific d true e.natAbs
      else Float.ofScientific d false e.natAbs) ≠ .nan := by
    split
    · exact ofScientific_ne_nan d true _
    · exact ofScientific_ne_nan d false _
  rw [Bool.eq_false_iff, Ne, isNaN_iff]
  cases negative with
  | false => exact hmagnitude
  | true => exact ofFloat_neg_ne_nan hmagnitude

/-! ## Literals -/

section Literals

open Spelling (alphabet mem_alphabet_of_isDigit)

theorem mem_alphabet_of_isLiteralChar {c : Char} (h : isLiteralChar c) : c ∈ alphabet := by
  unfold isLiteralChar at h
  rcases Bool.or_eq_true_iff.1 h with h | h
  · rcases Bool.or_eq_true_iff.1 h with h | h
    · exact mem_alphabet_of_isDigit h
    · rw [beq_iff_eq.1 h]
      decide
  · rw [beq_iff_eq.1 h]
    decide

theorem mem_alphabet_takeLiteral (afterMark : Bool) (t : Text) : ∀ c ∈ (takeLiteral afterMark t).1, c ∈ alphabet := by
  fun_induction takeLiteral afterMark t with
  | case1 => exact List.forall_mem_nil _
  | case2 afterMark c rest hc literal after h ih =>
    rw [h] at ih
    refine List.forall_mem_cons.2 ⟨?_, ih⟩
    rcases Bool.or_eq_true_iff.1 hc with hc | hc
    · exact mem_alphabet_of_isLiteralChar hc
    · rw [beq_iff_eq.1 (Bool.and_eq_true_iff.1 hc).1]
      decide
  | case3 => exact List.forall_mem_nil _

theorem mem_alphabet_of_literal {t text : Text} (h : .literal t ∈ lexemes text) : ∀ c ∈ t, c ∈ alphabet := by
  fun_induction lexemes text with
  | case2 c rest hc run ih =>
    rcases List.mem_cons.1 h with h | h
    · obtain rfl := Lexeme.literal.inj h
      exact List.forall_mem_cons.2 ⟨mem_alphabet_of_isLiteralChar hc, mem_alphabet_takeLiteral _ _⟩
    · exact ih h
  | case8 c rest hc hname hblank ih => exact ih h
  | case5 c rest hc hname name inside hrest f hf arguments after hargs harity ih
  | case9 c rest hc hname hblank op hop ih =>
    rcases List.mem_cons.1 h with h | h
    · cases h
    · exact ih h
  | _ => simp at h

/-- The words begin with letters that no literal has. -/
theorem word?_of_alphabet {t : Text} (h : ∀ c ∈ t, c ∈ alphabet) (negative : Bool) : word? negative t = none := by
  have hsmall : alphabet.all fun c => c.toLower != 'n' := by decide
  have hall : 'n' ∉ Text.lowerAscii t := by
    intro hn
    obtain ⟨c, hc, heq⟩ := List.mem_map.1 hn
    have := List.all_eq_true.1 hsmall c (h c hc)
    simp [heq] at this
  have hne (word : Text) (hword : 'n' ∈ word) : Text.lowerAscii t ≠ word := by
    rintro rfl
    exact hall hword
  unfold word?
  dsimp only
  rw [if_neg (not_or.2 ⟨hne _ (by decide), hne _ (by decide)⟩), if_neg (hne _ (by decide))]

theorem splitSign_suffix (t : Text) : (splitSign t).2 <:+ t := by
  unfold splitSign
  split
  · exact List.suffix_cons ..
  · exact List.suffix_cons ..
  · exact List.suffix_rfl

theorem exists_of_unsigned? {negative : Bool} {t : Text} {n : Numeral} (h : unsigned? negative t = some n) :
    ∃ d e, n = .decimal negative d e := by
  unfold unsigned? at h
  dsimp only at h
  split_ifs at h
  obtain ⟨e, -, rfl⟩ := Option.map_eq_some_iff.1 h
  exact ⟨_, _, rfl⟩

theorem not_isNaN_of_readFloat? {t : Text} (h : ∀ c ∈ t, c ∈ alphabet) {v : Float} (hv : readFloat? t = some v) :
    v.isNaN = false := by
  obtain ⟨n, hn, rfl⟩ := Option.map_eq_some_iff.1 hv
  rw [Spelling.read?_eq h, word?_of_alphabet fun c hc => h c ((splitSign_suffix t).subset hc), Option.none_or] at hn
  obtain ⟨d, e, rfl⟩ := exists_of_unsigned? hn
  exact not_isNaN_toFloat ..

theorem eq_of_mem_glue {previous : Option Expr} : ∀ token ∈ glue previous, token = .bare .multiply := by
  intro token htoken
  unfold glue at htoken
  split at htoken
  · exact List.mem_singleton.1 htoken
  · exact nomatch htoken

theorem bare_of_mem_signTokens {previous : Option Expr} (op : Operator) :
    ∀ token ∈ signTokens previous op, ∃ op', token = .bare op' := by
  unfold signTokens
  split_ifs
  · exact List.forall_mem_append.2 ⟨fun token h => ⟨_, eq_of_mem_glue token h⟩, List.forall_mem_singleton.2 ⟨op, rfl⟩⟩
  · exact List.forall_mem_singleton.2 ⟨.negate, rfl⟩
  · exact List.forall_mem_singleton.2 ⟨op, rfl⟩

theorem not_isNaN_of_literalTokens {previous : Option Expr} {t : Text} {ts : List Expr}
    (h : literalTokens previous t = .ok ts) (ht : ∀ c ∈ t, c ∈ alphabet) :
    ∀ token ∈ ts, (∃ op, token = .bare op) ∨ ∃ v : Float, token = .number v ∧ v.isNaN = false := by
  obtain ⟨v, hv, rfl⟩ | rfl | ⟨exponent, v, rfl, hv, rfl⟩ := literalTokens_cases h
  · refine List.forall_mem_append.2 ⟨fun token htoken => .inl ⟨_, eq_of_mem_glue token htoken⟩, ?_⟩
    exact List.forall_mem_singleton.2 (.inr ⟨v, rfl, not_isNaN_of_readFloat? ht hv⟩)
  · exact List.forall_mem_singleton.2 (.inl ⟨_, rfl⟩)
  · have hnumber := not_isNaN_of_readFloat? (List.forall_mem_cons.1 ht).2 hv
    exact List.forall_mem_cons.2 ⟨.inl ⟨_, rfl⟩, List.forall_mem_singleton.2 (.inr ⟨v, rfl, hnumber⟩)⟩

end Literals

end Calculator
