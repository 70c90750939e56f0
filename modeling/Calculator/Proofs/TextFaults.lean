import Calculator.Calculation
import Calculator.Proofs.Except
import Calculator.Proofs.Lexemes

/-!
# Faults of texts

`isTextual_of_treeOf` : a text that has no tree has an unexpected token or an unmatched parenthesis, in itself or in an
argument of a call; each step from the text to its tree adds only such faults.
-/

namespace Calculator

set_option autoImplicit false

/-- The fault is one of the two that a text can have. -/
def LexicalFault.IsTextual (k : LexicalFault) : Prop := k.kind = .unexpectedToken ∨ k.kind = .unmatchedParenthesis

section Faults

variable {text : Text} {e : TokenError}

theorem isTextual_of_findFaultFrom {pending : ℕ} {previous : Option Operator} {ts : List Expr} {k : ParsingFault}
    (h : findFaultFrom pending previous ts = some k) : (LexicalFault.misplaced k).IsTextual := by
  unfold LexicalFault.IsTextual LexicalFault.kind
  fun_induction findFaultFrom pending previous ts <;> simp_all

theorem isTextual_of_lexemes {k : LexicalFault} (h : .fault k ∈ lexemes text) : k.IsTextual := by
  unfold LexicalFault.IsTextual
  fun_induction lexemes text <;> simp_all [LexicalFault.kind]

theorem isTextual_of_literalTokens {previous : Option Expr} {literal : Text} {k : LexicalFault}
    (h : literalTokens previous literal = .error k) : k.IsTextual := by
  unfold literalTokens at h
  split at h
  · cases h
  · split at h
    · cases h
    · split at h
      · cases h
      · exact Except.error.inj h ▸ .inl rfl
    · exact Except.error.inj h ▸ .inl rfl

theorem isTextual_of_tokensFrom {argument : Text → Except TokenError Expr} {previous : Option Expr} {ls : List Lexeme}
    (h : tokensFrom text argument previous ls = .error e) (hfaults : ∀ k, .fault k ∈ ls → k.IsTextual)
    (harguments : ∀ a e, argument a = .error e → e.fault.IsTextual) : e.fault.IsTextual := by
  induction ls generalizing previous with
  | nil => cases h
  | cons l ls ih =>
    rcases bind_eq_error.1 h with hl | ⟨us, -, h⟩
    · cases l with
      | literal t =>
        obtain ⟨k, hk, rfl⟩ := mapError_eq_error.1 hl
        exact isTextual_of_literalTokens hk
      | call f arguments =>
        rcases bind_eq_error.1 hl with hl | ⟨trees, -, hl⟩
        · obtain ⟨a, -, ha⟩ := mapM_eq_error hl
          exact harguments a e ha
        · cases hl
      | sign op => cases hl
      | fault k =>
        obtain rfl := Except.error.inj hl
        exact hfaults k (List.mem_cons_self ..)
    · rcases bind_eq_error.1 h with hls | ⟨vs, -, h⟩
      · exact ih hls fun k hk => hfaults k (List.mem_cons_of_mem _ hk)
      · cases h

/-- A text that has no tree has one of two faults. -/
theorem isTextual_of_tokensWithin {strict : Bool} {limit : Int} {levels : ℕ}
    (h : tokensWithin strict limit levels text = .error e) : e.fault.IsTextual := by
  induction levels generalizing text e with
  | zero =>
    obtain rfl := Except.error.inj h
    exact .inl rfl
  | succ levels ih =>
    rcases bind_eq_error.1 h with h | ⟨ts, -, h⟩
    · refine isTextual_of_tokensFrom h (fun k => isTextual_of_lexemes) fun a e he => ?_
      rcases bind_eq_error.1 he with he | ⟨us, -, he⟩
      · exact ih he
      · cases he
    · unfold inOrder at h
      split at h
      · rename_i k hk
        obtain rfl := Except.error.inj h
        cases strict with
        | false => cases hk
        | true => exact isTextual_of_findFaultFrom hk
      · cases h

theorem isTextual_of_treeOf {s : Setup} (h : s.treeOf text = .error e) : e.fault.IsTextual := by
  rcases bind_eq_error.1 h with h | ⟨ts, -, h⟩
  · exact isTextual_of_tokensWithin h
  · cases h

end Faults

end Calculator
