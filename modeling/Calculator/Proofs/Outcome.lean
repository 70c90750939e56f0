import Calculator.Proofs.ReadBack

/-!
# The outcome of a calculation

* `promisedText` : what a calculation is to show: the kind of the fault, a failure, the value, a number as it was
  written, or that there is no result.
* `treeOf_unexpectedToken` : a text with a name that is not called is refused, whatever the setup.
* `calculate_eq_promisedText_iff` : a calculation shows this, unless the text is the name of its own fault.
-/

namespace Calculator

set_option autoImplicit false

/-- What is to be shown for a text without `ans`. -/
def promisedText (s : Setup) (text : Text) : Text :=
  match s.treeOf text with
  | .error e => e.kind.text
  | .ok tree =>
    if tree.isFailure then failureText
    else
      match s.finiteValue? 0.0 tree with
      | some v => Display.text v
      | none => if isFiniteNumeral text then text else noResultText

/-! ## Refused texts -/

section Refused

variable {s : Setup} {text : Text}

/-- The pieces of a text give the fault before any call is looked into. -/
def IsRefused (text : Text) : Prop :=
  ∃ k : LexicalFault, k.kind = .unexpectedToken ∧
    ∀ argument, tokensFrom text argument none (lexemes text) = .error ⟨k, text⟩

theorem treeOf_unexpectedToken (h : IsRefused text) :
    ∃ e : TokenError, s.treeOf text = .error e ∧ e.kind = .unexpectedToken := by
  obtain ⟨k, hk, htokens⟩ := h
  rw [Setup.treeOf, treeOf_eq_treeWithin]
  cases (s.maxDepth - 0 + 1).toNat with
  | zero => exact ⟨_, rfl, rfl⟩
  | succ levels =>
    refine ⟨⟨k, text⟩, ?_, hk⟩
    rw [treeWithin, tokensWithin, htokens]
    rfl

/-- The texts of failures go wrong after their first letters at the latest. -/
theorem lexemes_failureTexts :
    lexemes ParsingFault.unexpectedToken.text = [.fault (.notCalled "unexpected".toList)] ∧
      lexemes ParsingFault.unmatchedParenthesis.text = [.fault (.notCalled "unmatched".toList)] ∧
      lexemes ParsingFault.evaluationError.text = [.sign .euler, .fault (.notCalled "valuation".toList)] ∧
      lexemes failureText = [.literal "E".toList, .fault (.notCalled "rror".toList)] := by
  decide +kernel

theorem isRefused_unexpectedToken : IsRefused ParsingFault.unexpectedToken.text :=
  ⟨_, rfl, fun _ => by rw [lexemes_failureTexts.1]; rfl⟩

theorem isRefused_unmatchedParenthesis : IsRefused ParsingFault.unmatchedParenthesis.text :=
  ⟨_, rfl, fun _ => by rw [lexemes_failureTexts.2.1]; rfl⟩

theorem isRefused_evaluationError : IsRefused ParsingFault.evaluationError.text :=
  ⟨_, rfl, fun _ => by rw [lexemes_failureTexts.2.2.1]; rfl⟩

theorem isRefused_failureText : IsRefused failureText :=
  ⟨_, rfl, fun _ => by rw [lexemes_failureTexts.2.2.2]; rfl⟩

end Refused

/-! ## Outcomes -/

section Outcome

variable {s : Setup} {text : Text}

theorem promisedText_of_error {e : TokenError} (h : s.treeOf text = .error e) : promisedText s text = e.kind.text := by
  rw [promisedText, h]

theorem shownText_of_error {e : TokenError} (h : s.treeOf text = .error e) : shownText s text = e.kind.text := by
  rw [shownText, h]

/-- Of the names of faults only one is the name of its own fault. -/
theorem eq_of_error {e : TokenError} (h : s.treeOf text = .error e) (htext : e.kind.text = text) :
    text = ParsingFault.unexpectedToken.text := by
  have hkind (hrefused : IsRefused text) : e.kind = .unexpectedToken := by
    obtain ⟨e', he', hk⟩ := treeOf_unexpectedToken (s := s) hrefused
    obtain rfl := Except.error.inj (h.symm.trans he')
    exact hk
  cases hk : e.kind with
  | unexpectedToken => rw [← htext, hk]
  | unmatchedParenthesis =>
    rw [hk] at htext
    rw [hkind (htext ▸ isRefused_unmatchedParenthesis)] at hk
    cases hk
  | evaluationError =>
    rw [hk] at htext
    rw [hkind (htext ▸ isRefused_evaluationError)] at hk
    cases hk

section Tree

variable {tree : Expr} (h : s.treeOf text = .ok tree)

include h

theorem promisedText_of_failure (hfailure : tree.isFailure) : promisedText s text = failureText := by
  rw [promisedText, h]
  exact if_pos hfailure

theorem promisedText_of_value {v : Float} (hfailure : tree.isFailure = false)
    (hv : s.finiteValue? 0.0 tree = some v) : promisedText s text = Display.text v := by
  rw [promisedText, h]
  simp only [hfailure, hv]
  rfl

theorem promisedText_of_no_value (hfailure : tree.isFailure = false) (hv : s.finiteValue? 0.0 tree = none) :
    promisedText s text = if isFiniteNumeral text then text else noResultText := by
  rw [promisedText, h]
  simp only [hfailure, hv]
  rfl

/-- Of the texts that are understood those repeated in the result write finite numbers, or have no value. -/
theorem promisedText_of_tree : promisedText s text =
    if shownText s text = text ∧ !isFiniteNumeral text then noResultText else shownText s text := by
  cases hfailure : tree.isFailure with
  | true =>
    have hshown : shownText s text = failureText := by
      rw [shownText_of_tree h, shownValue, hfailure, if_pos rfl]
    rw [promisedText_of_failure h hfailure, hshown]
    refine (if_neg fun hrepeat => ?_).symm
    -- the text of the failure is itself no expression
    obtain ⟨e, he, -⟩ := treeOf_unexpectedToken (s := s) (hrepeat.1 ▸ isRefused_failureText)
    cases h.symm.trans he
  | false =>
    cases hv : s.finiteValue? 0.0 tree with
    | some v =>
      have hshown : shownText s text = Display.text v := by
        rw [shownText_of_tree h, shownValue, hfailure, if_neg Bool.false_ne_true, hv]
      rw [promisedText_of_value h hfailure hv, hshown]
      refine (if_neg fun hrepeat => ?_).symm
      have hnumeral := isFiniteNumeral_text (Option.filter_eq_some_iff.1 hv).2
      rw [hrepeat.1] at hnumeral
      simp [hnumeral] at hrepeat
    | none =>
      have hshown : shownText s text = text := by
        rw [shownText_of_tree h, shownValue, hfailure, if_neg Bool.false_ne_true, hv]
      rw [promisedText_of_no_value h hfailure hv, hshown]
      cases isFiniteNumeral text <;> simp

end Tree

theorem not_isFiniteNumeral_unexpectedToken : isFiniteNumeral ParsingFault.unexpectedToken.text = false := by
  decide +kernel

end Outcome

/-- **A calculation shows the outcome of the text**, exactly if the text is not the name of the fault that it has. -/
theorem calculate_eq_promisedText_iff (s : Setup) (answer problem : Text) :
    calculate s answer problem = promisedText s (substituteAnswer answer problem) ↔
      substituteAnswer answer problem ≠ "unexpected-token".toList := by
  set text := substituteAnswer answer problem with htext
  rw [calculate_eq, ← htext]
  cases htree : s.treeOf text with
  | ok tree =>
    refine iff_of_true (promisedText_of_tree htree).symm fun h => ?_
    obtain ⟨e, he, -⟩ := treeOf_unexpectedToken (s := s) isRefused_unexpectedToken
    cases htree.symm.trans ((congrArg s.treeOf h).trans he)
  | error e =>
    rw [shownText_of_error htree, promisedText_of_error htree]
    constructor
    · intro h hname
      obtain ⟨e', he', hkind⟩ := treeOf_unexpectedToken (s := s) isRefused_unexpectedToken
      obtain rfl := Except.error.inj (htree.symm.trans ((congrArg s.treeOf hname).trans he'))
      rw [hkind, hname, if_pos ⟨rfl, congrArg not not_isFiniteNumeral_unexpectedToken⟩] at h
      exact absurd h (by decide)
    · intro hname
      rw [if_neg fun h => hname (eq_of_error htree h.1)]

/-- A fault is reported by its name, and its name is reported as no result. -/
theorem calculate_unexpectedToken :
    promisedText ⟨.radians, false, defaultMaxDepth⟩ (substituteAnswer [] "unexpected-token".toList) =
        "unexpected-token".toList ∧
      calculate ⟨.radians, false, defaultMaxDepth⟩ [] "unexpected-token".toList = "Error2".toList := by
  decide +kernel

end Calculator
