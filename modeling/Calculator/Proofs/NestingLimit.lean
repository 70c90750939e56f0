import Calculator.Proofs.Understanding

/-!
# Raising the nesting limit

The limit counts twice: how deep calls stand inside one another, and, from zero again in every argument, how deep
parentheses, signs and powers do. A text that is understood under one limit does not reach it, so that a greater limit
reads the same.

* `treeOfTokens_raised` : tokens that are understood have the same tree.
* `tokensWithin_raised` : a text whose tree has no failure has the same tokens.
* `treeOf_raised` : so it has the same tree.
* `value_of_raised_limit` : so it has the same value.
-/

namespace Calculator

set_option autoImplicit false

variable {strict : Bool} {limit limit' : Int} {levels levels' : Nat} {text : Text} {ts : List Expr} {e : Expr}

/-- A derivation that fits into a limit fits into a greater one. -/
theorem treeOfTokens_raised (h : limit ≤ limit') (hi : (treeOfTokens limit ts).readable) :
    treeOfTokens limit' ts = treeOfTokens limit ts := by
  obtain ⟨D, rfl, hn, -⟩ := exists_derivation hi
  have hn' : D.nesting ≤ limit'.toNat := by omega
  rw [treeOfTokens_tokens D hn, treeOfTokens_tokens D hn']

theorem tokensWithin_raised (h : limit ≤ limit') (hl : levels ≤ levels')
    (hts : tokensWithin strict limit levels text = .ok ts) (hi : (treeOfTokens limit ts).intact) :
    tokensWithin strict limit' levels' text = .ok ts := by
  induction levels generalizing levels' text ts with
  | zero => exact nomatch hts
  | succ levels ih =>
    obtain ⟨levels', rfl⟩ : ∃ n, levels' = n + 1 := ⟨levels' - 1, by omega⟩
    obtain ⟨htokens, hfault⟩ := tokensWithin_succ_eq_ok.1 hts
    refine tokensWithin_succ_eq_ok.2 ⟨?_, hfault⟩
    apply tokensFrom_congr htokens
    intro f arguments trees htrees hmem
    rw [mapM_eq_ok] at htrees ⊢
    apply forall₂_mono htrees
    intro a _ e he hae
    -- an argument of an intact tree is intact itself, and so is read the same under both limits
    have hintact : e.intact := intact_of_callToken ((intact_token_of_tree hi).2 _ hmem) e he
    obtain ⟨us, hus, rfl⟩ := treeWithin_eq_ok.1 hae
    have hus' := ih (by omega : levels ≤ levels') hus hintact
    exact treeWithin_eq_ok.2 ⟨us, hus', treeOfTokens_raised h (Expr.readable_of_intact hintact)⟩

theorem treeOf_raised (h : limit ≤ limit') (he : treeOf strict limit text = .ok e) (hi : e.intact) :
    treeOf strict limit' text = .ok e := by
  rw [treeOf_eq_treeWithin, treeWithin_eq_ok] at he ⊢
  obtain ⟨ts, hts, rfl⟩ := he
  have hlevels : (limit - 0 + 1).toNat ≤ (limit' - 0 + 1).toNat := by omega
  exact ⟨ts, tokensWithin_raised h hlevels hts hi, treeOfTokens_raised h (Expr.readable_of_intact hi)⟩

/-- **Raising the nesting limit never changes a value.** -/
theorem value_of_raised_limit {s : Setup} (h : s.maxDepth ≤ limit) {x v : Float}
    (hv : s.evaluate x text = .ok (.ok (some v))) :
    { s with maxDepth := limit }.evaluate x text = .ok (.ok (some v)) := by
  rw [Setup.evaluate_eq_ok] at hv ⊢
  obtain ⟨e, he, hvalue⟩ := hv
  exact ⟨e, treeOf_raised h he (Expr.intact_of_evaluate hvalue), hvalue⟩

/-- Parentheses in an argument: with one call and one pair of parentheses the limit `1` is reached, and raised to `5`. -/
theorem value_of_raised_limit_abs :
    (1 : Int) ≤ 5 ∧ Setup.evaluate ⟨.radians, false, 1⟩ 0.0 "abs((2-5))".toList = .ok (.ok (some 3.0)) ∧
      Setup.evaluate ⟨.radians, false, 0⟩ 0.0 "abs((2-5))".toList ≠ .ok (.ok (some 3.0)) ∧
      Setup.evaluate ⟨.radians, false, 5⟩ 0.0 "abs((2-5))".toList = .ok (.ok (some 3.0)) := by
  have hle : (1 : Int) ≤ 5 := by decide
  have hvalue : Setup.evaluate ⟨.radians, false, 1⟩ 0.0 "abs((2-5))".toList = .ok (.ok (some 3.0)) := by
    decide +kernel
  have hdeep : Setup.evaluate ⟨.radians, false, 0⟩ 0.0 "abs((2-5))".toList ≠ .ok (.ok (some 3.0)) := by
    decide +kernel
  exact ⟨hle, hvalue, hdeep, value_of_raised_limit hle hvalue⟩

end Calculator
