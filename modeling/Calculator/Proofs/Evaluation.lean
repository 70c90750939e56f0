import Calculator.Expr.Evaluation
import Calculator.Proofs.Except
import Calculator.Proofs.Grammar

/-!
# Failures have no value

* `evaluateOnto_eq` : a tree is evaluated first, and its value is then carried along the links.
* `evaluate_unary`, `evaluate_binary`, `evaluate_call`, `evaluate_call₂` : the value of a node from those of its operands.
* `intact_of_evaluate` : a tree with a value has no failure at any place.
* `exists_evaluate` : without holes there is an outcome.
-/

namespace Calculator

set_option autoImplicit false

open Calculator.Number (ArithmeticFault power)

namespace Expr

/-- No node is a hole. -/
def concrete (e : Expr) : Bool := e.forAll fun n => match n with
  | hole => false
  | _ => true

variable {x v : Float} {mode : AngleMode}

/-! ## One node -/

theorem follow_none (links : List Link) : follow none links = .ok none := by cases links <;> rfl

theorem follow_cons (v? : Option Float) (link : Link) (links : List Link) :
    follow v? (link :: links) = (follow v? [link] >>= fun u? => follow u? links) := by
  cases v? with
  | none => exact (follow_none links).symm
  | some v =>
    simp only [follow, bind_assoc]
    rfl

theorem evaluateOnto_eq (e : Expr) (links : List Link) :
    evaluateOnto x mode e links = (e.evaluate x mode >>= fun v? => follow v? links) := by
  induction e generalizing links with
  | binary l op r ihl ihr =>
    rw [evaluate, evaluateOnto, evaluateOnto, ihl, ihl [_], bind_assoc]
    exact bind_congr fun v? => follow_cons ..
  | unary op e ih =>
    simp only [evaluate, evaluateOnto, bind_assoc]
    refine bind_congr fun v? => ?_
    cases v? with
    | none => cases links <;> rfl
    | some v => simp only [bind_assoc]; rfl
  | call f e ih => simp only [evaluate, evaluateOnto, bind_assoc]; rfl
  | call₂ f a b => simp only [evaluate, evaluateOnto, bind_assoc]; rfl
  | _ => rfl

theorem evaluate_unary (op : Operator) (e : Expr) :
    (unary op e).evaluate x mode = (e.evaluate x mode >>= fun v? => v?.elim (.ok none) (applyUnary op)) := by
  rw [evaluate, evaluateOnto]
  refine bind_congr fun v? => ?_
  cases v? with
  | none => rfl
  | some v => exact bind_pure (applyUnary op v)

theorem evaluate_binary (l : Expr) (op : Operator) (r : Expr) :
    (binary l op r).evaluate x mode = (l.evaluate x mode >>= fun u? => u?.elim (.ok none) fun u =>
      r.evaluate x mode >>= fun v? => .ok (combine? op (some u) v?)) := by
  rw [evaluate, evaluateOnto, evaluateOnto_eq]
  refine bind_congr fun u? => ?_
  cases u? <;> rfl

theorem evaluate_call (f : NamedFunction) (e : Expr) :
    (call f e).evaluate x mode = (e.evaluate x mode >>= fun v? => .ok (v?.bind (f.value? mode))) := rfl

theorem evaluate_call₂ (f : NamedFunction) (a b : Expr) :
    (call₂ f a b).evaluate x mode = (a.evaluate x mode >>= fun u? => b.evaluate x mode >>= fun v? =>
      .ok (u?.bind fun u => v?.bind fun v => f.value₂? u v)) := rfl

/-! ## Every node -/

/-- **A tree with a value has no failure at any place.** -/
theorem intact_of_evaluate {e : Expr} (h : e.evaluate x mode = .ok (some v)) : e.intact := by
  induction e generalizing v with
  | failure k => exact nomatch h
  | unary op e ih =>
    rw [evaluate_unary, bind_eq_ok] at h
    obtain ⟨u?, hu, h⟩ := h
    cases u? with
    | none => exact nomatch h
    | some u => exact ih hu
  | binary l op r ihl ihr =>
    rw [evaluate_binary, bind_eq_ok] at h
    obtain ⟨u?, hu, h⟩ := h
    cases u? with
    | none => exact nomatch h
    | some u =>
      obtain ⟨w?, hw, h⟩ := bind_eq_ok.1 h
      cases w? with
      | none => exact nomatch h
      | some w => rw [intact_binary, ihl hu, ihr hw]; rfl
  | call f e ih =>
    rw [evaluate_call, bind_eq_ok] at h
    obtain ⟨u?, hu, h⟩ := h
    cases u? with
    | none => exact nomatch h
    | some u => exact ih hu
  | call₂ f a b iha ihb =>
    rw [evaluate_call₂, bind_eq_ok] at h
    obtain ⟨u?, hu, h⟩ := h
    obtain ⟨w?, hw, h⟩ := bind_eq_ok.1 h
    cases u? with
    | none => exact nomatch h
    | some u =>
      cases w? with
      | none => exact nomatch h
      | some w => rw [intact_call₂, iha hu, ihb hw]; rfl
  | _ => rfl

theorem power_ten (v : Float) {fault : ArithmeticFault} (h : power 10.0 v = .error fault) : fault = .overflow := by
  have hz : ((10.0 : Float) == 0.0) = false := by decide +kernel
  have hn : decide ((10.0 : Float) < 0.0) = false := by decide +kernel
  simp only [power, hz, hn, Bool.false_and, Bool.false_eq_true, ↓reduceIte] at h
  split at h
  · exact nomatch h
  · split at h
    · split at h
      · exact (Except.error.inj h).symm
      · exact nomatch h
    · exact nomatch h

theorem exists_applyUnary (op : Operator) (v : Float) : ∃ v?, applyUnary op v = .ok v? := by
  cases op with
  | scientific =>
    rw [applyUnary]
    split
    · exact ⟨_, rfl⟩
    · exact ⟨_, rfl⟩
    · rename_i fault hne h
      exact absurd (power_ten v h) hne
  | _ => exact ⟨_, rfl⟩

theorem exists_evaluate {e : Expr} (h : e.concrete) : ∃ v?, e.evaluate x mode = .ok v? := by
  induction e with
  | hole => exact nomatch h
  | unary op e ih =>
    simp only [concrete, forAll, Bool.and_eq_true] at h
    obtain ⟨u?, hu⟩ := ih h.2
    rw [evaluate_unary, hu]
    cases u? with
    | none => exact ⟨none, rfl⟩
    | some u => exact exists_applyUnary op u
  | binary l op r ihl ihr =>
    simp only [concrete, forAll, Bool.and_eq_true] at h
    obtain ⟨u?, hu⟩ := ihl h.1.2
    obtain ⟨w?, hw⟩ := ihr h.2
    rw [evaluate_binary, hu, hw]
    cases u? <;> exact ⟨_, rfl⟩
  | call f e ih =>
    simp only [concrete, forAll, Bool.and_eq_true] at h
    obtain ⟨u?, hu⟩ := ih h.2
    rw [evaluate_call, hu]
    exact ⟨_, rfl⟩
  | call₂ f a b iha ihb =>
    simp only [concrete, forAll, Bool.and_eq_true] at h
    obtain ⟨u?, hu⟩ := iha h.1.2
    obtain ⟨w?, hw⟩ := ihb h.2
    rw [evaluate_call₂, hu, hw]
    exact ⟨_, rfl⟩
  | _ => exact ⟨_, rfl⟩

theorem evaluate_of_not_intact {e : Expr} (hc : e.concrete) (h : ¬ e.intact) : e.evaluate x mode = .ok none := by
  obtain ⟨v?, hv⟩ := exists_evaluate hc
  cases v? with
  | none => exact hv
  | some v => exact absurd (intact_of_evaluate hv) h

end Expr

end Calculator
