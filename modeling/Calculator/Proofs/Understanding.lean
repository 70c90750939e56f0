import Calculator.Calculation
import Calculator.Proofs.Evaluation
import Calculator.Proofs.Reading
import Calculator.Proofs.Sequence

/-!
# What has a value is understood

* `PartOf` : a text and the arguments of its calls, at any depth.
* `Finished` : the tokens of a text are all taken, and none of them has a failure in it.
* `finished_of_intact` : so are the tokens of an intact tree; `PartOf.finished` carries it to the arguments.
* `understood_of_value` : a text with a value has an intact tree, and each of its parts is read to its end.
-/

namespace Calculator

set_option autoImplicit false

/-- `part` is the text itself, or stands inside `depth` calls of it as an argument. -/
inductive PartOf (text : Text) : (depth : Nat) → (part : Text) → Prop where
  | whole : PartOf text 0 text
  | argument {depth : Nat} {part a : Text} {f : NamedFunction} {arguments : List Text} (h : PartOf text depth part)
      (hc : .call f arguments ∈ lexemes part) (ha : a ∈ arguments) : PartOf text (depth + 1) a

/-- The text has tokens inside `depth` calls, which are read to their end without a failure. -/
def Finished (strict : Bool) (limit : Int) (depth : Nat) (text : Text) : Prop :=
  ∃ ts, tokenize strict limit depth text = .ok ts ∧ (readAt limit.toNat .expression ts).rest = [] ∧
    ∀ t ∈ ts, t.intact

theorem intact_token_of_tree {limit : Int} {ts : List Expr} (h : (treeOfTokens limit ts).intact) :
    (readAt limit.toNat .expression ts).rest = [] ∧ ∀ t ∈ ts, t.intact := by
  obtain ⟨D, rfl, hn, hrest⟩ := exists_derivation (Expr.readable_of_intact h)
  rw [treeOfTokens_tokens D hn] at h
  exact ⟨hrest, fun t ht => D.forAll_token h (fun _ => rfl) ht⟩

/-- The tree of a text as a derivation, and the tokens of the text. -/
theorem exists_derivation_of_text {strict : Bool} {limit : Int} {levels : Nat} {text : Text} {e : Expr}
    (h : treeWithin strict limit (levels + 1) text = .ok e) (hi : e.intact) :
    ∃ D : Derivation .expression, D.tree = e ∧ D.nesting ≤ limit.toNat ∧ (∀ t ∈ D.tokens, t.intact) ∧
      tokensFrom text (treeWithin strict limit levels) none (lexemes text) = .ok D.tokens := by
  obtain ⟨ts, hts, rfl⟩ := treeWithin_eq_ok.1 h
  obtain ⟨D, rfl, hn, -⟩ := exists_derivation (Expr.readable_of_intact hi)
  exact ⟨D, (treeOfTokens_tokens D hn).symm, hn, (intact_token_of_tree hi).2, (tokensWithin_succ_eq_ok.1 hts).1⟩

theorem Finished.argument {strict : Bool} {limit : Int} {depth : Nat} {text a : Text} {f : NamedFunction}
    {arguments : List Text} (h : Finished strict limit depth text) (hc : .call f arguments ∈ lexemes text)
    (ha : a ∈ arguments) : Finished strict limit (depth + 1) a := by
  obtain ⟨ts, hts, -, hintact⟩ := h
  obtain ⟨us, trees, hus, htree, hmem⟩ := exists_tokens_of_argument hts hc ha
  exact ⟨us, hus, intact_token_of_tree (intact_of_callToken (hintact _ hmem) _ htree)⟩

theorem PartOf.finished {strict : Bool} {limit : Int} {text part : Text} {depth : Nat} (h : PartOf text depth part)
    (hf : Finished strict limit 0 text) : Finished strict limit depth part := by
  induction h with
  | whole => exact hf
  | argument _ hc ha ih => exact ih.argument hc ha

theorem finished_of_intact {strict : Bool} {limit : Int} {text : Text} {e : Expr}
    (he : treeOf strict limit text = .ok e) (h : e.intact) : Finished strict limit 0 text := by
  obtain ⟨ts, hts, rfl⟩ := treeWithin_eq_ok.1 (treeOf_eq_treeWithin ▸ he)
  exact ⟨ts, hts, intact_token_of_tree h⟩

theorem Setup.evaluate_eq_ok {s : Setup} {x : Float} {text : Text} {outcome : Outcome} :
    s.evaluate x text = .ok outcome ↔ ∃ e, s.treeOf text = .ok e ∧ e.evaluate x s.angleMode = outcome :=
  bind_eq_ok.trans (exists_congr fun _ => and_congr_right fun _ => ⟨Except.ok.inj, congrArg _⟩)

/-- **What has a value is understood**: no part of the tree of a text with a value is a failure, and the text and every
argument in it are read to their last token. A failure at any place of a tree leaves the tree without a value. -/
theorem understood_of_value (s : Setup) (text : Text) :
    (∀ x v, s.evaluate x text = .ok (.ok (some v)) → (∃ e, s.treeOf text = .ok e ∧ e.intact) ∧
      ∀ depth part, PartOf text depth part → ∃ ts, tokenize (!s.graphing) s.maxDepth depth part = .ok ts ∧
        (readAt s.maxDepth.toNat .expression ts).position = ts.length) ∧
    ∀ e : Expr, ¬ e.intact → ∀ x mode, (∀ v, e.evaluate x mode ≠ .ok (some v)) ∧
      (e.concrete → e.evaluate x mode = .ok none) := by
  constructor
  · intro x v h
    obtain ⟨e, he, hv⟩ := Setup.evaluate_eq_ok.1 h
    have hintact := Expr.intact_of_evaluate hv
    refine ⟨⟨e, he, hintact⟩, fun depth part hpart => ?_⟩
    obtain ⟨ts, hts, hrest, -⟩ := hpart.finished (finished_of_intact he hintact)
    exact ⟨ts, hts, by rw [Reading.position, hrest]; rfl⟩
  · intro e h x mode
    exact ⟨fun v hv => h (Expr.intact_of_evaluate hv), fun hc => Expr.evaluate_of_not_intact hc h⟩

end Calculator
