import Calculator.Proofs.Evaluation

/-!
# Chains and plain recursion

A chain is evaluated in a loop that ends with the first undefined link. Its value is that of the plain recursion, which
evaluates every operand. To say that both do the same operations in the same order, they are carried out once more with a
log of what they do.

* `Operation`, `Operation.perform` : an operator or a function, and the values it is applied to.
* `Logged` : an outcome with the operations that led to it.
* `Expr.loggedEvaluate`, `Expr.loggedValue` : the loop and the recursion with a log.
* `Expr.result_loggedEvaluate`, `Expr.result_loggedValue` : the log changes no outcome.
* `Expr.exists_beginsWith` : the loop leaves operations out, but only where the outcome is undefined.
* `Expr.evaluation_of_chains` : the loop and the recursion agree.
-/

namespace Calculator

set_option autoImplicit false

/-! ## Yields -/

inductive Operation where
  | unary (op : Operator) (v : Float)
  | binary (op : Operator) (u v : Float)
  | call (f : NamedFunction) (v : Float)
  | call₂ (f : NamedFunction) (u v : Float)

def Operation.perform (mode : AngleMode) : Operation → Outcome
  | unary op v => applyUnary op v
  | binary op u v => .ok (combine op u v)
  | call f v => .ok (f.value? mode v)
  | call₂ f u v => .ok (f.value₂? u v)

/-- A computation, with the operations in the order in which they were performed. -/
structure Logged (α : Type) where
  result : Except EvaluationFault α
  operations : List Operation

namespace Logged

variable {α β : Type}

def bind (l : Logged α) (f : α → Logged β) : Logged β :=
  match l.result with
  | .ok a => ⟨(f a).result, l.operations ++ (f a).operations⟩
  | .error fault => ⟨.error fault, l.operations⟩

instance : Monad Logged where
  pure a := ⟨.ok a, []⟩
  bind := bind

@[simp] theorem result_bind (l : Logged α) (f : α → Logged β) :
    (l >>= f).result = l.result >>= fun a => (f a).result := by
  obtain ⟨result, ops⟩ := l
  cases result <;> rfl

/-- The computation gives the value by these operations. -/
def Yields (l : Logged α) (a : α) (ops : List Operation) : Prop := l.result = .ok a ∧ l.operations = ops

variable {l : Logged α} {f : α → Logged β} {a : α} {b : β} {ops : List Operation}

theorem yields_pure (a : α) : Yields (pure a) a [] := ⟨rfl, rfl⟩

theorem eq_of_yields_pure {c : α} (h : Yields (pure c) a ops) : c = a ∧ [] = ops := ⟨Except.ok.inj h.1, h.2⟩

theorem yields_bind_iff :
    Yields (l >>= f) b ops ↔ ∃ a first next, Yields l a first ∧ Yields (f a) b next ∧ first ++ next = ops := by
  obtain ⟨result, done⟩ := l
  cases result with
  | error fault => exact iff_of_false (fun h => nomatch h.1) fun ⟨a, _, _, h, _⟩ => nomatch h.1
  | ok a =>
    constructor
    · rintro ⟨hb, rfl⟩
      exact ⟨a, done, _, ⟨rfl, rfl⟩, ⟨hb, rfl⟩, rfl⟩
    · rintro ⟨a', first, next, ⟨ha, rfl⟩, ⟨hb, rfl⟩, rfl⟩
      obtain rfl := Except.ok.inj ha
      exact ⟨hb, rfl⟩

/-! ## Operations with a log -/

section Perform

variable (mode : AngleMode)

def perform (operation : Operation) : Logged (Option Float) := ⟨operation.perform mode, [operation]⟩

def perform₁ (operation : Float → Operation) : Option Float → Logged (Option Float)
  | some v => perform mode (operation v)
  | none => pure none

def perform₂ (operation : Float → Float → Operation) : Option Float → Option Float → Logged (Option Float)
  | some u, some v => perform mode (operation u v)
  | _, _ => pure none

theorem result_perform₁_unary (op : Operator) (v? : Option Float) :
    (perform₁ mode (.unary op) v?).result = v?.elim (.ok none) (applyUnary op) := by cases v? <;> rfl

theorem result_perform₁_call (f : NamedFunction) (v? : Option Float) :
    (perform₁ mode (.call f) v?).result = .ok (v?.bind (f.value? mode)) := by cases v? <;> rfl

theorem result_perform₂_binary (op : Operator) (u? v? : Option Float) :
    (perform₂ mode (.binary op) u? v?).result = .ok (combine? op u? v?) := by cases u? <;> cases v? <;> rfl

theorem result_perform₂_call₂ (f : NamedFunction) (u? v? : Option Float) :
    (perform₂ mode (.call₂ f) u? v?).result = .ok (u?.bind fun u => v?.bind fun v => f.value₂? u v) := by
  cases u? <;> cases v? <;> rfl

variable {mode} {u? v? w? : Option Float} {ops : List Operation}

theorem isSome_of_yields_perform₁ {operation : Float → Operation} (h : Yields (perform₁ mode operation u?) v? ops)
    (hv : v?.isSome) : u?.isSome := by
  cases u? with
  | none => exact (eq_of_yields_pure h).1 ▸ hv
  | some u => rfl

theorem isSome_of_yields_perform₂ {operation : Float → Float → Operation}
    (h : Yields (perform₂ mode operation u? v?) w? ops) (hw : w?.isSome) : u?.isSome ∧ v?.isSome := by
  cases u? with
  | none =>
    obtain rfl := (eq_of_yields_pure h).1
    exact nomatch hw
  | some u =>
    cases v? with
    | none =>
      obtain rfl := (eq_of_yields_pure h).1
      exact nomatch hw
    | some v => exact ⟨rfl, rfl⟩

end Perform

/-! ## Operations left out -/

section Shortens

variable {u? v? : Option Float} {s s' t t' : List Operation}

/-- Operations may be left out of the log, but only on the way to an undefined result. -/
def Shortens (v? : Option Float) (s t : List Operation) : Prop := s.Sublist t ∧ (v?.isSome → s = t)

theorem Shortens.refl (v? : Option Float) (s : List Operation) : Shortens v? s s := ⟨.refl s, fun _ => rfl⟩

theorem Shortens.mono (h : Shortens u? s t) (hvu : v?.isSome → u?.isSome) : Shortens v? s t :=
  ⟨h.1, fun hv => h.2 (hvu hv)⟩

theorem Shortens.append (h : Shortens v? s t) (h' : Shortens v? s' t') : Shortens v? (s ++ s') (t ++ t') :=
  ⟨h.1.append h'.1, fun hv => by rw [h.2 hv, h'.2 hv]⟩

end Shortens

end Logged

open Logged

/-! ## Evaluation with a log -/

structure LoggedLink where
  op : Operator
  right : Unit → Logged (Option Float)

def LoggedLink.link (link : LoggedLink) : Link := ⟨link.op, fun _ => (link.right ()).result⟩

/-- Carries a value along the links of a chain. -/
def loggedFollow (mode : AngleMode) : Option Float → List LoggedLink → Logged (Option Float)
  | v?, [] => pure v?
  | none, _ :: _ => pure none
  | some v, link :: links => do
    let w? ← link.right ()
    loggedFollow mode (← perform₂ mode (.binary link.op) (some v) w?) links

theorem result_loggedFollow (mode : AngleMode) (v? : Option Float) (links : List LoggedLink) :
    (loggedFollow mode v? links).result = follow v? (links.map LoggedLink.link) := by
  fun_induction loggedFollow mode v? links with
  | case1 v? => cases v? <;> rfl
  | case2 => rfl
  | case3 v link links ih =>
    simp only [result_bind, result_perform₂_binary, ih]
    rfl

theorem loggedFollow_none (mode : AngleMode) (links : List LoggedLink) : loggedFollow mode none links = pure none := by
  cases links <;> rfl

namespace Expr

/-- The value of a chain that begins with the tree and goes on with the links. -/
def loggedOnto (x : Float) (mode : AngleMode) : Expr → List LoggedLink → Logged (Option Float)
  | binary l op r, links => loggedOnto x mode l (⟨op, fun _ => loggedOnto x mode r []⟩ :: links)
  | number v, links => loggedFollow mode (some v) links
  | name _, links => loggedFollow mode (some x) links
  | bare op, links => loggedFollow mode (op.value? x) links
  | unary op e, links => do
    loggedFollow mode (← perform₁ mode (.unary op) (← loggedOnto x mode e [])) links
  | call f e, links => do
    loggedFollow mode (← perform₁ mode (.call f) (← loggedOnto x mode e [])) links
  | call₂ f a b, links => do
    let u? ← loggedOnto x mode a []
    let v? ← loggedOnto x mode b []
    loggedFollow mode (← perform₂ mode (.call₂ f) u? v?) links
  | failure _, links => loggedFollow mode none links
  | hole, _ => ⟨.error .hole, []⟩

def loggedEvaluate (e : Expr) (x : Float) (mode : AngleMode) : Logged (Option Float) := loggedOnto x mode e []

def loggedValue (x : Float) (mode : AngleMode) : Expr → Logged (Option Float)
  | number v => pure (some v)
  | name _ => pure (some x)
  | bare op => pure (op.value? x)
  | unary op e => do perform₁ mode (.unary op) (← loggedValue x mode e)
  | binary l op r => do
    let u? ← loggedValue x mode l
    let v? ← loggedValue x mode r
    perform₂ mode (.binary op) u? v?
  | call f e => do perform₁ mode (.call f) (← loggedValue x mode e)
  | call₂ f a b => do
    let u? ← loggedValue x mode a
    let v? ← loggedValue x mode b
    perform₂ mode (.call₂ f) u? v?
  | failure _ => pure none
  | hole => ⟨.error .hole, []⟩

variable {x : Float} {mode : AngleMode}

theorem result_loggedOnto (e : Expr) (links : List LoggedLink) :
    (loggedOnto x mode e links).result = evaluateOnto x mode e (links.map LoggedLink.link) := by
  induction e generalizing links with
  | binary l op r ihl ihr =>
    rw [loggedOnto, ihl, evaluateOnto, List.map_cons, LoggedLink.link, ihr]
    rfl
  | unary op e ih =>
    simp only [loggedOnto, evaluateOnto, result_bind, result_loggedFollow, ih, result_perform₁_unary]
    refine bind_congr fun v? => ?_
    cases v? <;> rfl
  | call f e ih =>
    simp only [loggedOnto, evaluateOnto, result_bind, result_loggedFollow, ih, result_perform₁_call]
    rfl
  | call₂ f a b iha ihb =>
    simp only [loggedOnto, evaluateOnto, result_bind, result_loggedFollow, iha, ihb, result_perform₂_call₂]
    rfl
  | hole => rfl
  | _ => exact result_loggedFollow ..

theorem result_loggedEvaluate (e : Expr) : (e.loggedEvaluate x mode).result = e.evaluate x mode := result_loggedOnto e []

theorem result_loggedValue (e : Expr) : (e.loggedValue x mode).result = e.value x mode := by
  induction e with
  | unary op e ih =>
    simp only [loggedValue, value, result_bind, ih, result_perform₁_unary]
    refine bind_congr fun v? => ?_
    cases v? <;> rfl
  | binary l op r ihl ihr =>
    simp only [loggedValue, value, result_bind, ihl, ihr, result_perform₂_binary]
    rfl
  | call f e ih =>
    simp only [loggedValue, value, result_bind, ih, result_perform₁_call]
    rfl
  | call₂ f a b iha ihb =>
    simp only [loggedValue, value, result_bind, iha, ihb, result_perform₂_call₂]
    rfl
  | _ => rfl

/-! ## The same operations -/

/-- A chain that begins with the tree begins with these operations and goes on with the value. -/
def BeginsWith (x : Float) (mode : AngleMode) (e : Expr) (v? : Option Float) (ops : List Operation) : Prop :=
  ∀ ⦃links w? rest⦄, Yields (loggedFollow mode v? links) w? rest → Yields (loggedOnto x mode e links) w? (ops ++ rest)

variable {e : Expr} {u? v? : Option Float} {ops : List Operation}

theorem BeginsWith.yields (h : BeginsWith x mode e v? ops) : Yields (loggedOnto x mode e []) v? ops := by
  have hend : Yields (loggedFollow mode v? []) v? [] := by
    rw [loggedFollow]
    exact yields_pure v?
  simpa using h hend

/-- A node that performs one operation on the value of its operand. -/
theorem BeginsWith.perform₁ {node : Expr} {operation : Float → Operation} {next : List Operation}
    (hnode : ∀ links, loggedOnto x mode node links =
      loggedOnto x mode e [] >>= fun u? => Logged.perform₁ mode operation u? >>= fun v? => loggedFollow mode v? links)
    (he : BeginsWith x mode e u? ops) (hv : Yields (Logged.perform₁ mode operation u?) v? next) :
    BeginsWith x mode node v? (ops ++ next) := by
  intro links w? rest hrest
  rw [hnode, List.append_assoc]
  exact yields_bind_iff.2 ⟨u?, ops, next ++ rest, he.yields, yields_bind_iff.2 ⟨v?, next, rest, hv, hrest, rfl⟩, rfl⟩

/-- The loop performs the operations of the recursion in the same order, but for some on the way to an undefined
result. -/
theorem exists_beginsWith (h : Yields (e.loggedValue x mode) v? ops) :
    ∃ done, BeginsWith x mode e v? done ∧ Shortens v? done ops := by
  induction e generalizing v? ops with
  | unary _ e ih | call _ e ih =>
    obtain ⟨u?, first, next, hu, hv, rfl⟩ := yields_bind_iff.1 h
    obtain ⟨done, hdone, hshort⟩ := ih hu
    exact ⟨done ++ next, hdone.perform₁ (fun links => rfl) hv,
      (hshort.mono (isSome_of_yields_perform₁ hv)).append (.refl ..)⟩
  | binary l op r ihl ihr =>
    obtain ⟨u?, first, _, hu, hrest, rfl⟩ := yields_bind_iff.1 h
    obtain ⟨w?, second, next, hw, hv, rfl⟩ := yields_bind_iff.1 hrest
    obtain ⟨done, hdone, hshort⟩ := ihl hu
    cases u? with
    | none =>
      -- the links behind an undefined value are dropped, this one with its right operand like any other
      obtain ⟨rfl, rfl⟩ := eq_of_yields_pure hv
      refine ⟨done, fun links v? rest hrest => hdone ?_, ?_⟩
      · rwa [loggedFollow_none] at hrest ⊢
      · exact ⟨hshort.1.trans (List.sublist_append_left ..), nofun⟩
    | some u =>
      obtain ⟨done', hdone', hshort'⟩ := ihr hw
      have hsome := isSome_of_yields_perform₂ hv
      refine ⟨done ++ (done' ++ next), fun links v'? rest hrest => ?_,
        (hshort.mono fun _ => rfl).append ((hshort'.mono fun hv => (hsome hv).2).append (.refl ..))⟩
      rw [List.append_assoc, List.append_assoc]
      refine hdone (yields_bind_iff.2 ⟨w?, done', next ++ rest, hdone'.yields, ?_, rfl⟩)
      exact yields_bind_iff.2 ⟨v?, next, rest, hv, hrest, rfl⟩
  | call₂ f a b iha ihb =>
    obtain ⟨u?, first, _, hu, hrest, rfl⟩ := yields_bind_iff.1 h
    obtain ⟨w?, second, next, hw, hv, rfl⟩ := yields_bind_iff.1 hrest
    obtain ⟨done, hdone, hshort⟩ := iha hu
    obtain ⟨done', hdone', hshort'⟩ := ihb hw
    have hsome := isSome_of_yields_perform₂ hv
    refine ⟨done ++ (done' ++ next), fun links v'? rest hrest => ?_,
      (hshort.mono fun hv => (hsome hv).1).append ((hshort'.mono fun hv => (hsome hv).2).append (.refl ..))⟩
    rw [List.append_assoc, List.append_assoc]
    refine yields_bind_iff.2 ⟨u?, done, done' ++ (next ++ rest), hdone.yields, ?_, rfl⟩
    refine yields_bind_iff.2 ⟨w?, done', next ++ rest, hdone'.yields, ?_, rfl⟩
    exact yields_bind_iff.2 ⟨v?, next, rest, hv, hrest, rfl⟩
  | hole => exact nomatch h.1
  | _ =>
    obtain ⟨rfl, rfl⟩ := eq_of_yields_pure h
    exact ⟨[], fun links w? rest hrest => hrest, .refl ..⟩

theorem evaluate_of_value (h : e.value x mode = .ok v?) : e.evaluate x mode = .ok v? ∧
    Shortens v? (e.loggedEvaluate x mode).operations (e.loggedValue x mode).operations := by
  obtain ⟨done, hdone, hshort⟩ := exists_beginsWith ⟨(result_loggedValue e).trans h, rfl⟩
  obtain ⟨hresult, hops⟩ := hdone.yields
  exact ⟨(result_loggedEvaluate e).symm.trans hresult, hops ▸ hshort⟩

theorem exists_value (h : e.concrete) : ∃ v?, e.value x mode = .ok v? := by
  induction e with
  | hole => exact nomatch h
  | unary op e ih =>
    obtain ⟨u?, hu⟩ := ih h
    rw [value, hu]
    cases u? with
    | none => exact ⟨none, rfl⟩
    | some u => exact exists_applyUnary op u
  | binary l op r ihl ihr =>
    obtain ⟨hl, hr⟩ := Bool.and_eq_true_iff.1 h
    obtain ⟨u?, hu⟩ := ihl hl
    obtain ⟨w?, hw⟩ := ihr hr
    rw [value, hu, hw]
    exact ⟨_, rfl⟩
  | call f e ih =>
    obtain ⟨u?, hu⟩ := ih h
    rw [value, hu]
    exact ⟨_, rfl⟩
  | call₂ f a b iha ihb =>
    obtain ⟨ha, hb⟩ := Bool.and_eq_true_iff.1 h
    obtain ⟨u?, hu⟩ := iha ha
    obtain ⟨w?, hw⟩ := ihb hb
    rw [value, hu, hw]
    exact ⟨_, rfl⟩
  | _ => exact ⟨_, rfl⟩

/-- **A chain has the value of the plain recursion.** The loop gives whatever outcome the recursion gives, and a tree
without holes has one. With a log, which changes neither, the loop performs operations of the recursion in the same order,
and all of them where there is a value. -/
theorem evaluation_of_chains (x : Float) (mode : AngleMode) :
    (∀ e : Expr, e.concrete → ∃ v?, e.value x mode = .ok v? ∧ e.evaluate x mode = .ok v?) ∧
      (∀ e : Expr, (e.loggedEvaluate x mode).result = e.evaluate x mode ∧
        (e.loggedValue x mode).result = e.value x mode) ∧
      ∀ (e : Expr) (v? : Option Float), e.value x mode = .ok v? → e.evaluate x mode = .ok v? ∧
        (e.loggedEvaluate x mode).operations.Sublist (e.loggedValue x mode).operations ∧
        (v?.isSome → (e.loggedEvaluate x mode).operations = (e.loggedValue x mode).operations) := by
  refine ⟨fun e h => ?_, fun e => ⟨result_loggedEvaluate e, result_loggedValue e⟩, fun e v? h => evaluate_of_value h⟩
  obtain ⟨v?, hv⟩ := exists_value h
  exact ⟨v?, hv, (evaluate_of_value hv).1⟩

/-- Three summands, whose sum depends on their order, and a chain that a failure leaves undefined. -/
theorem evaluation_of_chains_of_sum :
    (binary (binary (number 0.1) .add (number 0.2)) .add (number 0.3)).evaluate 2.0 .radians =
        .ok (some (0.1 + 0.2 + 0.3)) ∧
      (0.1 + 0.2 + 0.3 : Float) ≠ 0.1 + (0.2 + 0.3) ∧
      (binary (binary (failure .evaluationError) .add (number 1.0)) .multiply (call .abs (name ['x']))).concrete ∧
      ∃ v?, (binary (binary (failure .evaluationError) .add (number 1.0)) .multiply (call .abs (name ['x']))).value
          2.0 .radians = .ok v? ∧
        (binary (binary (failure .evaluationError) .add (number 1.0)) .multiply (call .abs (name ['x']))).evaluate
          2.0 .radians = .ok v? :=
  ⟨((evaluation_of_chains 2.0 .radians).2.2 _ _ rfl).1, by decide +kernel, by decide,
    (evaluation_of_chains 2.0 .radians).1 _ (by decide)⟩

end Expr

end Calculator
