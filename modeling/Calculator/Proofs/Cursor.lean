import Calculator.Token.Tree

/-!
# Reading with a cursor

The levels of the grammar once more, read by routines that share one cursor and one count of the constructs that are
open. The cursor moves on whether there is a token or not, a loop goes on as long as it meets an operator, and a routine
may call itself anywhere: nothing in the routines keeps the cursor at the tokens or lets them come to an end. The calls,
and the turns of the loops, are limited by fuel; a reading without an end uses up all fuel, however much there is.

* `Cursor`, `Turn` : the state of the routines, with a record of the turns of their loops.
* `Parsing` : a routine, which gives a value or stops (`Stop`).
* `parseLevel`, `operatorLoop`, `parseBase` : the routines; `nested` counts the constructs.
* `Extent` : how much is to be read, and by which routine.
* `Yields` : a routine gives a value, and leaves a cursor.
* `Cursor.IsBefore` : the tokens that stand behind the cursor.
-/

namespace Calculator

set_option autoImplicit false

/-- A turn of a loop over operators: the places before and behind it, and the operand that it read. -/
structure Turn where
  start : Int
  operand : Expr
  stop : Int

structure Cursor where
  position : Int
  /-- How many constructs are open. -/
  depth : Int
  /-- The turns that have come to their end. No routine looks at them. -/
  turns : List Turn

namespace Cursor

def next (c : Cursor) : Cursor := { c with position := c.position + 1 }

def enter (c : Cursor) : Cursor := { c with depth := c.depth + 1 }

def leave (c : Cursor) : Cursor := { c with depth := c.depth - 1 }

def record (start : Int) (operand : Expr) (c : Cursor) : Cursor :=
  { c with turns := c.turns ++ [⟨start, operand, c.position⟩] }

end Cursor

inductive Stop where
  /-- There is no token at the place. -/
  | missingToken (place : Int)
  | outOfFuel
deriving DecidableEq, Repr

/-- What stops a routine leaves the cursor where it is. -/
abbrev Parsing := ExceptT Stop (StateM Cursor)

/-! ## Routines -/

namespace Parsing

section

variable (tokens : List Expr) (limit : Int)

/-- The token at a place. Negative places count from the end. -/
def tokenAt? (place : Int) : Option Expr :=
  let index := if place < 0 then tokens.length + place else place
  if index < 0 then none else tokens[index.toNat]?

def tokenAt (place : Int) : Parsing Expr :=
  match tokenAt? tokens place with
  | some t => return t
  | none => throw (.missingToken place)

def peek : Parsing (Option Expr) := do
  let place := (← get).position
  if place < tokens.length then return some (← tokenAt tokens place) else return none

/-- Moves past the token behind the cursor, even if there is none. -/
def advance : Parsing (Option Expr) := do
  let token ← peek tokens
  modify Cursor.next
  return token

/-- The operator behind the cursor, if it has this precedence. -/
def binaryOperator (precedence : Nat) : Parsing (Option Operator) := do
  return ((← peek tokens).bind Expr.operator?).filter fun op => op.precedence == precedence

/-- Reads one construct deeper, or gives a failure if there are too many. -/
def nested (routine : Parsing Expr) : Parsing Expr := do
  if limit ≤ (← get).depth then return .failure .unexpectedToken
  else
    modify Cursor.enter
    try routine finally modify Cursor.leave

mutual

/-- Operands, with operators of one precedence between them. -/
def parseLevel : (fuel : Nat) → (precedence : Nat) → Parsing Expr
  | 0, _ => throw .outOfFuel
  | fuel + 1, precedence => do
    let first ← if precedence = Operator.power.precedence then parseBase fuel else parseLevel fuel (precedence + 1)
    operatorLoop fuel precedence first

/-- Goes on behind the operands that stand in `left`. -/
def operatorLoop : (fuel : Nat) → (precedence : Nat) → (left : Expr) → Parsing Expr
  | 0, _, _ => throw .outOfFuel
  | fuel + 1, precedence, left => do
    match ← binaryOperator tokens precedence with
    | none => return left
    | some op =>
      let start := (← get).position
      let _ ← advance tokens
      if op.isRightAssociative then
        let right ← nested limit (parseLevel fuel precedence)
        modify (Cursor.record start right)
        return .binary left op right
      else
        let right ← parseLevel fuel (precedence + 1)
        modify (Cursor.record start right)
        operatorLoop fuel precedence (.binary left op right)

def parseBase : (fuel : Nat) → Parsing Expr
  | 0 => throw .outOfFuel
  | fuel + 1 => do
    match ← peek tokens with
    | none => return .failure .unexpectedToken
    | some t =>
      match t with
      | .number _ | .call .. | .call₂ .. =>
        let _ ← advance tokens
        return t
      | .bare .opening =>
        let _ ← advance tokens
        let inner ← nested limit (parseLevel fuel Operator.add.precedence)
        if (← peek tokens).bind Expr.operator? = some .closing then
          let _ ← advance tokens
          return inner
        else return .failure .unmatchedParenthesis
      | .bare .scientific =>
        let _ ← advance tokens
        match ← peek tokens with
        | some (.number v) =>
          let _ ← advance tokens
          return .unary .scientific (.number v)
        | _ => return .failure .unexpectedToken
      | .bare .pi | .bare .euler =>
        let _ ← advance tokens
        return t
      | .bare .freeVariable =>
        let _ ← advance tokens
        return .name Operator.freeVariable.symbol
      | .bare .negate =>
        let _ ← advance tokens
        return .unary .negate (← nested limit (parseBase fuel))
      | .bare .squareRoot =>
        let _ ← advance tokens
        return .unary .squareRoot (← nested limit (parseBase fuel))
      | _ => return .failure .unexpectedToken

end

variable (fuel : Nat)

def parseAt : Level → Parsing Expr
  | .expression => parseLevel tokens limit fuel Operator.add.precedence
  | .term => parseLevel tokens limit fuel Operator.multiply.precedence
  | .factor => parseLevel tokens limit fuel Operator.power.precedence
  | .base => parseBase tokens limit fuel

/-- An expression that has to reach the end of the tokens. -/
def parseWhole : Parsing Expr := do
  let tree ← parseLevel tokens limit fuel Operator.add.precedence
  if (← get).position < tokens.length then return .failure .unexpectedToken else return tree

end

end Parsing

/-- How much is to be read: all tokens, or what one level takes. -/
inductive Extent where
  | whole
  | level (level : Level)

def Extent.parse (tokens : List Expr) (limit : Int) (fuel : Nat) : Extent → Parsing Expr
  | whole => Parsing.parseWhole tokens limit fuel
  | level l => Parsing.parseAt tokens limit fuel l

/-! ## One step after another -/

namespace Parsing

section Steps

variable {α β : Type} {act : Parsing α} {f : α → Parsing β} {a : α} {b : β} {c c' c'' : Cursor}

/-- From the cursor `c` the routine gives the value `a` and leaves the cursor `c'`. -/
def Yields (act : Parsing α) (c : Cursor) (a : α) (c' : Cursor) : Prop := act.run.run c = (.ok a, c')

theorem yields_pure (a : α) (c : Cursor) : Yields (pure a) c a c := rfl

theorem yields_get (c : Cursor) : Yields get c c c := rfl

theorem yields_modify (g : Cursor → Cursor) (c : Cursor) : Yields (modify g) c ⟨⟩ (g c) := rfl

theorem Yields.bind (h : Yields act c a c') (hf : Yields (f a) c' b c'') : Yields (act >>= f) c b c'' := by
  unfold Yields at h ⊢
  rw [ExceptT.run_bind, StateT.run_bind, h]
  exact hf

/-- What is done at last is done where the routine leaves the cursor. -/
theorem Yields.finally (h : Yields act c a c') (g : Cursor → Cursor) :
    Yields (tryFinally act (modify g)) c a (g c') := by
  unfold Yields at h ⊢
  -- There is no lemma for this `finally`, so the two monads are opened.
  simp only [tryFinally, tryFinally', ExceptT.run_map, StateT.run_map]
  simp only [ExceptT.run, ExceptT.mk, StateT.run, Bind.bind, StateT.bind] at h ⊢
  rw [h]
  rfl

end Steps

end Parsing

/-! ## The tokens behind the cursor -/

section Before

variable {tokens ts : List Expr} {t : Expr} {c c' : Cursor}

/-- Behind the cursor stand the tokens `ts`. -/
def Cursor.IsBefore (tokens : List Expr) (c : Cursor) (ts : List Expr) : Prop :=
  ∃ taken, taken ++ ts = tokens ∧ c.position = taken.length

namespace Cursor.IsBefore

theorem of_position_eq (h : c.IsBefore tokens ts) (hp : c'.position = c.position) : c'.IsBefore tokens ts := by
  obtain ⟨taken, htokens, hposition⟩ := h
  exact ⟨taken, htokens, hp.trans hposition⟩

theorem next (h : c.IsBefore tokens (t :: ts)) : c.next.IsBefore tokens ts := by
  obtain ⟨taken, rfl, hposition⟩ := h
  refine ⟨taken ++ [t], List.append_cons .. |>.symm, ?_⟩
  rw [Cursor.next, hposition, List.length_append]
  rfl

theorem position_eq (h : c.IsBefore tokens ts) : c.position = tokens.length - ts.length := by
  obtain ⟨taken, rfl, hposition⟩ := h
  rw [hposition, List.length_append]
  omega

theorem length_le (h : c.IsBefore tokens ts) : ts.length ≤ tokens.length := by
  obtain ⟨taken, rfl, -⟩ := h
  exact (List.suffix_append ..).length_le

end Cursor.IsBefore

theorem Cursor.isBefore_drop (hstart : 0 ≤ c.position) (hend : c.position ≤ tokens.length) :
    c.IsBefore tokens (tokens.drop c.position.toNat) := by
  refine ⟨tokens.take c.position.toNat, List.take_append_drop .., ?_⟩
  rw [List.length_take]
  omega

namespace Parsing

theorem tokenAt?_of_isBefore (h : c.IsBefore tokens (t :: ts)) : tokenAt? tokens c.position = some t := by
  obtain ⟨taken, rfl, hposition⟩ := h
  have hnonneg : ¬ (taken.length : Int) < 0 := by omega
  simp [tokenAt?, hposition, hnonneg]

theorem yields_peek (h : c.IsBefore tokens ts) : Yields (peek tokens) c ts.head? c := by
  have hplace : c.position < tokens.length ↔ 0 < ts.length := by
    rw [h.position_eq]
    omega
  refine (yields_get c).bind ?_
  cases ts with
  | nil =>
    rw [if_neg fun hlt => Nat.lt_irrefl 0 (hplace.1 hlt)]
    exact yields_pure none c
  | cons t ts =>
    rw [if_pos (hplace.2 (Nat.succ_pos _))]
    have htoken : Yields (tokenAt tokens c.position) c t c := by
      rw [tokenAt, tokenAt?_of_isBefore h]
      exact yields_pure t c
    exact htoken.bind (yields_pure (some t) c)

theorem yields_advance (h : c.IsBefore tokens ts) : Yields (advance tokens) c ts.head? c.next :=
  (yields_peek h).bind ((yields_modify Cursor.next c).bind (yields_pure ts.head? c.next))

theorem yields_binaryOperator (precedence : Nat) (h : c.IsBefore tokens ts) :
    Yields (binaryOperator tokens precedence) c
      ((ts.head?.bind Expr.operator?).filter fun op => op.precedence == precedence) c :=
  (yields_peek h).bind (yields_pure _ c)

end Parsing

end Before

end Calculator
