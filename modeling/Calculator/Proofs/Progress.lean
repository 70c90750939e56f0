import Calculator.Proofs.Cursor
import Calculator.Proofs.Reading

/-!
# The cursor stays at the tokens

Each routine reads what its level reads from the tokens behind the cursor, with as many constructs left to open as the
depth allows. So it comes to an end, without a failure, and the tokens that the level takes say how far the cursor has
moved. The induction is that of the readers: on the constructs left to open, then on the level, then on the tokens.

* `Cursor.Leads` : the cursor moves forward, each turn of a loop takes a token, and the depth is as before.
* `Follows` : with enough fuel, a routine reads as a reader does.
* `enoughFor` : fuel that is enough for a level.
* `follows_parseAt` : the routine of a level follows its reader.
* `parse_whole` : a new cursor gives the tree of the whole sequence.
* `cursor_stays_sound` : all extents, from every place at the tokens and at every depth.
-/

namespace Calculator

set_option autoImplicit false

open Parsing

/-! ## Forward moves -/

/-- The turn lies between two places, and took a token. -/
structure Turn.Within (first last : Int) (t : Turn) : Prop where
  first_le : first ≤ t.start
  start_lt : t.start < t.stop
  stop_le : t.stop ≤ last

theorem Turn.Within.mono {first last first' last' : Int} {t : Turn} (h : t.Within first last) (hf : first' ≤ first)
    (hl : last ≤ last') : t.Within first' last' :=
  ⟨Int.le_trans hf h.first_le, h.start_lt, Int.le_trans h.stop_le hl⟩

namespace Cursor

/-- On the way from `c` to `c'` the cursor moves forward and every turn takes a token. The depth is as before. -/
structure Leads (c c' : Cursor) : Prop where
  position_le : c.position ≤ c'.position
  depth_eq : c'.depth = c.depth
  exists_turns : ∃ turns, c'.turns = c.turns ++ turns ∧ ∀ t ∈ turns, t.Within c.position c'.position

variable {c c' c'' : Cursor}

theorem Leads.refl (c : Cursor) : c.Leads c := ⟨Int.le_refl _, rfl, [], (List.append_nil _).symm, by simp⟩

theorem Leads.trans (h : c.Leads c') (h' : c'.Leads c'') : c.Leads c'' := by
  obtain ⟨hle, hdepth, turns, hturns, hwithin⟩ := h
  obtain ⟨hle', hdepth', turns', hturns', hwithin'⟩ := h'
  refine ⟨Int.le_trans hle hle', hdepth'.trans hdepth, turns ++ turns', ?_, fun t ht => ?_⟩
  · rw [hturns', hturns, List.append_assoc]
  · rcases List.mem_append.1 ht with ht | ht
    · exact (hwithin t ht).mono (Int.le_refl _) hle'
    · exact (hwithin' t ht).mono hle (Int.le_refl _)

theorem leads_next (c : Cursor) : c.Leads c.next :=
  ⟨Int.le_of_lt (Int.lt_succ _), rfl, [], (List.append_nil _).symm, by simp⟩

/-- What happens one construct deeper leads on when the construct is left. -/
theorem leads_leave (h : c.enter.Leads c') : c.Leads c'.leave := by
  obtain ⟨hle, hdepth, hturns⟩ := h
  refine ⟨hle, ?_, hturns⟩
  calc c'.depth - 1 = c.depth + 1 - 1 := by rw [hdepth]; rfl
    _ = c.depth := Int.add_sub_cancel ..

/-- A turn has taken the operator, whatever its operand takes. -/
theorem leads_record (h : c.next.Leads c') (operand : Expr) : c.Leads (c'.record c.position operand) := by
  obtain ⟨hle, hdepth, turns, hturns, hwithin⟩ := h
  have hlt : c.position < c'.position := hle
  refine ⟨Int.le_of_lt hlt, hdepth, turns ++ [⟨c.position, operand, c'.position⟩], ?_, fun t ht => ?_⟩
  · rw [record, hturns, ← List.append_assoc]
    rfl
  · rcases List.mem_append.1 ht with ht | ht
    · exact (hwithin t ht).mono (Int.le_of_lt (Int.lt_succ _)) (Int.le_refl _)
    · obtain rfl := List.mem_singleton.1 ht
      exact ⟨Int.le_refl _, hlt, Int.le_refl _⟩

end Cursor

/-! ## Routines and readers -/

section Ends

variable {α : Type} {tokens ts us : List Expr} {act : Parsing Expr} {c c' : Cursor} {e t : Expr} {p : Expr × List Expr}

/-- From `c` the routine gives the tree `p.1`, and leads to a cursor before the tokens `p.2`. -/
def Ends (tokens : List Expr) (act : Parsing Expr) (c : Cursor) (p : Expr × List Expr) : Prop :=
  ∃ c', Yields act c p.1 c' ∧ c'.IsBefore tokens p.2 ∧ c.Leads c'

theorem ends_pure (h : c.IsBefore tokens ts) (e : Expr) : Ends tokens (pure e) c (e, ts) :=
  ⟨c, yields_pure e c, h, .refl c⟩

theorem Parsing.Yields.ends {first : Parsing α} {f : α → Parsing Expr} {a : α} (h : Yields first c a c')
    (hlead : c.Leads c') (hf : Ends tokens (f a) c' p) : Ends tokens (first >>= f) c p := by
  obtain ⟨c'', hyields, hbefore, hlead'⟩ := hf
  exact ⟨c'', h.bind hyields, hbefore, hlead.trans hlead'⟩

theorem Ends.bind {f : Expr → Parsing Expr} (h : Ends tokens act c (e, ts))
    (hf : ∀ c', c'.IsBefore tokens ts → c'.depth = c.depth → Ends tokens (f e) c' p) :
    Ends tokens (act >>= f) c p := by
  obtain ⟨c', hyields, hbefore, hlead⟩ := h
  exact hyields.ends hlead (hf c' hbefore hlead.depth_eq)

theorem ends_peek {f : Option Expr → Parsing Expr} (h : c.IsBefore tokens ts) (hf : Ends tokens (f ts.head?) c p) :
    Ends tokens (peek tokens >>= f) c p :=
  (yields_peek h).ends (.refl c) hf

/-- A step past a token. Only here does the cursor move, and there is a token each time. -/
theorem ends_advance {f : Option Expr → Parsing Expr} (h : c.IsBefore tokens (t :: ts))
    (hf : c.next.IsBefore tokens ts → Ends tokens (f (some t)) c.next p) : Ends tokens (advance tokens >>= f) c p :=
  (yields_advance h).ends c.leads_next (hf h.next)

/-- A turn past an operator: its operand, its record, and what follows. -/
theorem ends_turn {f : Expr → Parsing Expr} (h : c.IsBefore tokens (t :: ts))
    (hoperand : Ends tokens act c.next (e, us))
    (hf : ∀ c', c'.IsBefore tokens us → c'.depth = c.depth → Ends tokens (f e) c' p) :
    Ends tokens (do
      let start := (← get).position
      let _ ← advance tokens
      let right ← act
      modify (Cursor.record start right)
      f right) c p := by
  obtain ⟨c', hyields, hbefore, hlead⟩ := hoperand
  have hlead' := Cursor.leads_record hlead e
  obtain ⟨c'', hyields', hbefore', hlead''⟩ :=
    hf (c'.record c.position e) (hbefore.of_position_eq rfl) hlead'.depth_eq
  refine ⟨c'', ?_, hbefore', hlead'.trans hlead''⟩
  exact (yields_get c).bind <| (yields_advance h).bind <| hyields.bind <| (yields_modify _ _).bind hyields'

end Ends

section Routines

variable {tokens : List Expr} {limit depth : Int} {enough : Nat}

/-- At this depth, and with enough fuel, the routine reads what `read` does from the tokens behind the cursor. -/
def Follows (tokens : List Expr) (routine : Nat → Parsing Expr) (enough : Nat) (depth : Int) (read : Reader) : Prop :=
  ∀ ⦃fuel c ts⦄, enough ≤ fuel → c.IsBefore tokens ts → c.depth = depth →
    Ends tokens (routine fuel) c (read ts).parts

section Follows

variable {routine : Nat → Parsing Expr} {read : Reader}

theorem Follows.mono {enough' : Nat} (h : Follows tokens routine enough depth read) (hle : enough ≤ enough') :
    Follows tokens routine enough' depth read :=
  fun _ _ _ hfuel => h (Nat.le_trans hle hfuel)

/-- A call takes one unit of fuel. -/
theorem follows_of_call (h : ∀ ⦃fuel c ts⦄, enough ≤ fuel → c.IsBefore tokens ts → c.depth = depth →
    Ends tokens (routine (fuel + 1)) c (read ts).parts) : Follows tokens routine (enough + 1) depth read := by
  intro fuel c ts hfuel hc hd
  cases fuel with
  | zero => exact absurd hfuel (Nat.not_succ_le_zero enough)
  | succ fuel => exact h (Nat.le_of_succ_le_succ hfuel) hc hd

/-! ## One construct deeper -/

theorem follows_nested_of_le (h : limit ≤ depth) :
    Follows tokens (fun fuel => nested limit (routine fuel)) enough depth (refuse .unexpectedToken) := by
  rintro fuel c ts - hc rfl
  refine (yields_get c).ends (.refl c) ?_
  rw [if_pos h]
  exact ends_pure hc _

theorem follows_nested_of_lt (h : depth < limit) (hr : Follows tokens routine enough (depth + 1) read) :
    Follows tokens (fun fuel => nested limit (routine fuel)) enough depth read := by
  rintro fuel c ts hfuel hc rfl
  obtain ⟨c', hyields, hbefore, hlead⟩ := hr hfuel (c := c.enter) (hc.of_position_eq rfl) rfl
  refine (yields_get c).ends (.refl c) ?_
  rw [if_neg (Int.not_le.2 h)]
  refine ⟨c'.leave, ?_, hbefore.of_position_eq rfl, Cursor.leads_leave hlead⟩
  exact (yields_modify Cursor.enter c).bind (hyields.finally Cursor.leave)

end Follows

/-! ## Loops over operators -/

theorem operator_head_eq_some_iff {ts : List Expr} {op : Operator} :
    ts.head?.bind Expr.operator? = some op ↔ ∃ us, ts = .bare op :: us := by
  cases ts with
  | nil => simp
  | cons t ts => cases t <;> simp [Expr.operator?]

section Loops

variable {fuel precedence : Nat} {left e : Expr} {ts us : List Expr} {op : Operator} {c : Cursor}
  {p : Expr × List Expr} {operand : Reader}

theorem yields_operator (hop : op.precedence = precedence) (hc : c.IsBefore tokens (.bare op :: ts)) :
    Yields (binaryOperator tokens precedence) c (some op) c := by
  have h := yields_binaryOperator precedence hc
  rwa [List.head?_cons, Option.bind_some, Expr.operator?, Option.filter_some_pos (by simpa using hop)] at h

/-- A loop ends where no operator of its level stands. -/
theorem ends_operatorLoop (hc : c.IsBefore tokens ts)
    (h : ∀ op us, ts = .bare op :: us → (op.precedence == precedence) = false) :
    Ends tokens (operatorLoop tokens limit (fuel + 1) precedence left) c (left, ts) := by
  have hnone : (ts.head?.bind Expr.operator?).filter (fun op => op.precedence == precedence) = none := by
    refine Option.filter_eq_none_iff.2 fun op hop => ?_
    obtain ⟨us, hus⟩ := operator_head_eq_some_iff.1 hop
    simp [h op us hus]
  rw [operatorLoop]
  refine (yields_binaryOperator precedence hc).ends (.refl c) ?_
  rw [hnone]
  exact ends_pure hc left

/-- A turn with an operator that joins to the left: the loop goes on behind the operand. -/
theorem ends_operatorLoop_left (hop : op.precedence = precedence) (hassoc : op.isRightAssociative = false)
    (hc : c.IsBefore tokens (.bare op :: ts))
    (hright : Ends tokens (parseLevel tokens limit fuel (precedence + 1)) c.next (e, us))
    (hf : ∀ c', c'.IsBefore tokens us → c'.depth = c.depth →
      Ends tokens (operatorLoop tokens limit fuel precedence (.binary left op e)) c' p) :
    Ends tokens (operatorLoop tokens limit (fuel + 1) precedence left) c p := by
  rw [operatorLoop]
  refine (yields_operator hop hc).ends (.refl c) ?_
  simp only [hassoc, Bool.false_eq_true, if_false]
  exact ends_turn hc hright hf

/-- A turn with an operator that joins to the right is the last one. -/
theorem ends_operatorLoop_right (hop : op.precedence = precedence) (hassoc : op.isRightAssociative = true)
    (hc : c.IsBefore tokens (.bare op :: ts))
    (hright : Ends tokens (nested limit (parseLevel tokens limit fuel precedence)) c.next (e, us)) :
    Ends tokens (operatorLoop tokens limit (fuel + 1) precedence left) c (.binary left op e, us) := by
  rw [operatorLoop]
  refine (yields_operator hop hc).ends (.refl c) ?_
  simp only [hassoc, if_true]
  exact ends_turn hc hright fun c' hc' _ => ends_pure hc' _

/-- Precedences whose operators all join to the left. -/
def JoinsLeft (precedence : Nat) : Prop := ∀ op : Operator, op.precedence = precedence → op.isRightAssociative = false

theorem joinsLeft_add : JoinsLeft Operator.add.precedence := fun op h => by cases op <;> first | rfl | exact nomatch h

theorem joinsLeft_multiply : JoinsLeft Operator.multiply.precedence :=
  fun op h => by cases op <;> first | rfl | exact nomatch h

/-- Each turn leaves fewer tokens, even if its operand takes none, so fuel for one turn a token is enough. -/
theorem ends_chain (hleft : JoinsLeft precedence)
    (ho : Follows tokens (fun fuel => parseLevel tokens limit fuel (precedence + 1)) enough depth operand)
    (hfuel : enough + ts.length < fuel) (hc : c.IsBefore tokens ts) (hd : c.depth = depth) :
    Ends tokens (operatorLoop tokens limit fuel precedence left) c
      (chain operand (fun op => op.precedence == precedence) left ts).parts := by
  obtain ⟨fuel, rfl⟩ := Nat.exists_eq_succ_of_ne_zero (Nat.ne_zero_of_lt hfuel)
  fun_induction chain operand (fun op => op.precedence == precedence) left ts generalizing c fuel with
  | case1 left op rest hop right all =>
    rename_i ih
    have hop : op.precedence = precedence := by simpa using hop
    have hrest := right.suffix.length_le
    rw [List.length_cons] at hfuel
    refine ends_operatorLoop_left hop (hleft op hop) hc (ho (by omega) hc.next hd) fun c' hc' hd' => ?_
    obtain ⟨fuel, rfl⟩ := Nat.exists_eq_succ_of_ne_zero (n := fuel) (by omega)
    exact ih hc' (hd'.trans hd) fuel (by omega)
  | case2 left op rest hop =>
    refine ends_operatorLoop hc fun op' us hus => ?_
    obtain ⟨hop', -⟩ := List.cons.inj hus
    obtain rfl := Expr.bare.inj hop'
    exact Bool.eq_false_iff.2 hop
  | case3 left ts hne => exact ends_operatorLoop hc fun op us hus => absurd hus (hne op us)

theorem follows_readChain (hleft : JoinsLeft precedence)
    (ho : Follows tokens (fun fuel => parseLevel tokens limit fuel (precedence + 1)) enough depth operand) :
    Follows tokens (fun fuel => parseLevel tokens limit fuel precedence) (enough + tokens.length + 2) depth
      (readChain operand fun op => op.precedence == precedence) := by
  refine follows_of_call fun fuel c ts hfuel hc hd => ?_
  have hpower : precedence ≠ Operator.power.precedence := fun h => nomatch hleft .power h.symm
  rw [parseLevel, if_neg hpower]
  refine (ho (by omega) hc hd).bind fun c' hc' hd' => ?_
  have := hc'.length_le
  exact ends_chain hleft ho (by omega) hc' (hd'.trans hd)

end Loops

/-! ## Bases -/

section Bases

variable {ts us : List Expr} {c : Cursor} {e : Expr}

theorem closeParenthesis_open {r : Reading ts} (h : r.parts = (e, us)) (hne : ∀ vs, us ≠ .bare .closing :: vs) :
    (closeParenthesis r).parts = (.failure .unmatchedParenthesis, us) := by
  obtain ⟨rfl, rfl⟩ := Reading.parts_eq_iff.1 h
  unfold closeParenthesis
  split
  · rename_i rest hrest
    exact absurd hrest (hne rest)
  · rfl

theorem ends_closing (r : Reading ts) (hc : c.IsBefore tokens r.rest) :
    Ends tokens (do
      if (← peek tokens).bind Expr.operator? = some .closing then
        let _ ← advance tokens
        return r.tree
      else return .failure .unmatchedParenthesis) c (closeParenthesis r).parts := by
  refine ends_peek hc ?_
  by_cases hclosing : r.rest.head?.bind Expr.operator? = some .closing
  · rw [if_pos hclosing]
    obtain ⟨us, hus⟩ := operator_head_eq_some_iff.1 hclosing
    rw [closeParenthesis_closing (Reading.parts_eq_iff.2 ⟨rfl, hus⟩)]
    exact ends_advance (hus ▸ hc) fun h => ends_pure h _
  · rw [if_neg hclosing, closeParenthesis_open rfl fun us hus => hclosing (operator_head_eq_some_iff.2 ⟨us, hus⟩)]
    exact ends_pure hc _

theorem ends_powerOfTen (hc : c.IsBefore tokens ts) :
    Ends tokens (do
      match ← peek tokens with
      | some (.number v) =>
        let _ ← advance tokens
        return .unary .scientific (.number v)
      | _ => return .failure .unexpectedToken) c (readPowerOfTen ts).parts := by
  refine ends_peek hc ?_
  cases ts with
  | nil => exact ends_pure hc _
  | cons t ts =>
    cases t with
    | number v => exact ends_advance hc fun h => ends_pure h _
    | _ => exact ends_pure hc _

end Bases

/-! ## Levels -/

section Levels

variable {inner : Level → Reader}
  (hinner : ∀ level,
    Follows tokens (fun fuel => nested limit (parseAt tokens limit fuel level)) enough depth (inner level))
include hinner

theorem follows_parseBase : Follows tokens (parseBase tokens limit) (enough + 1) depth (readBase inner) := by
  refine follows_of_call fun fuel c ts hfuel hc hd => ?_
  rw [parseBase]
  refine ends_peek hc ?_
  cases ts with
  | nil => exact ends_pure hc _
  | cons t ts =>
    cases t with
    | number | call | call₂ => exact ends_advance hc fun h => ends_pure h _
    | bare op =>
      cases op with
      | pi | euler | freeVariable => exact ends_advance hc fun h => ends_pure h _
      | negate | squareRoot =>
        exact ends_advance hc fun h => (hinner .base hfuel h hd).bind fun c' hc' _ => ends_pure hc' _
      | opening => exact ends_advance hc fun h => (hinner .expression hfuel h hd).bind fun c' hc' _ => ends_closing _ hc'
      | scientific => exact ends_advance hc ends_powerOfTen
      | _ => exact ends_pure hc _
    | _ => exact ends_pure hc _

theorem follows_factor :
    Follows tokens (fun fuel => parseAt tokens limit fuel .factor) (enough + 2) depth (readFactor inner) := by
  refine follows_of_call fun fuel c ts hfuel hc hd => ?_
  rw [parseAt, parseLevel, if_pos rfl]
  refine (follows_parseBase hinner hfuel hc hd).bind fun c' hc' hd' => ?_
  obtain ⟨fuel, rfl⟩ := Nat.exists_eq_succ_of_ne_zero (Nat.ne_zero_of_lt hfuel)
  by_cases hpower : ∃ us, (readBase inner ts).rest = .bare .power :: us
  · obtain ⟨us, hus⟩ := hpower
    rw [readFactor_power (Reading.parts_eq_iff.2 ⟨rfl, hus⟩) rfl]
    have hc' : c'.IsBefore tokens (.bare .power :: us) := hus ▸ hc'
    have hright := hinner .factor (Nat.le_of_succ_le_succ hfuel) hc'.next (hd'.trans hd)
    exact ends_operatorLoop_right rfl rfl hc' hright
  · rw [readFactor_base rfl fun us hus => hpower ⟨us, hus⟩]
    refine ends_operatorLoop hc' fun op us hus => ?_
    cases op <;> first | rfl | exact absurd ⟨us, hus⟩ hpower

theorem follows_read (level : Level) :
    Follows tokens (fun fuel => parseAt tokens limit fuel level) (enough + (2 * tokens.length + 6)) depth
      (level.read inner) := by
  have hfactor := follows_factor hinner
  have hterm : Follows tokens (fun fuel => parseAt tokens limit fuel .term) (enough + 2 + tokens.length + 2) depth
      (readTerm inner) := follows_readChain joinsLeft_multiply hfactor
  cases level with
  | expression => exact (follows_readChain joinsLeft_add hterm).mono (by omega)
  | term => exact hterm.mono (by omega)
  | factor => exact hfactor.mono (by omega)
  | base => exact (follows_parseBase hinner).mono (by omega)

end Levels

/-- Fuel that is enough with so many constructs left to open: for each of them, and around them, the calls from level to
level and the turns of two loops. -/
def enoughFor (tokens : List Expr) (left : Nat) : Nat := (2 * tokens.length + 6) * (left + 1)

end Routines

/-- The routine of a level follows its reader, with as many constructs left to open as the depth allows. -/
theorem follows_parseAt (tokens : List Expr) (limit depth : Int) (level : Level) :
    Follows tokens (fun fuel => parseAt tokens limit fuel level) (enoughFor tokens (limit - depth).toNat) depth
      (readAt (limit - depth).toNat level) := by
  generalize hleft : (limit - depth).toNat = left
  rw [readAt_eq]
  -- One construct deeper there is one less to open, so the level may be any.
  induction left generalizing depth level with
  | zero =>
    have hinner (level : Level) : Follows tokens (fun fuel => nested limit (parseAt tokens limit fuel level)) 0 depth
        (refuse .unexpectedToken) := follows_nested_of_le (by omega)
    exact (follows_read hinner level).mono (by simp [enoughFor])
  | succ left ih =>
    have hdepth : depth < limit := by omega
    refine follows_read (fun level => follows_nested_of_lt hdepth ?_) level
    rw [nestedAt, readAt_eq]
    exact ih (depth + 1) level (by omega)

/-! ## Extents -/

namespace Extent

def topLevel : Extent → Level
  | whole => .expression
  | level l => l

/-- The tree for a reading. Of the whole sequence nothing may be left over. -/
def tree {ts : List Expr} (r : Reading ts) : Extent → Expr
  | whole => if r.rest.isEmpty then r.tree else .failure .unexpectedToken
  | level _ => r.tree

end Extent

section Extents

variable {tokens ts : List Expr} {limit : Int} {fuel : Nat} {c : Cursor}

/-- The whole sequence is read if the cursor has come to its end. -/
theorem ends_whole (r : Reading ts) (hc : c.IsBefore tokens r.rest) :
    Ends tokens (do
      if (← get).position < tokens.length then return .failure .unexpectedToken else return r.tree) c
      (Extent.whole.tree r, r.rest) := by
  have hleftover : c.position < tokens.length ↔ ¬ r.rest.isEmpty := by
    rw [List.isEmpty_iff_length_eq_zero, hc.position_eq]
    omega
  refine (yields_get c).ends (.refl c) ?_
  by_cases hempty : r.rest.isEmpty
  · rw [if_neg fun h => hleftover.1 h hempty, Extent.tree, if_pos hempty]
    exact ends_pure hc _
  · rw [if_pos (hleftover.2 hempty), Extent.tree, if_neg hempty]
    exact ends_pure hc _

theorem ends_parse (extent : Extent) (hfuel : enoughFor tokens (limit - c.depth).toNat ≤ fuel)
    (hc : c.IsBefore tokens ts) :
    let r := readAt (limit - c.depth).toNat extent.topLevel ts
    Ends tokens (extent.parse tokens limit fuel) c (extent.tree r, r.rest) := by
  cases extent with
  | whole =>
    exact (follows_parseAt tokens limit c.depth .expression hfuel hc rfl).bind fun c' hc' _ => ends_whole _ hc'
  | level level => exact follows_parseAt tokens limit c.depth level hfuel hc rfl

end Extents

/-- A new cursor gives the tree of the whole sequence. -/
theorem parse_whole {tokens : List Expr} {limit : Int} {fuel : Nat} (hfuel : enoughFor tokens limit.toNat ≤ fuel) :
    ∃ c', (Extent.whole.parse tokens limit fuel).run.run ⟨0, 0, []⟩ = (.ok (treeOfTokens limit tokens), c') := by
  rw [← Int.sub_zero limit] at hfuel
  obtain ⟨c', hyields, -⟩ := ends_parse (c := ⟨0, 0, []⟩) .whole hfuel ⟨[], rfl, rfl⟩
  rw [Int.sub_zero] at hyields
  exact ⟨c', hyields⟩

/-- **The cursor stays at the tokens.** From every place at the tokens and at every depth, all extents are read to an
end, with no failure and with fuel in proportion to the tokens and the constructs left to open. The cursor has moved
forward, and no further than past the last token; the depth is as before; each turn of a loop took a token, even if its
operand took none. The tree and the number of tokens taken are those of the reader. -/
theorem cursor_stays_sound (tokens : List Expr) (limit : Int) (extent : Extent) (c : Cursor)
    (hstart : 0 ≤ c.position) (hend : c.position ≤ tokens.length) {fuel : Nat}
    (hfuel : enoughFor tokens (limit - c.depth).toNat ≤ fuel) :
    let r := readAt (limit - c.depth).toNat extent.topLevel (tokens.drop c.position.toNat)
    ∃ c' turns,
      (extent.parse tokens limit fuel).run.run c = (.ok (extent.tree r), c') ∧
      c'.position = c.position + r.position ∧ c.position ≤ c'.position ∧ c'.position ≤ tokens.length ∧
      c'.depth = c.depth ∧ c'.turns = c.turns ++ turns ∧
      ∀ t ∈ turns, c.position ≤ t.start ∧ t.start + 1 ≤ t.stop ∧ t.stop ≤ c'.position := by
  intro r
  have hc := Cursor.isBefore_drop hstart hend
  obtain ⟨c', hyields, hbefore, hle, hdepth, turns, hturns, hwithin⟩ := ends_parse extent hfuel hc
  have hposition := hc.position_eq
  have hposition' : c'.position = tokens.length - r.rest.length := hbefore.position_eq
  have hrest := r.suffix.length_le
  refine ⟨c', turns, hyields, ?_, hle, by omega, hdepth, hturns, fun t ht => ?_⟩
  · rw [Reading.position]
    omega
  · obtain ⟨hfirst, hlt, hlast⟩ := hwithin t ht
    exact ⟨hfirst, hlt, hlast⟩

/-- `)e++√π` from the second token on, with two constructs open where none may be: the operand of the first turn takes
no token, and the root of the second one is left without the number behind it. -/
theorem cursor_stays_sound_past_limit :
    let tokens : List Expr := [.bare .closing, .bare .euler, .bare .add, .bare .add, .bare .squareRoot, .bare .pi]
    let c : Cursor := ⟨1, 2, []⟩
    let read := ((Extent.level .expression).parse tokens (-1) 18).run.run c
    (0 ≤ c.position ∧ c.position ≤ tokens.length ∧ enoughFor tokens (-1 - c.depth).toNat ≤ 18) ∧
      (∃ e c', read = (.ok e, c') ∧ c.position ≤ c'.position ∧ c'.position ≤ tokens.length ∧ c'.depth = c.depth) ∧
      read.2.position = 5 ∧
      read.2.turns.map (fun t => (t.start, t.stop, t.operand.isFailure)) = [(2, 3, true), (3, 5, false)] := by
  intro tokens c read
  have hfuel : enoughFor tokens (-1 - c.depth).toNat ≤ 18 := by decide +kernel
  obtain ⟨c', -, hread, -, hle, hend, hdepth, -, -⟩ :=
    cursor_stays_sound tokens (-1) (.level .expression) c (by decide) (by decide) hfuel
  exact ⟨⟨by decide, by decide, hfuel⟩, ⟨_, c', hread, hle, hend, hdepth⟩, by decide +kernel, by decide +kernel⟩

end Calculator
