import Calculator.Proofs.Grammar

/-!
# Reading by the grammar

The readers take exactly what derives from their level, and give it the tree of its derivation.

* `Reading.parts` : the tree and the tokens left, whatever the tokens given were.
* `read_tokens` : what derives from a level is taken, unless an operator behind it belongs to its last operand.
* `Sound` : a tree without failures belongs to a derivation of the tokens taken. All readers are sound (`readAt_sound`).
* `readable_treeOfTokens_iff` : a whole sequence is understood exactly if it derives from `expression`.
-/

namespace Calculator

set_option autoImplicit false

/-! ## One reader after another -/

namespace Reading

def parts {ts : List Expr} (r : Reading ts) : Expr × List Expr := (r.tree, r.rest)

theorem parts_eq_iff {ts : List Expr} {r : Reading ts} {e : Expr} {us : List Expr} :
    r.parts = (e, us) ↔ r.tree = e ∧ r.rest = us := Prod.mk.injEq .. ▸ Iff.rfl

end Reading

section Parts

variable {operand : Reader} {continues : Operator → Bool} {nested : Level → Reader} {e left right : Expr}
  {ts us vs : List Expr}

theorem chain_operator {op : Operator} (hop : continues op) (h : (operand ts).parts = (e, us)) :
    (chain operand continues left (.bare op :: ts)).parts = (chain operand continues (.binary left op e) us).parts := by
  obtain ⟨rfl, rfl⟩ := Reading.parts_eq_iff.1 h
  rw [chain, if_pos hop]
  rfl

theorem chain_end (h : ∀ op us, ts = .bare op :: us → continues op = false) :
    (chain operand continues left ts).parts = (left, ts) := by
  rw [chain.eq_def]
  split
  · rename_i op rest
    rw [if_neg (by simp [h op rest rfl])]
    rfl
  · rfl

theorem readChain_parts (h : (operand ts).parts = (e, us)) :
    (readChain operand continues ts).parts = (chain operand continues e us).parts := by
  obtain ⟨rfl, rfl⟩ := Reading.parts_eq_iff.1 h
  rfl

theorem readFactor_power (h : (readBase nested ts).parts = (e, .bare .power :: us))
    (hr : (nested .factor us).parts = (right, vs)) : (readFactor nested ts).parts = (.binary e .power right, vs) := by
  obtain ⟨rfl, hus⟩ := Reading.parts_eq_iff.1 h
  obtain ⟨rfl, rfl⟩ := Reading.parts_eq_iff.1 hr
  unfold readFactor
  dsimp only
  split
  · rename_i rest hrest
    obtain rfl : rest = us := by simpa [hrest] using hus
    rfl
  · rename_i hne
    exact absurd hus (hne us)

theorem readFactor_base (h : (readBase nested ts).parts = (e, us)) (hne : ∀ vs, us ≠ .bare .power :: vs) :
    (readFactor nested ts).parts = (e, us) := by
  obtain ⟨rfl, rfl⟩ := Reading.parts_eq_iff.1 h
  unfold readFactor
  dsimp only
  split
  · rename_i rest hrest
    exact absurd hrest (hne rest)
  · rfl

theorem readBase_opening (nested : Level → Reader) (ts : List Expr) :
    (readBase nested (.bare .opening :: ts)).parts = (closeParenthesis (nested .expression ts)).parts := rfl

theorem readBase_signed {op : Operator} (hop : op = .negate ∨ op = .squareRoot) (h : (nested .base ts).parts = (e, us)) :
    (readBase nested (.bare op :: ts)).parts = (.unary op e, us) := by
  obtain ⟨rfl, rfl⟩ := Reading.parts_eq_iff.1 h
  rcases hop with rfl | rfl <;> rfl

theorem closeParenthesis_closing {r : Reading ts} (h : r.parts = (e, .bare .closing :: us)) :
    (closeParenthesis r).parts = (e, us) := by
  obtain ⟨rfl, hus⟩ := Reading.parts_eq_iff.1 h
  unfold closeParenthesis
  split
  · rename_i rest hrest
    obtain rfl : rest = us := by simpa [hrest] using hus
    rfl
  · rename_i hne
    exact absurd hus (hne us)

end Parts

/-- The readers of what stands inside a construct when `depth` more of them may be opened. -/
def nestedAt : (depth : Nat) → Level → Reader
  | 0 => fun _ => refuse .unexpectedToken
  | depth + 1 => readAt depth

theorem readAt_eq (depth : Nat) (level : Level) : readAt depth level = level.read (nestedAt depth) := by
  cases depth <;> rfl

/-! ## What derives is taken -/

namespace Level

/-- Behind tokens of the level the operator belongs to their last operand. -/
def absorbs : Level → Operator → Bool
  | expression, op => op == .power || op == .multiply || op == .divide
  | term, op | factor, op => op == .power
  | base, _ => false

/-- The reading of the level goes on behind its first operands, for which `tree` stands. -/
def resume (nested : Level → Reader) : Level → (tree : Expr) → (ts : List Expr) → Reading ts
  | expression => chain (readTerm nested) fun op => op.precedence == Operator.add.precedence
  | term => chain (readFactor nested) fun op => op.precedence == Operator.multiply.precedence
  | _ => fun tree ts => ⟨tree, ts, List.suffix_rfl⟩

end Level

/-- No operator that begins `ts` belongs to tokens of the level in front of it. -/
def Level.EndsAt (level : Level) (ts : List Expr) : Prop := ∀ op us, ts = .bare op :: us → level.absorbs op = false

theorem Level.endsAt_cons {level : Level} {op : Operator} {us : List Expr} (h : level.absorbs op = false) :
    level.EndsAt (.bare op :: us) := by
  intro op' us' he
  obtain ⟨he, -⟩ := List.cons.inj he
  exact Expr.bare.inj he ▸ h

theorem Level.endsAt_nil (level : Level) : level.EndsAt [] := fun _ _ h => nomatch h

theorem Level.endsAt_base (ts : List Expr) : Level.base.EndsAt ts := fun _ _ _ => rfl

theorem Level.EndsAt.term {ts : List Expr} (h : Level.expression.EndsAt ts) : Level.term.EndsAt ts := by
  intro op us he
  have := h op us he
  simp_all [absorbs]

theorem Level.EndsAt.not_multiply {ts : List Expr} (h : Level.expression.EndsAt ts) :
    ∀ op us, ts = .bare op :: us → (op.precedence == Operator.multiply.precedence) = false := by
  intro op us he
  have := h op us he
  cases op <;> simp_all [absorbs, Operator.precedence]

theorem Level.EndsAt.not_power {ts : List Expr} (h : Level.factor.EndsAt ts) : ∀ us, ts ≠ .bare .power :: us := by
  rintro us rfl
  exact absurd (h .power us rfl) (by decide)

theorem nestedAt_of_lt {n depth : Nat} (h : n < depth) : ∃ d, n ≤ d ∧ nestedAt depth = readAt d := by
  cases depth with
  | zero => exact absurd h (Nat.not_lt_zero n)
  | succ d => exact ⟨d, Nat.le_of_lt_succ h, rfl⟩

/-- **What derives from a level is taken**, if `depth` allows for the constructs in it. -/
theorem read_tokens {level : Level} (D : Derivation level) {depth : Nat} (hd : D.nesting ≤ depth) {rest : List Expr}
    (hr : level.EndsAt rest) :
    (readAt depth level (D.tokens ++ rest)).parts = (level.resume (nestedAt depth) D.tree rest).parts := by
  rw [readAt_eq]
  induction D generalizing depth rest with
  | ofTerm t ih =>
    have ht := ih hd hr.term
    rw [Level.resume, chain_end hr.not_multiply] at ht
    exact readChain_parts ht
  | sum l op hop r ihl ihr =>
    obtain ⟨hl, hr'⟩ := Nat.max_le.1 hd
    have hright := ihr hr' hr.term
    rw [Level.resume, chain_end hr.not_multiply] at hright
    have hends : Level.expression.EndsAt (.bare op :: (r.tokens ++ rest)) :=
      Level.endsAt_cons (by rcases hop with rfl | rfl <;> rfl)
    rw [Derivation.tokens, List.append_assoc, List.cons_append, ihl hl hends]
    exact chain_operator (by rcases hop with rfl | rfl <;> rfl) hright
  | ofFactor f ih => exact readChain_parts (ih hd hr)
  | product l op hop r ihl ihr =>
    obtain ⟨hl, hr'⟩ := Nat.max_le.1 hd
    have hends : Level.term.EndsAt (.bare op :: (r.tokens ++ rest)) :=
      Level.endsAt_cons (by rcases hop with rfl | rfl <;> rfl)
    rw [Derivation.tokens, List.append_assoc, List.cons_append, ihl hl hends]
    exact chain_operator (by rcases hop with rfl | rfl <;> rfl) (ihr hr' hr)
  | ofBase b ih => exact readFactor_base (ih hd (Level.endsAt_base _)) hr.not_power
  | power b e ihb ihe =>
    obtain ⟨hb, he⟩ := Nat.max_le.1 hd
    obtain ⟨d, hed, hn⟩ := nestedAt_of_lt he
    have hexponent := ihe hed hr
    rw [← readAt_eq, ← hn] at hexponent
    rw [Derivation.tokens, List.append_assoc, List.cons_append]
    exact readFactor_power (ihb hb (Level.endsAt_base _)) hexponent
  | parentheses inner ih =>
    obtain ⟨d, hid, hn⟩ := nestedAt_of_lt hd
    have hends : Level.expression.EndsAt (.bare .closing :: rest) := Level.endsAt_cons rfl
    have hinner := ih hid hends
    rw [← readAt_eq, ← hn, Level.resume, chain_end (by rintro op us ⟨⟩; rfl)] at hinner
    rw [Derivation.tokens, List.cons_append, List.append_assoc]
    exact (readBase_opening ..).trans (closeParenthesis_closing hinner)
  | signed op hop operand ih =>
    obtain ⟨d, hod, hn⟩ := nestedAt_of_lt hd
    have hoperand := ih hod (Level.endsAt_base rest)
    rw [← readAt_eq, ← hn] at hoperand
    exact readBase_signed hop hoperand
  | constant op hop => rcases hop with rfl | rfl <;> rfl
  | _ => rfl

/-! ## What is taken derives -/

/-- A tree without failures is that of a derivation of the tokens taken, with less than `depth` constructs open inside
one another. -/
def Sound (depth : Nat) (level : Level) (read : Reader) : Prop :=
  ∀ ts, (read ts).tree.readable → ∃ D : Derivation level,
    D.tokens ++ (read ts).rest = ts ∧ D.tree = (read ts).tree ∧ D.nesting < depth

theorem refuse_sound (depth : Nat) (level : Level) (fault : ParsingFault) : Sound depth level (refuse fault) :=
  fun _ h => nomatch h

theorem readable_of_chain {operand : Reader} {continues : Operator → Bool} {left : Expr} {ts : List Expr}
    (h : (chain operand continues left ts).tree.readable) : left.readable := by
  fun_induction chain operand continues left ts with
  | case1 left op rest hop right all ih =>
    have := ih h
    simp only [Expr.readable, Bool.and_eq_true] at this
    exact this.1
  | case2 left op rest hop => exact h
  | case3 left ts hne => exact h

section Chain

variable {operand : Reader} {continues : Operator → Bool} {lower upper : Level} {depth : Nat}

/-- An operand behind a derivation and an operator that continues it makes a longer derivation. -/
def Joins (continues : Operator → Bool) (lower upper : Level) : Prop :=
  ∀ op, continues op → ∀ (L : Derivation upper) (R : Derivation lower), ∃ D : Derivation upper,
    D.tokens = L.tokens ++ .bare op :: R.tokens ∧ D.tree = .binary L.tree op R.tree ∧
      D.nesting = max L.nesting R.nesting

theorem chain_sound (hjoin : Joins continues lower upper) (ho : Sound depth lower operand) {left : Expr} {ts : List Expr}
    (h : (chain operand continues left ts).tree.readable) (L : Derivation upper) (hL : L.tree = left)
    (hn : L.nesting < depth) : ∃ D : Derivation upper,
      D.tokens ++ (chain operand continues left ts).rest = L.tokens ++ ts ∧
        D.tree = (chain operand continues left ts).tree ∧ D.nesting < depth := by
  fun_induction chain operand continues left ts generalizing L with
  | case1 left op rest hop right all ih =>
    have hr : (Expr.binary left op right.tree).readable := readable_of_chain (show all.tree.readable from h)
    simp only [Expr.readable, Bool.and_eq_true] at hr
    obtain ⟨R, hRtokens, hRtree, hRn⟩ := ho rest hr.2
    obtain ⟨D, hDtokens, hDtree, hDn⟩ := hjoin op hop L R
    obtain ⟨E, hEtokens, hEtree, hEn⟩ := ih h D (by rw [hDtree, hL, hRtree]) (hDn ▸ Nat.max_lt.2 ⟨hn, hRn⟩)
    refine ⟨E, ?_, hEtree, hEn⟩
    calc E.tokens ++ all.rest = D.tokens ++ right.rest := hEtokens
      _ = L.tokens ++ .bare op :: (R.tokens ++ right.rest) := by rw [hDtokens, List.append_assoc]; rfl
      _ = L.tokens ++ .bare op :: rest := by rw [hRtokens]
  | case2 left op rest hop => exact ⟨L, rfl, hL, hn⟩
  | case3 left ts hne => exact ⟨L, rfl, hL, hn⟩

/-- The operand by itself is a chain. -/
def Includes (lower upper : Level) : Prop :=
  ∀ R : Derivation lower, ∃ D : Derivation upper, D.tokens = R.tokens ∧ D.tree = R.tree ∧ D.nesting = R.nesting

theorem readChain_sound (hone : Includes lower upper) (hjoin : Joins continues lower upper)
    (ho : Sound depth lower operand) : Sound depth upper (readChain operand continues) := by
  intro ts h
  change (chain operand continues (operand ts).tree (operand ts).rest).tree.readable at h
  obtain ⟨R, hRtokens, hRtree, hRn⟩ := ho ts (readable_of_chain h)
  obtain ⟨L, hLtokens, hLtree, hLn⟩ := hone R
  obtain ⟨D, hDtokens, hDtree, hDn⟩ := chain_sound hjoin ho h L (hLtree.trans hRtree) (hLn ▸ hRn)
  rw [hLtokens, hRtokens] at hDtokens
  exact ⟨D, hDtokens, hDtree, hDn⟩

end Chain

theorem joins_sum : Joins (fun op => op.precedence == Operator.add.precedence) .term .expression := by
  intro op hop L R
  have h : op = .add ∨ op = .subtract := by cases op <;> first | exact .inl rfl | exact .inr rfl | exact nomatch hop
  exact ⟨.sum L op h R, rfl, rfl, rfl⟩

theorem joins_product : Joins (fun op => op.precedence == Operator.multiply.precedence) .factor .term := by
  intro op hop L R
  have h : op = .multiply ∨ op = .divide := by cases op <;> first | exact .inl rfl | exact .inr rfl | exact nomatch hop
  exact ⟨.product L op h R, rfl, rfl, rfl⟩

section Levels

variable {nested : Level → Reader} {depth : Nat}

theorem closeParenthesis_sound {ts : List Expr} {r : Reading ts} (h : (closeParenthesis r).tree.readable) :
    r.parts = ((closeParenthesis r).tree, .bare .closing :: (closeParenthesis r).rest) := by
  unfold closeParenthesis at h ⊢
  split at h
  · rename_i rest hrest
    exact Reading.parts_eq_iff.2 ⟨rfl, hrest⟩
  · exact nomatch h

theorem readBase_sound (hn : ∀ level, Sound depth level (nested level)) : Sound (depth + 1) .base (readBase nested) := by
  intro ts h
  cases ts with
  | nil => exact nomatch h
  | cons t ts =>
    cases t with
    | number v => exact ⟨.number v, rfl, rfl, depth.succ_pos⟩
    | call f e => exact ⟨.call f e, rfl, rfl, depth.succ_pos⟩
    | call₂ f a b => exact ⟨.call₂ f a b, rfl, rfl, depth.succ_pos⟩
    | bare op =>
      cases op with
      | opening =>
        change (closeParenthesis (nested .expression ts)).tree.readable at h
        obtain ⟨htree, hrest⟩ := Reading.parts_eq_iff.1 (closeParenthesis_sound h)
        obtain ⟨D, hDtokens, hDtree, hDn⟩ := hn .expression ts (htree ▸ h)
        rw [hrest] at hDtokens
        refine ⟨.parentheses D, congrArg (_ :: ·) ?_, hDtree.trans htree, Nat.succ_lt_succ hDn⟩
        exact (List.append_assoc ..).trans hDtokens
      | scientific =>
        cases ts with
        | nil => exact nomatch h
        | cons u us =>
          cases u with
          | number v => exact ⟨.powerOfTen v, rfl, rfl, depth.succ_pos⟩
          | _ => exact nomatch h
      | pi => exact ⟨.constant .pi (.inl rfl), rfl, rfl, depth.succ_pos⟩
      | euler => exact ⟨.constant .euler (.inr rfl), rfl, rfl, depth.succ_pos⟩
      | freeVariable => exact ⟨.freeVariable, rfl, rfl, depth.succ_pos⟩
      | negate =>
        obtain ⟨D, hDtokens, hDtree, hDn⟩ := hn .base ts h
        exact ⟨.signed .negate (.inl rfl) D, congrArg (_ :: ·) hDtokens, congrArg _ hDtree, Nat.succ_lt_succ hDn⟩
      | squareRoot =>
        obtain ⟨D, hDtokens, hDtree, hDn⟩ := hn .base ts h
        exact ⟨.signed .squareRoot (.inr rfl) D, congrArg (_ :: ·) hDtokens, congrArg _ hDtree, Nat.succ_lt_succ hDn⟩
      | _ => exact nomatch h
    | _ => exact nomatch h

theorem readFactor_sound (hn : ∀ level, Sound depth level (nested level)) :
    Sound (depth + 1) .factor (readFactor nested) := by
  intro ts h
  have hbase := readBase_sound hn ts
  by_cases hp : ∃ us, (readBase nested ts).rest = .bare .power :: us
  · obtain ⟨us, hus⟩ := hp
    obtain ⟨htree, hrest⟩ := Reading.parts_eq_iff.1 (readFactor_power (Reading.parts_eq_iff.2 ⟨rfl, hus⟩) rfl)
    rw [htree] at h ⊢
    simp only [Expr.readable, Bool.and_eq_true] at h
    obtain ⟨B, hBtokens, hBtree, hBn⟩ := hbase h.1
    obtain ⟨E, hEtokens, hEtree, hEn⟩ := hn .factor us h.2
    refine ⟨.power B E, ?_, by rw [Derivation.tree, hBtree, hEtree], Nat.max_lt.2 ⟨hBn, Nat.succ_lt_succ hEn⟩⟩
    calc (B.tokens ++ .bare .power :: E.tokens) ++ (readFactor nested ts).rest
        = B.tokens ++ .bare .power :: (E.tokens ++ (nested .factor us).rest) := by rw [hrest, List.append_assoc]; rfl
      _ = B.tokens ++ (readBase nested ts).rest := by rw [hEtokens, hus]
      _ = ts := hBtokens
  · obtain ⟨htree, hrest⟩ :=
      Reading.parts_eq_iff.1 (readFactor_base (Reading.parts_eq_iff.2 ⟨rfl, rfl⟩) fun us h => hp ⟨us, h⟩)
    rw [htree] at h ⊢
    rw [hrest]
    obtain ⟨B, hBtokens, hBtree, hBn⟩ := hbase h
    exact ⟨.ofBase B, hBtokens, hBtree, hBn⟩

theorem read_sound (hn : ∀ level, Sound depth level (nested level)) (level : Level) :
    Sound (depth + 1) level (level.read nested) := by
  have hfactor := readFactor_sound hn
  have hterm : Sound (depth + 1) .term (readTerm nested) :=
    readChain_sound (fun R => ⟨.ofFactor R, rfl, rfl, rfl⟩) joins_product hfactor
  cases level with
  | expression => exact readChain_sound (fun R => ⟨.ofTerm R, rfl, rfl, rfl⟩) joins_sum hterm
  | term => exact hterm
  | factor => exact hfactor
  | base => exact readBase_sound hn

end Levels

theorem readAt_sound (depth : Nat) (level : Level) : Sound (depth + 1) level (readAt depth level) := by
  induction depth generalizing level with
  | zero => exact read_sound (fun level => refuse_sound 0 level _) level
  | succ depth ih => exact read_sound ih level

/-! ## Whole sequences -/

theorem treeOfTokens_tokens (D : Derivation .expression) {limit : Int} (hd : D.nesting ≤ limit.toNat) :
    treeOfTokens limit D.tokens = D.tree := by
  have h := read_tokens D hd (Level.endsAt_nil _)
  rw [Level.resume, chain_end (by simp), List.append_nil] at h
  obtain ⟨htree, hrest⟩ := Reading.parts_eq_iff.1 h
  rw [treeOfTokens, hrest, htree]
  rfl

theorem exists_derivation {limit : Int} {ts : List Expr} (h : (treeOfTokens limit ts).readable) :
    ∃ D : Derivation .expression, D.tokens = ts ∧ D.nesting ≤ limit.toNat ∧
      (readAt limit.toNat .expression ts).rest = [] := by
  unfold treeOfTokens at h
  dsimp only at h
  split at h
  · rename_i hrest
    rw [List.isEmpty_iff] at hrest
    obtain ⟨D, hDtokens, hDtree, hDn⟩ := readAt_sound _ _ ts h
    rw [hrest, List.append_nil] at hDtokens
    exact ⟨D, hDtokens, Nat.le_of_lt_succ hDn, hrest⟩
  · exact nomatch h

/-- **A sequence is understood exactly if it derives from `expression`** with at most `limit` constructs open inside one
another. Its tree is then that of the derivation. -/
theorem readable_treeOfTokens_iff (limit : Nat) (ts : List Expr) :
    ((treeOfTokens limit ts).readable ↔ ∃ D : Derivation .expression, D.tokens = ts ∧ D.nesting ≤ limit) ∧
      ∀ D : Derivation .expression, D.tokens = ts → D.nesting ≤ limit → treeOfTokens limit ts = D.tree := by
  refine ⟨⟨fun h => ?_, ?_⟩, ?_⟩
  · obtain ⟨D, hD, hn, -⟩ := exists_derivation h
    exact ⟨D, hD, hn⟩
  · rintro ⟨D, rfl, hn⟩
    have hn : D.nesting ≤ (limit : Int).toNat := hn
    rw [treeOfTokens_tokens D hn]
    exact D.readable_tree
  · rintro D rfl hn
    have hn : D.nesting ≤ (limit : Int).toNat := hn
    exact treeOfTokens_tokens D hn

end Calculator
