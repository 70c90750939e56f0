import Calculator.Proofs.ArgumentLists

/-!
# The pieces of a joined text

A text may be cut where its second part does not continue a literal: its pieces are the pieces of the two parts.

* `splitArguments_plain` : a text without parentheses and commas stays together in an argument list.
* `isLetter_of_isBlank`, `isLiteralChar_of_isBlank` : a blank begins no piece.
* `namePieces`, `signPieces` : the pieces of a text that begins with a name or a sign.
* `takeLiteral_append` : what follows a literal is not read.
* `splitArguments_append` : what follows an argument list is not read.
* `lexemes_append` : the pieces of a joined text.
* `head?_lexemes` : the first piece is a minus where the first character that is no blank is one.
* `length_arguments` : a call has the arguments its function expects.
-/

namespace Calculator

set_option autoImplicit false

open Calculator.Text (isLetter isBlank inRanges letterRanges wideBlanks)

theorem ne_of_class {p : Char → Bool} {c d : Char} (hc : p c) (hd : p d = false) : c ≠ d := by
  rintro rfl
  exact Bool.false_ne_true (hd.symm.trans hc)

/-! ## What remains of a text -/

theorem takeLiteral_suffix (afterMark : Bool) (t : Text) : (takeLiteral afterMark t).2 <:+ t := by
  fun_induction takeLiteral afterMark t with
  | case1 => exact List.suffix_rfl
  | case2 afterMark c rest _ literal after h ih =>
    rw [h] at ih
    exact ih.trans (List.suffix_cons c rest)
  | case3 => exact List.suffix_rfl

theorem closing_suffix {inner : Nat} {t : Text} {r : List Text × Text}
    (h : splitArguments inner t = some r) : ')' :: r.2 <:+ t := by
  obtain ⟨u, rfl, -⟩ := exists_of_splitArguments h
  exact List.suffix_append u _

theorem splitArguments_suffix {inner : Nat} {t : Text} {r : List Text × Text} (h : splitArguments inner t = some r) :
    r.2 <:+ t := (List.suffix_cons ..).trans (closing_suffix h)

theorem inside_suffix {c : Char} {rest inside : Text} (h : rest.dropWhile isLetter = '(' :: inside) :
    inside <:+ c :: rest := by
  have hdrop := List.dropWhile_suffix isLetter (l := rest)
  rw [h] at hdrop
  exact (List.suffix_cons ..).trans (hdrop.trans (List.suffix_cons ..))

theorem getLast?_ne_of_suffix {s t : Text} (h : s <:+ t) {c : Char} (ht : t.getLast? ≠ some c) :
    s.getLast? ≠ some c := by
  obtain ⟨front, rfl⟩ := h
  intro hs
  rw [List.getLast?_append, hs] at ht
  exact ht rfl

/-! ## Texts without the signs of a list -/

section Plain

variable {inner : Nat} {c : Char} {plain t : Text}

def listSigns : Text := ['(', ')', ',']

theorem splitArguments_cons (hc : c ∉ listSigns) :
    splitArguments inner (c :: t) = (splitArguments inner t).map (ontoFirst c) := by
  obtain ⟨hopening, hclosing, hcomma⟩ : c ≠ '(' ∧ c ≠ ')' ∧ c ≠ ',' := by simpa [listSigns] using hc
  rw [splitArguments]
  · exact hopening
  · exact fun _ => hclosing
  · exact fun _ _ => hclosing
  · exact fun _ => hcomma

theorem splitArguments_plain (h : ∀ c ∈ plain, c ∉ listSigns) :
    splitArguments inner (plain ++ t) = (splitArguments inner t).map fun r => plain.foldr ontoFirst r := by
  induction plain with
  | nil => simp
  | cons c plain ih =>
    rw [List.cons_append, splitArguments_cons (h c (List.mem_cons_self ..)),
      ih fun d hd => h d (List.mem_cons_of_mem _ hd), Option.map_map]
    rfl

theorem ontoFirst_eq (c : Char) (r : List Text × Text) : ontoFirst c r = ((c :: r.1.headD []) :: r.1.tail, r.2) := by
  obtain ⟨args, after⟩ := r
  cases args <;> rfl

theorem foldr_ontoFirst (hne : plain ≠ []) (r : List Text × Text) :
    plain.foldr ontoFirst r = ((plain ++ r.1.headD []) :: r.1.tail, r.2) := by
  induction plain with
  | nil => exact absurd rfl hne
  | cons c plain ih =>
    rw [List.foldr_cons, ontoFirst_eq]
    cases plain with
    | nil => rfl
    | cons d plain => rw [ih (List.cons_ne_nil _ _)]; rfl

end Plain

/-! ## Blanks -/

theorem inRanges_eq_false {n : Nat} {rs ss : List (Nat × Nat)} (h : inRanges n rs)
    (hd : rs.all fun r => ss.all fun s => r.2 < s.1 || s.2 < r.1) : inRanges n ss = false := by
  obtain ⟨r, hr, hn⟩ := List.any_eq_true.1 h
  refine List.any_eq_false.2 fun s hs => ?_
  have := List.all_eq_true.1 (List.all_eq_true.1 hd r hr) s hs
  simp at *
  omega

theorem isBlank_cases {c : Char} (h : isBlank c) : c.toNat ≤ 0x20 ∨ 0x80 ≤ c.toNat ∧ inRanges c.toNat wideBlanks := by
  rcases Bool.or_eq_true_iff.1 h with h | h
  · left
    simp [inRanges] at h
    omega
  · right
    refine ⟨?_, h⟩
    simp [inRanges, wideBlanks] at h
    omega

theorem isLetter_of_isBlank {c : Char} (h : isBlank c) : isLetter c = false := by
  rcases isBlank_cases h with hc | ⟨hc, hw⟩
  · rw [isLetter, if_pos (by omega)]
    show (decide (65 ≤ c.val ∧ c.val ≤ 90) || (decide (97 ≤ c.val) && decide (c.val ≤ 122))) = false
    simp [UInt32.le_iff_toNat_le]
    omega
  · rw [isLetter, if_neg (by omega)]
    exact inRanges_eq_false hw (by decide +kernel)

theorem isLiteralChar_of_isBlank {c : Char} (h : isBlank c) : isLiteralChar c = false := by
  have hne : ∀ d : Char, 0x20 < d.toNat → d.toNat < 0x80 → c ≠ d := by
    rintro d hd hd' rfl
    rcases isBlank_cases h with hc | ⟨hc, -⟩ <;> omega
  rcases isBlank_cases h with hc | ⟨hc, -⟩ <;> simp [isLiteralChar, Char.isDigit, UInt32.le_iff_toNat_le, hne]
  all_goals omega

/-! ## One piece -/

/-- The pieces of a name and of what follows the name. -/
def namePieces (name : Text) : Text → List Lexeme
  | '(' :: inside =>
    match NamedFunction.ofName? name with
    | none => [.fault (.unknownFunction name)]
    | some f =>
      match splitArguments 0 inside with
      | none => [.fault (.unclosedArguments ('(' :: inside))]
      | some (arguments, after) =>
        if arguments.length = f.arity then .call f arguments :: lexemes after
        else [.fault (.wrongArity f arguments.length)]
  | _ => [.fault (.notCalled name)]

def signPieces (c : Char) (ls : List Lexeme) : List Lexeme :=
  match Operator.ofText? [c] with
  | some op => .sign op :: ls
  | none => [.fault (.unknownCharacter c)]

section Piece

variable {c : Char} {rest : Text}

theorem lexemes_literal (hc : isLiteralChar c) : lexemes (c :: rest) =
    .literal (c :: (takeLiteral (c == 'E') rest).1) :: lexemes (takeLiteral (c == 'E') rest).2 := by
  rw [lexemes, if_pos hc]

theorem lexemes_blank (hb : isBlank c) : lexemes (c :: rest) = lexemes rest := by
  have hliteral : ¬isLiteralChar c := by simp [isLiteralChar_of_isBlank hb]
  have hname : ¬(isLetter c && !isReservedLetter c) := by simp [isLetter_of_isBlank hb]
  rw [lexemes, if_neg hliteral, if_neg hname, if_pos hb]

theorem lexemes_other (hc : ¬isLiteralChar c) (hname : ¬(isLetter c && !isReservedLetter c)) (hblank : ¬isBlank c) :
    lexemes (c :: rest) = signPieces c (lexemes rest) := by
  rw [lexemes, if_neg hc, if_neg hname, if_neg hblank]
  unfold signPieces
  cases Operator.ofText? [c] <;> rfl

theorem lexemes_sign {op : Operator} (hc : ¬isLiteralChar c) (hname : ¬(isLetter c && !isReservedLetter c))
    (hblank : ¬isBlank c) (hop : Operator.ofText? [c] = some op) : lexemes (c :: rest) = .sign op :: lexemes rest := by
  rw [lexemes_other hc hname hblank, signPieces, hop]

theorem lexemes_name (hc : ¬isLiteralChar c) (hname : isLetter c && !isReservedLetter c) :
    lexemes (c :: rest) = namePieces (c :: rest.takeWhile isLetter) (rest.dropWhile isLetter) := by
  rw [lexemes, if_neg hc, if_pos hname]
  split
  · rename_i inside hinside
    rw [hinside, namePieces]
    dsimp only
    cases NamedFunction.ofName? (c :: rest.takeWhile isLetter) with
    | none => rfl
    | some f =>
      cases splitArguments 0 inside <;> rfl
  · rename_i hinside
    rw [namePieces]
    exact hinside

theorem lexemes_call {inside after : Text} {f : NamedFunction} {arguments : List Text}
    (hc : ¬isLiteralChar c) (hname : isLetter c && !isReservedLetter c)
    (hrest : rest.dropWhile isLetter = '(' :: inside) (hf : NamedFunction.ofName? (c :: rest.takeWhile isLetter) = some f)
    (hargs : splitArguments 0 inside = some (arguments, after)) (harity : arguments.length = f.arity) :
    lexemes (c :: rest) = .call f arguments :: lexemes after := by
  rw [lexemes_name hc hname, hrest, namePieces, hf]
  simp only [hargs, if_pos harity]

end Piece

/-! ## Joined texts -/

section Joined

variable {b : Text}

/-- The literal stops at the cut: the second text continues it neither by a character nor by a minus behind a mark. -/
theorem takeLiteral_append (hb : ∀ c ∈ b.head?, isLiteralChar c = false) (c : Char) (t : Text)
    (hm : b.head? = some '-' → (c :: t).getLast? ≠ some 'E') :
    takeLiteral (c == 'E') (t ++ b) = ((takeLiteral (c == 'E') t).1, (takeLiteral (c == 'E') t).2 ++ b) := by
  induction t generalizing c with
  | nil =>
    cases b with
    | nil => rfl
    | cons d b =>
      have hmark : (d == '-' && c == 'E') = false := by
        rw [Bool.and_eq_false_imp]
        intro hd
        have hc := hm (congrArg some (beq_iff_eq.1 hd))
        simpa using hc
      show takeLiteral (c == 'E') (d :: b) = ([], d :: b)
      rw [takeLiteral, hb d rfl, hmark]
      rfl
  | cons d t ih =>
    rw [List.cons_append, takeLiteral, takeLiteral]
    split
    · rw [ih d fun hd => by simpa using hm hd]
    · rfl

theorem ontoFirst_append (c : Char) (r : List Text × Text) (b : Text) :
    ontoFirst c (r.1, r.2 ++ b) = ((ontoFirst c r).1, (ontoFirst c r).2 ++ b) := by
  obtain ⟨args, after⟩ := r
  cases args <;> rfl

theorem splitArguments_append {inner : Nat} {t : Text} {r : List Text × Text} (h : splitArguments inner t = some r)
    (b : Text) : splitArguments inner (t ++ b) = some (r.1, r.2 ++ b) := by
  fun_induction splitArguments inner t generalizing r with
  | case1 => cases h
  | case2 inner rest ih | case4 inner rest ih =>
    obtain ⟨s, hs, rfl⟩ := Option.map_eq_some_iff.1 h
    rw [List.cons_append, splitArguments, ih hs, Option.map_some, ontoFirst_append]
  | case3 rest =>
    obtain rfl := Option.some.inj h
    rfl
  | case5 rest ih =>
    obtain ⟨s, hs, rfl⟩ := Option.map_eq_some_iff.1 h
    rw [List.cons_append, splitArguments, ih hs]
    rfl
  | case6 inner c rest hopen hclose hclose' hcomma ih =>
    obtain ⟨s, hs, rfl⟩ := Option.map_eq_some_iff.1 h
    rw [List.cons_append, splitArguments, ih hs, Option.map_some, ontoFirst_append]
    all_goals assumption

/-- The name of a call, which an opening parenthesis ends, and what stands behind the parenthesis. -/
theorem dropWhile_append_of_cons {p : Char → Bool} {rest : Text} {c : Char} {inside : Text}
    (h : rest.dropWhile p = c :: inside) (b : Text) :
    (rest ++ b).takeWhile p = rest.takeWhile p ∧ (rest ++ b).dropWhile p = c :: (inside ++ b) := by
  have hlen : (rest.takeWhile p).length ≠ rest.length := by
    have := congrArg List.length (List.takeWhile_append_dropWhile (p := p) (l := rest))
    rw [h, List.length_append, List.length_cons] at this
    omega
  rw [List.takeWhile_append, if_neg hlen, List.dropWhile_append, h]
  exact ⟨rfl, rfl⟩

theorem lexemes_append {a : Text} (ha : ∀ k, Lexeme.fault k ∉ lexemes a)
    (hb : ∀ c ∈ b.head?, isLiteralChar c = false) (hm : b.head? = some '-' → a.getLast? ≠ some 'E') :
    lexemes (a ++ b) = lexemes a ++ lexemes b := by
  fun_induction lexemes a with
  | case1 => rfl
  | case2 c rest hc run ih =>
    rw [List.cons_append, lexemes_literal hc, takeLiteral_append hb c rest hm]
    refine congrArg _ (ih (fun k hk => ha k (List.mem_cons_of_mem _ hk)) fun hd => ?_)
    exact getLast?_ne_of_suffix ((takeLiteral_suffix _ rest).trans (List.suffix_cons c rest)) (hm hd)
  | case5 c rest hc hname name inside hrest f hf arguments after hargs harity ih =>
    obtain ⟨htake, hdrop⟩ := dropWhile_append_of_cons hrest b
    have hafter : after <:+ c :: rest := (splitArguments_suffix hargs).trans (inside_suffix hrest)
    rw [List.cons_append, lexemes_call hc hname hdrop (htake ▸ hf) (splitArguments_append hargs b) harity]
    refine congrArg _ (ih (fun k hk => ha k (List.mem_cons_of_mem _ hk)) fun hd => ?_)
    exact getLast?_ne_of_suffix hafter (hm hd)
  | case8 c rest hc hname hblank ih =>
    rw [List.cons_append, lexemes_blank hblank]
    exact ih ha fun hd => getLast?_ne_of_suffix (List.suffix_cons c rest) (hm hd)
  | case9 c rest hc hname hblank op hop ih =>
    rw [List.cons_append, lexemes_sign hc hname hblank hop]
    refine congrArg _ (ih (fun k hk => ha k (List.mem_cons_of_mem _ hk)) fun hd => ?_)
    exact getLast?_ne_of_suffix (List.suffix_cons c rest) (hm hd)
  | _ => exact absurd (List.mem_cons_self ..) (ha _)

end Joined

/-! ## Signs -/

/-- But for the keyboard spellings, the sign of an operator is what it is read from. -/
theorem symbol_of_ofText? {t : Text} {op : Operator} (h : Operator.ofText? t = some op) (hm : op ≠ .multiply)
    (hd : op ≠ .divide) : op.symbol = t := by
  unfold Operator.ofText? at h
  split at h
  · exact absurd (Option.some.inj h).symm hm
  split at h
  · exact absurd (Option.some.inj h).symm hd
  · exact Operator.symbol_of_ofSymbol? h

theorem ofText?_eq_subtract {c : Char} : Operator.ofText? [c] = some .subtract ↔ c = '-' := by
  constructor
  · intro h
    exact (List.singleton_inj.1 (symbol_of_ofText? h (by decide) (by decide))).symm
  · rintro rfl
    rfl

theorem head?_lexemes (t : Text) :
    (lexemes t).head? = some (.sign .subtract) ↔ (t.dropWhile isBlank).head? = some '-' := by
  fun_induction lexemes t with
  | case1 => simp
  | case2 c rest hc =>
    have hblank : ¬isBlank c := fun h => absurd hc (Bool.eq_false_iff.1 (isLiteralChar_of_isBlank h))
    have hne : c ≠ '-' := by
      rintro rfl
      exact absurd hc (by decide)
    rw [List.dropWhile_cons_of_neg hblank]
    simp [hne]
  | case3 c rest hc hname | case4 c rest hc hname | case5 c rest hc hname | case6 c rest hc hname
  | case7 c rest hc hname =>
    have hletter := (Bool.and_eq_true_iff.1 hname).1
    have hblank : ¬isBlank c := fun h => absurd hletter (Bool.eq_false_iff.1 (isLetter_of_isBlank h))
    have hne : c ≠ '-' := by
      rintro rfl
      exact absurd hletter (by decide)
    rw [List.dropWhile_cons_of_neg hblank]
    simp [hne]
  | case8 c rest hc hname hblank ih => rwa [List.dropWhile_cons_of_pos hblank]
  | case9 c rest hc hname hblank op hop ih =>
    rw [List.dropWhile_cons_of_neg hblank]
    simp [← ofText?_eq_subtract, hop]
  | case10 c rest hc hname hblank hop =>
    rw [List.dropWhile_cons_of_neg hblank]
    simp [← ofText?_eq_subtract, hop]

theorem length_arguments {f : NamedFunction} {arguments : List Text} {t : Text} (h : .call f arguments ∈ lexemes t) :
    arguments.length = f.arity := by
  fun_induction lexemes t with
  | case8 c rest hc hname hblank ih => exact ih h
  | case2 c rest hc run ih | case9 c rest hc hname hblank op hop ih =>
    rcases List.mem_cons.1 h with h | h
    · exact nomatch h
    · exact ih h
  | case5 c rest hc hname name inside hrest g hf arguments after hargs harity ih =>
    rcases List.mem_cons.1 h with h | h
    · obtain ⟨rfl, rfl⟩ := Lexeme.call.inj h
      exact harity
    · exact ih h
  | _ => simp at h

end Calculator
