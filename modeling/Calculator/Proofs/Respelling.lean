import Calculator.Proofs.Lexemes
import Calculator.Proofs.Sequence

/-!
# Respelled texts

Products and quotients may be spelled as on a keyboard, and beside a sign blanks mean nothing, as long as none of them
separates a name from its parenthesis. A respelled text falls into the same pieces, but that the arguments of a call are
respelled themselves, with blanks in front where one stood behind a parenthesis or a comma. So it has the same tokens.

* `Respelling` : the same text in another spelling; `Padded` : with blanks in front.
* `takeLiteral_respelling`, `name_respelling`, `splitArguments_respelling` : literals, names and argument lists.
* `Lexeme.Alike`, `lexemes_respelling` : the pieces.
* `tokens_alike`, `tokensFrom_alike`, `tokensWithin_padded` : the tokens.
* `tokenize_respelling` : a respelled text has the same tokens, or a fault of the same kind and code.
-/

namespace Calculator

set_option autoImplicit false

open Calculator.Text (isLetter isBlank)

/-! ## Spellings -/

/-- The signs beside which blanks mean nothing. -/
def spacedSigns : Text := "()+⋅*÷/^√_,".toList

/-- A character and one that may stand in its place. -/
inductive SpelledAs : Char → Char → Prop
  | itself (c : Char) : SpelledAs c c
  | asterisk : SpelledAs '*' '⋅'
  | slash : SpelledAs '/' '÷'

/-- The second text is the first one, but that any of its signs may be spelled otherwise, and that there may be blanks
behind each of `spacedSigns`, in front of each of them that is no opening parenthesis, and at the end. -/
inductive Respelling : Text → Text → Prop
  | atEnd {blanks : Text} (hblanks : blanks.all isBlank) : Respelling [] blanks
  | cons {t u : Text} (c : Char) (h : Respelling t u) : Respelling (c :: t) (c :: u)
  | sign {c d : Char} {t u : Text} (front behind : Text) (hc : c ∈ spacedSigns) (hd : SpelledAs c d)
      (hfront : front.all isBlank) (hopening : c = '(' → front = []) (hbehind : behind.all isBlank)
      (h : Respelling t u) : Respelling (c :: t) (front ++ d :: (behind ++ u))

/-- The text is respelled, with blanks in front. -/
inductive Padded : Text → Text → Prop
  | mk {t u : Text} (front : Text) (hfront : front.all isBlank) (h : Respelling t u) : Padded t (front ++ u)

/-- What the report of a fault says besides its text. -/
def TokenError.kindAndCode (e : TokenError) : ParsingFault × Text := (e.kind, e.code)

section Spellings

variable {c d : Char} {t u : Text}

theorem Respelling.refl (t : Text) : Respelling t t := by
  induction t with
  | nil => exact .atEnd rfl
  | cons c t ih => exact .cons c ih

theorem Respelling.padded (h : Respelling t u) : Padded t u := .mk [] rfl h

/-- The character belongs to no literal, to no name and to no blanks. -/
structure StandsAlone (c : Char) : Prop where
  literal : isLiteralChar c = false
  letter : isLetter c = false
  blank : isBlank c = false
  minus : c ≠ '-'

theorem standsAlone_of_mem (hc : c ∈ spacedSigns) : StandsAlone c := by
  have hall : spacedSigns.all fun c => !isLiteralChar c && !isLetter c && !isBlank c && c != '-' := by decide +kernel
  have halone := List.all_eq_true.1 hall c hc
  simp only [Bool.and_eq_true, Bool.not_eq_true', bne_iff_ne] at halone
  obtain ⟨⟨⟨hliteral, hletter⟩, hblank⟩, hminus⟩ := halone
  exact ⟨hliteral, hletter, hblank, hminus⟩

theorem SpelledAs.mem (h : SpelledAs c d) (hc : c ∈ spacedSigns) : d ∈ spacedSigns := by
  cases h with
  | itself => exact hc
  | asterisk | slash => decide

theorem SpelledAs.ofText?_eq (h : SpelledAs c d) : Operator.ofText? [c] = Operator.ofText? [d] := by
  cases h <;> rfl

theorem SpelledAs.eq_opening (h : SpelledAs c d) : d = '(' ↔ c = '(' := by
  cases h with
  | itself => rfl
  | asterisk | slash => decide

end Spellings

/-! ## Literals and names -/

section Runs

variable {c : Char} {t u front : Text}

/-- The text continues no literal and no name. -/
def Breaks (t : Text) : Prop := ∀ c ∈ t.head?, isLiteralChar c = false ∧ isLetter c = false ∧ c ≠ '-'

theorem breaks_nil : Breaks [] := nofun

theorem breaks_sign (hc : c ∈ spacedSigns) (t : Text) : Breaks (c :: t) := by
  have hsign := standsAlone_of_mem hc
  intro d hd
  obtain rfl := Option.some.inj hd
  exact ⟨hsign.literal, hsign.letter, hsign.minus⟩

theorem breaks_append (hfront : front.all isBlank) (h : Breaks t) : Breaks (front ++ t) := by
  cases front with
  | nil => exact h
  | cons b front =>
    have hb : isBlank b := List.all_eq_true.1 hfront b (List.mem_cons_self ..)
    intro d hd
    obtain rfl := Option.some.inj hd
    exact ⟨isLiteralChar_of_isBlank hb, isLetter_of_isBlank hb, ne_of_class hb (by decide)⟩

theorem breaks_blanks (hfront : front.all isBlank) : Breaks front := by
  simpa using breaks_append hfront breaks_nil

theorem Breaks.takeLiteral_eq (h : Breaks t) (afterMark : Bool) : takeLiteral afterMark t = ([], t) := by
  cases t with
  | nil => rfl
  | cons c t =>
    obtain ⟨hliteral, -, hminus⟩ := h c rfl
    rw [takeLiteral, if_neg (by simp [hliteral, hminus])]

theorem Breaks.name_eq (h : Breaks t) : t.takeWhile isLetter = [] ∧ t.dropWhile isLetter = t := by
  cases t with
  | nil => exact ⟨rfl, rfl⟩
  | cons c t =>
    obtain ⟨-, hletter, -⟩ := h c rfl
    simp [hletter]

theorem takeLiteral_respelling (h : Respelling t u) (afterMark : Bool) :
    (takeLiteral afterMark t).1 = (takeLiteral afterMark u).1 ∧
      Respelling (takeLiteral afterMark t).2 (takeLiteral afterMark u).2 := by
  induction h generalizing afterMark with
  | atEnd hblanks =>
    rw [breaks_nil.takeLiteral_eq, (breaks_blanks hblanks).takeLiteral_eq]
    exact ⟨rfl, .atEnd hblanks⟩
  | cons c h ih =>
    rw [takeLiteral, takeLiteral]
    split
    · obtain ⟨hliteral, hafter⟩ := ih (c == 'E')
      exact ⟨congrArg (c :: ·) hliteral, hafter⟩
    · exact ⟨rfl, .cons c h⟩
  | sign front behind hc hd hfront hopening hbehind h ih =>
    rw [(breaks_sign hc _).takeLiteral_eq, (breaks_append hfront (breaks_sign (hd.mem hc) _)).takeLiteral_eq]
    exact ⟨rfl, .sign front behind hc hd hfront hopening hbehind h⟩

theorem name_respelling (h : Respelling t u) : t.takeWhile isLetter = u.takeWhile isLetter ∧
    Respelling (t.dropWhile isLetter) (u.dropWhile isLetter) := by
  induction h with
  | atEnd hblanks =>
    obtain ⟨hname, hafter⟩ := (breaks_blanks hblanks).name_eq
    rw [hname, hafter]
    exact ⟨rfl, .atEnd hblanks⟩
  | cons c h ih =>
    by_cases hc : isLetter c
    · simp only [List.takeWhile_cons_of_pos hc, List.dropWhile_cons_of_pos hc]
      exact ⟨congrArg _ ih.1, ih.2⟩
    · simp only [List.takeWhile_cons_of_neg hc, List.dropWhile_cons_of_neg hc]
      exact ⟨trivial, .cons c h⟩
  | sign front behind hc hd hfront hopening hbehind h ih =>
    obtain ⟨hname, hafter⟩ := (breaks_sign hc _).name_eq
    obtain ⟨hname', hafter'⟩ := (breaks_append hfront (breaks_sign (hd.mem hc) _)).name_eq
    rw [hname, hafter, hname', hafter']
    exact ⟨rfl, .sign front behind hc hd hfront hopening hbehind h⟩

/-- No blanks stand between a name and its parenthesis. -/
theorem Respelling.opening_or (h : Respelling t u) :
    (∃ inside inside', t = '(' :: inside ∧ u = '(' :: inside' ∧ Padded inside inside') ∨
      t.head? ≠ some '(' ∧ u.head? ≠ some '(' := by
  have hblank : ∀ b, isBlank b → b ≠ '(' := fun b hb => ne_of_class hb (by decide)
  cases h with
  | atEnd hblanks =>
    refine .inr ⟨nofun, fun hhead => ?_⟩
    obtain ⟨blanks, rfl⟩ := List.head?_eq_some_iff.1 hhead
    exact hblank '(' (List.all_eq_true.1 hblanks _ (List.mem_cons_self ..)) rfl
  | @cons t u c h =>
    by_cases hc : c = '('
    · subst hc
      exact .inl ⟨t, u, rfl, rfl, h.padded⟩
    · exact .inr ⟨by simpa using hc, by simpa using hc⟩
  | @sign c d t u front behind hc hd hfront hopening hbehind h =>
    by_cases hc' : c = '('
    · obtain rfl := hopening hc'
      obtain rfl := hd.eq_opening.2 hc'
      subst hc'
      exact .inl ⟨t, behind ++ u, rfl, rfl, .mk behind hbehind h⟩
    · refine .inr ⟨by simpa using hc', ?_⟩
      cases front with
      | nil => simpa using mt hd.eq_opening.1 hc'
      | cons b front => simpa using hblank b (List.all_eq_true.1 hfront b (List.mem_cons_self ..))

end Runs

/-! ## Argument lists -/

/-- The first argument is respelled; there may be blanks in front of the others and of what follows the list. -/
inductive ListsAlike : List Text × Text → List Text × Text → Prop
  | mk {first first' : Text} {others others' : List Text} {after after' : Text} (hfirst : Respelling first first')
      (hothers : List.Forall₂ Padded others others') (hafter : Padded after after') :
      ListsAlike (first :: others, after) (first' :: others', after')

section Arguments

variable {c d : Char} {t u front behind : Text} {inner : Nat}

theorem rel_map {α β γ δ : Type} {R : α → β → Prop} {S : γ → δ → Prop} {f : α → γ} {g : β → δ} {x : Option α}
    {y : Option β} (h : Option.Rel R x y) (hR : ∀ {a b}, R a b → S (f a) (g b)) : Option.Rel S (x.map f) (y.map g) := by
  cases h with
  | none => exact .none
  | some h => exact .some (hR h)

theorem rel_cases {α β : Type} {R : α → β → Prop} {x : Option α} {y : Option β} (h : Option.Rel R x y) :
    x = none ∧ y = none ∨ ∃ a b, x = some a ∧ y = some b ∧ R a b := by
  cases h with
  | none => exact .inl ⟨rfl, rfl⟩
  | some h => exact .inr ⟨_, _, rfl, rfl, h⟩

theorem foldr_ontoFirst_cons (plain first : Text) (others : List Text) (after : Text) :
    plain.foldr ontoFirst (first :: others, after) = ((plain ++ first) :: others, after) := by
  induction plain with
  | nil => rfl
  | cons c plain ih =>
    rw [List.foldr_cons, ih]
    rfl

theorem splitArguments_blanks (hfront : front.all isBlank) :
    splitArguments inner (front ++ t) = (splitArguments inner t).map fun r => front.foldr ontoFirst r := by
  refine splitArguments_plain fun b hb => ?_
  have hblank : isBlank b := List.all_eq_true.1 hfront b hb
  have hopening : b ≠ '(' := ne_of_class hblank (by decide)
  have hclosing : b ≠ ')' := ne_of_class hblank (by decide)
  have hcomma : b ≠ ',' := ne_of_class hblank (by decide)
  simp [listSigns, hopening, hclosing, hcomma]

/-- A character belongs to an argument, ends the list or ends an argument, in both of its spellings. -/
theorem splitArguments_step (hd : SpelledAs c d) (inner : Nat) :
    (∃ next, ∀ t, splitArguments inner (c :: t) = (splitArguments next t).map (ontoFirst c) ∧
      splitArguments inner (d :: t) = (splitArguments next t).map (ontoFirst d)) ∨
      inner = 0 ∧ c = ')' ∧ d = ')' ∨ inner = 0 ∧ c = ',' ∧ d = ',' := by
  cases hd with
  | asterisk | slash =>
    exact .inl ⟨inner, fun t => ⟨splitArguments_cons (by decide), splitArguments_cons (by decide)⟩⟩
  | itself =>
    by_cases hsigns : c ∈ listSigns
    · have hsigns' : c = '(' ∨ c = ')' ∨ c = ',' := by simpa [listSigns] using hsigns
      obtain rfl | rfl | rfl := hsigns'
      · exact .inl ⟨inner + 1, fun t => ⟨rfl, rfl⟩⟩
      · cases inner with
        | zero => exact .inr (.inl ⟨rfl, rfl, rfl⟩)
        | succ inner => exact .inl ⟨inner, fun t => ⟨rfl, rfl⟩⟩
      · cases inner with
        | zero => exact .inr (.inr ⟨rfl, rfl, rfl⟩)
        | succ inner => exact .inl ⟨inner + 1, fun t => ⟨rfl, rfl⟩⟩
    · exact .inl ⟨inner, fun t => ⟨splitArguments_cons hsigns, splitArguments_cons hsigns⟩⟩

/-- One character more: `hhead` says what becomes of the argument to which it belongs. -/
theorem splitArguments_cons_alike (hd : SpelledAs c d) (hfront : front.all isBlank) (hbehind : behind.all isBlank)
    (hhead : ∀ {a a' : Text}, Respelling a a' → Respelling (c :: a) (front ++ d :: (behind ++ a')))
    (h : Respelling t u) (ih : ∀ inner, Option.Rel ListsAlike (splitArguments inner t) (splitArguments inner u))
    (inner : Nat) : Option.Rel ListsAlike (splitArguments inner (c :: t))
      (splitArguments inner (front ++ d :: (behind ++ u))) := by
  rw [splitArguments_blanks hfront]
  obtain ⟨next, hnext⟩ | ⟨rfl, rfl, rfl⟩ | ⟨rfl, rfl, rfl⟩ := splitArguments_step hd inner
  · rw [(hnext t).1, (hnext (behind ++ u)).2, splitArguments_blanks hbehind, Option.map_map, Option.map_map]
    refine rel_map (ih next) fun hlists => ?_
    obtain ⟨hfirst, hothers, hafter⟩ := hlists
    simp only [Function.comp_apply, foldr_ontoFirst_cons, ontoFirst]
    exact .mk (hhead hfirst) hothers hafter
  · rw [splitArguments, splitArguments, Option.map_some, foldr_ontoFirst_cons, List.append_nil]
    exact .some (.mk (.atEnd hfront) .nil (.mk behind hbehind h))
  · rw [splitArguments, splitArguments, splitArguments_blanks hbehind, Option.map_map, Option.map_map]
    refine rel_map (ih 0) fun hlists => ?_
    obtain ⟨hfirst, hothers, hafter⟩ := hlists
    simp only [Function.comp_apply, foldr_ontoFirst_cons, List.append_nil]
    exact .mk (.atEnd hfront) (.cons (.mk behind hbehind hfirst) hothers) hafter

theorem splitArguments_respelling (h : Respelling t u) (inner : Nat) :
    Option.Rel ListsAlike (splitArguments inner t) (splitArguments inner u) := by
  induction h generalizing inner with
  | @atEnd blanks hblanks =>
    have hnone : splitArguments inner (blanks ++ []) = none := splitArguments_blanks hblanks
    rw [List.append_nil] at hnone
    rw [splitArguments, hnone]
    exact .none
  | cons c h ih =>
    have hnil : ([] : Text).all isBlank := rfl
    exact splitArguments_cons_alike (.itself c) hnil hnil (.cons c) h ih inner
  | sign front behind hc hd hfront hopening hbehind h ih =>
    exact splitArguments_cons_alike hd hfront hbehind (.sign front behind hc hd hfront hopening hbehind) h ih inner

theorem splitArguments_padded (h : Padded t u) :
    Option.Rel (fun r s => List.Forall₂ Padded r.1 s.1 ∧ Padded r.2 s.2) (splitArguments 0 t) (splitArguments 0 u) := by
  obtain ⟨front, hfront, h⟩ := h
  rw [splitArguments_blanks hfront, ← Option.map_id_apply (x := splitArguments 0 t)]
  refine rel_map (splitArguments_respelling h 0) fun hlists => ?_
  obtain ⟨hfirst, hothers, hafter⟩ := hlists
  rw [foldr_ontoFirst_cons]
  exact ⟨.cons (.mk front hfront hfirst) hothers, hafter⟩

end Arguments

/-! ## Pieces -/

/-- The two pieces are the same but for the spelling of arguments and for what a fault says besides its kind and code. -/
inductive Lexeme.Alike : Lexeme → Lexeme → Prop
  | literal (t : Text) : Alike (literal t) (literal t)
  | call (f : NamedFunction) {arguments arguments' : List Text} (h : List.Forall₂ Padded arguments arguments') :
      Alike (call f arguments) (call f arguments')
  | sign (op : Operator) : Alike (sign op) (sign op)
  | fault {k k' : LexicalFault} (hkind : k.kind = k'.kind) (hcode : k.code = k'.code) : Alike (fault k) (fault k')

section Pieces

variable {c d : Char} {t u front : Text}

theorem alike_fault {k k' : LexicalFault} (hkind : k.kind = k'.kind) (hcode : k.code = k'.code) :
    List.Forall₂ Lexeme.Alike [.fault k] [.fault k'] := .cons (.fault hkind hcode) .nil

theorem lexemes_blanks (hfront : front.all isBlank) : lexemes (front ++ t) = lexemes t := by
  induction front with
  | nil => rfl
  | cons b front ih =>
    rw [List.all_cons, Bool.and_eq_true] at hfront
    rw [List.cons_append, lexemes_blank hfront.1, ih hfront.2]

theorem namePieces_of_ne {name : Text} (h : t.head? ≠ some '(') : namePieces name t = [.fault (.notCalled name)] := by
  rw [namePieces]
  rintro inside rfl
  exact h rfl

theorem StandsAlone.lexemes_eq (hc : StandsAlone c) : lexemes (c :: t) = signPieces c (lexemes t) :=
  lexemes_other (by simp [hc.literal]) (by simp [hc.letter]) (by simp [hc.blank])

theorem signPieces_alike {ls ls' : List Lexeme} (hd : SpelledAs c d) (h : List.Forall₂ Lexeme.Alike ls ls') :
    List.Forall₂ Lexeme.Alike (signPieces c ls) (signPieces d ls') := by
  unfold signPieces
  rw [← hd.ofText?_eq]
  cases Operator.ofText? [c] with
  | none => exact alike_fault rfl rfl
  | some op => exact .cons (.sign op) h

theorem namePieces_alike {name : Text} (h : Respelling t u)
    (ih : ∀ {after after' : Text}, after.length < t.length → Padded after after' →
      List.Forall₂ Lexeme.Alike (lexemes after) (lexemes after')) :
    List.Forall₂ Lexeme.Alike (namePieces name t) (namePieces name u) := by
  obtain ⟨inside, inside', rfl, rfl, hinside⟩ | ⟨ht, hu⟩ := h.opening_or
  · rw [namePieces, namePieces]
    cases NamedFunction.ofName? name with
    | none => exact alike_fault rfl rfl
    | some f =>
      dsimp only
      obtain ⟨ht, hu⟩ | ⟨⟨arguments, after⟩, ⟨arguments', after'⟩, ht, hu, harguments, hafter⟩ :=
        rel_cases (splitArguments_padded hinside)
      · rw [ht, hu]
        exact alike_fault rfl rfl
      · rw [ht, hu]
        dsimp only at harguments hafter ⊢
        rw [← harguments.length_eq]
        split
        · exact .cons (.call f harguments) (ih (Nat.lt_succ_of_lt (length_splitArguments ht)) hafter)
        · exact alike_fault rfl rfl
  · rw [namePieces_of_ne ht, namePieces_of_ne hu]
    exact alike_fault rfl rfl

theorem lexemes_respelling (h : Respelling t u) : List.Forall₂ Lexeme.Alike (lexemes t) (lexemes u) := by
  -- On the length: behind a literal, and behind a call, the pieces go on further back than at the next character.
  induction hlength : t.length using Nat.strong_induction_on generalizing t u with
  | _ n ih =>
    subst hlength
    have ihPadded {s s' : Text} (hs : s.length < t.length) (hpadded : Padded s s') :
        List.Forall₂ Lexeme.Alike (lexemes s) (lexemes s') := by
      obtain ⟨front, hfront, hrest⟩ := hpadded
      rw [lexemes_blanks hfront]
      exact ih _ hs hrest rfl
    cases h with
    | atEnd hblanks =>
      have hnone : lexemes (u ++ []) = lexemes [] := lexemes_blanks hblanks
      rw [List.append_nil] at hnone
      rw [hnone, lexemes]
      exact .nil
    | @sign c d t u front behind hc hd hfront hopening hbehind h =>
      rw [lexemes_blanks hfront, (standsAlone_of_mem hc).lexemes_eq, (standsAlone_of_mem (hd.mem hc)).lexemes_eq]
      exact signPieces_alike hd (ihPadded (Nat.lt_succ_self _) (.mk behind hbehind h))
    | @cons t u c h =>
      by_cases hliteral : isLiteralChar c
      · obtain ⟨hrun, hafter⟩ := takeLiteral_respelling h (c == 'E')
        rw [lexemes_literal hliteral, lexemes_literal hliteral, ← hrun]
        exact .cons (.literal _) (ih _ (Nat.lt_succ_of_le (length_takeLiteral _ t)) hafter rfl)
      by_cases hname : isLetter c && !isReservedLetter c
      · obtain ⟨hrun, hafter⟩ := name_respelling h
        rw [lexemes_name hliteral hname, lexemes_name hliteral hname, ← hrun]
        have hlength := length_dropWhile_le isLetter t
        exact namePieces_alike hafter fun hshort => ihPadded (by rw [List.length_cons]; omega)
      by_cases hblank : isBlank c
      · rw [lexemes_blank hblank, lexemes_blank hblank]
        exact ih _ (Nat.lt_succ_self _) h rfl
      · rw [lexemes_other hliteral hname hblank, lexemes_other hliteral hname hblank]
        exact signPieces_alike (.itself c) (ih _ (Nat.lt_succ_self _) h rfl)

theorem lexemes_padded (h : Padded t u) : List.Forall₂ Lexeme.Alike (lexemes t) (lexemes u) := by
  obtain ⟨front, hfront, h⟩ := h
  rw [lexemes_blanks hfront]
  exact lexemes_respelling h

end Pieces

/-! ## Tokens -/

section Tokens

variable {text text' : Text} {argument : Text → Except TokenError Expr} {previous : Option Expr}
  {l l' : Lexeme} {ls ls' : List Lexeme} {strict : Bool} {limit : Int}

theorem tokens_alike (hl : l.Alike l') (hargument : ∀ {a a' : Text}, Padded a a' →
      (argument a).mapError TokenError.kindAndCode = (argument a').mapError TokenError.kindAndCode) :
    (l.tokens text argument previous).mapError TokenError.kindAndCode =
      (l'.tokens text' argument previous).mapError TokenError.kindAndCode := by
  cases hl with
  | literal t =>
    rw [Lexeme.tokens, Lexeme.tokens]
    cases literalTokens previous t <;> rfl
  | @call f arguments arguments' h =>
    have htrees : (arguments.mapM argument).mapError TokenError.kindAndCode =
        (arguments'.mapM argument).mapError TokenError.kindAndCode := by
      rw [← mapM_mapError, ← mapM_mapError]
      exact mapM_congr (forall₂_mono h fun a _ a' _ ha => hargument ha)
    rw [Lexeme.tokens, Lexeme.tokens, mapError_bind, mapError_bind, htrees]
  | sign op => rfl
  | fault hkind hcode => exact congrArg Except.error (Prod.ext hkind hcode)

theorem tokensFrom_alike (hls : List.Forall₂ Lexeme.Alike ls ls') (hargument : ∀ {a a' : Text}, Padded a a' →
      (argument a).mapError TokenError.kindAndCode = (argument a').mapError TokenError.kindAndCode) :
    (tokensFrom text argument previous ls).mapError TokenError.kindAndCode =
      (tokensFrom text' argument previous ls').mapError TokenError.kindAndCode := by
  induction hls generalizing previous with
  | nil => rfl
  | cons hl _ ih =>
    rw [tokensFrom, tokensFrom, mapError_bind, mapError_bind, tokens_alike hl hargument]
    refine bind_congr fun ts => ?_
    rw [mapError_bind, mapError_bind, ih]

theorem inOrder_kindAndCode (ts : List Expr) : (inOrder strict text ts).mapError TokenError.kindAndCode =
    (inOrder strict text' ts).mapError TokenError.kindAndCode := by
  unfold inOrder
  split <;> rfl

/-- Level by level: the arguments of respelled calls have the same trees. -/
theorem tokensWithin_padded {t u : Text} (h : Padded t u) (levels : Nat) :
    (tokensWithin strict limit levels t).mapError TokenError.kindAndCode =
      (tokensWithin strict limit levels u).mapError TokenError.kindAndCode := by
  induction levels generalizing t u with
  | zero => rfl
  | succ levels ih =>
    have hargument {a a' : Text} (ha : Padded a a') :
        (treeWithin strict limit levels a).mapError TokenError.kindAndCode =
          (treeWithin strict limit levels a').mapError TokenError.kindAndCode := by
      rw [treeWithin, treeWithin, mapError_bind, mapError_bind, ih ha]
    have hfrom (previous : Option Expr) : (tokensFrom t (treeWithin strict limit levels) previous (lexemes t)).mapError
        TokenError.kindAndCode = (tokensFrom u (treeWithin strict limit levels) previous (lexemes u)).mapError
        TokenError.kindAndCode := tokensFrom_alike (lexemes_padded h) hargument
    rw [tokensWithin_succ, tokensWithin_succ, mapError_bind, mapError_bind, hfrom]
    exact bind_congr fun ts => inOrder_kindAndCode ts

end Tokens

/-! ## Texts -/

/-- **Spelling does not matter.** -/
theorem tokenize_respelling {p q : Text} (h : Respelling p q) (strict : Bool) (limit depth : Int) :
    (tokenize strict limit depth p).mapError TokenError.kindAndCode =
      (tokenize strict limit depth q).mapError TokenError.kindAndCode :=
  tokensWithin_padded h.padded _

/-- Other signs and blanks, inside a call and behind it. -/
theorem tokenize_respelling_call : Respelling "mod(7*x,2)/3".toList "mod( 7⋅x , 2) ÷3".toList ∧
    (tokenize true 1 0 "mod(7*x,2)/3".toList).isOk ∧
    (tokenize true 1 0 "mod(7*x,2)/3".toList).mapError TokenError.kindAndCode =
      (tokenize true 1 0 "mod( 7⋅x , 2) ÷3".toList).mapError TokenError.kindAndCode := by
  have hbehind : Respelling ")/3".toList ") ÷3".toList :=
    .cons ')' (.sign [' '] [] (by decide) .slash rfl nofun rfl (Respelling.refl ['3']))
  have hlist : Respelling "7*x,2)/3".toList "7⋅x , 2) ÷3".toList :=
    .cons '7' (.sign [] [] (by decide) .asterisk rfl nofun rfl
      (.cons 'x' (.sign [' '] [' '] (by decide) (.itself ',') rfl nofun rfl (.cons '2' hbehind))))
  have hcall : Respelling "mod(7*x,2)/3".toList "mod( 7⋅x , 2) ÷3".toList :=
    .cons 'm' (.cons 'o' (.cons 'd' (.sign [] [' '] (by decide) (.itself '(') rfl (fun _ => rfl) rfl hlist)))
  exact ⟨hcall, by decide +kernel, tokenize_respelling hcall true 1 0⟩

/-- In front of an opening parenthesis a blank means something. -/
example : (tokenize true 1 0 "sin( x)".toList).isOk ∧ ¬(tokenize true 1 0 "sin (x)".toList).isOk := by decide +kernel

end Calculator
