import Mathlib.Data.List.Chain
import Calculator.Proofs.Lexemes
import Calculator.Proofs.ReadBack

/-!
# The pieces of a text with an answer in it

Where every `ans` stands in parentheses, nothing of what is put in its place runs into the text around it. So a text with
an answer in it falls into the pieces of the text with the free variable, and in each place of the variable into those of
the answer.

* `Text.fill`, `Lexeme.fill` : the answer in every place of the free variable.
* `AnswersEnclosed`, `Enclosed` : every `ans`, and every free variable, stands in parentheses.
* `fill_substituteAnswer`, `enclosed_substituteAnswer` : the answer and the free variable stand in the same places.
* `takeLiteral_fill`, `name_fill`, `splitArguments_fill` : literals, names and argument lists of the filled text.
* `Text.IsFilling`, `lexemes_fill` : the pieces of the filled text.
* `isChain_lexemes` : the piece in front of a free variable is an opening parenthesis.
* `isInfix_argument` : arguments are parts of the text; `enclosed_argument` : the variables stand in parentheses there, too.
-/

namespace Calculator

set_option autoImplicit false

open Calculator.Text (isLetter isBlank)

/-- The text with the answer in every place of the free variable. -/
def Text.fill (answer t : Text) : Text := t.flatMap fun c => if c = 'x' then answer else [c]

def Lexeme.fill (answer : Text) : Lexeme → List Lexeme
  | sign .freeVariable => lexemes answer
  | call f arguments => [call f (arguments.map (Text.fill answer))]
  | fault (.unclosedArguments list) => [fault (.unclosedArguments (Text.fill answer list))]
  | l => [l]

/-- Every `ans` stands in parentheses of its own. -/
def AnswersEnclosed (t : Text) : Prop :=
  ∀ before behind : Text, t = before ++ "ans".toList ++ behind → before.getLast? = some '(' ∧ behind.head? = some ')'

/-- An `ans` begins at one of the places of the text. -/
theorem answersEnclosed_iff {t : Text} : AnswersEnclosed t ↔ ∀ i < t.length, (t.drop i).take 3 = "ans".toList →
    (t.take i).getLast? = some '(' ∧ (t.drop (i + 3)).head? = some ')' := by
  constructor
  · intro h i _ hans
    refine h (t.take i) (t.drop (i + 3)) ?_
    rw [← hans, List.append_assoc, ← List.drop_drop, List.take_append_drop, List.take_append_drop]
  · rintro h before behind rfl
    have hplace := h before.length (by simp)
    simpa [← List.drop_drop] using hplace

instance (t : Text) : Decidable (AnswersEnclosed t) := decidable_of_iff _ answersEnclosed_iff.symm

/-- A free variable has an opening parenthesis in front of it and a closing one behind it. -/
def EnclosedAt (c d : Char) : Prop := (d = 'x' → c = '(') ∧ (c = 'x' → d = ')')

/-- Every free variable stands in parentheses of its own, which the text may leave out at its ends. -/
def Enclosed (t : Text) : Prop := t.IsChain EnclosedAt

/-! ## Places -/

section Places

variable {answer t rest : Text} {c : Char}

@[simp] theorem fill_nil : Text.fill answer [] = [] := rfl

@[simp] theorem fill_variable : Text.fill answer ('x' :: t) = answer ++ Text.fill answer t := rfl

theorem fill_cons (hc : c ≠ 'x') : Text.fill answer (c :: t) = c :: Text.fill answer t := by
  rw [Text.fill, List.flatMap_cons, if_neg hc]
  rfl

theorem fill_substituteAnswer (h : 'x' ∉ t) : Text.fill answer (substituteAnswer ['x'] t) = substituteAnswer answer t := by
  fun_induction substituteAnswer answer t with
  | case1 rest ih =>
    have hrest : 'x' ∉ rest := fun hx => h (List.mem_append_right ['a', 'n', 's'] hx)
    rw [substituteAnswer, List.singleton_append, fill_variable, ih hrest]
  | case2 c rest hans ih =>
    obtain ⟨hc, hrest⟩ := not_or.1 (mt List.mem_cons.2 h)
    rw [substituteAnswer, fill_cons (Ne.symm hc), ih hrest]
    exact hans
  | case3 => rfl

/-- Behind the character `c`: the last one of the text that is replaced so far, or the variable that it was replaced by. -/
theorem isChain_substituteAnswer {before : Text} (hans : AnswersEnclosed (before ++ t)) (hx : 'x' ∉ t)
    (hvariable : c = 'x' → t.head? = some ')') (hlast : c ≠ 'x' → before.getLast? = some c) :
    (c :: substituteAnswer ['x'] t).IsChain EnclosedAt := by
  fun_induction substituteAnswer ['x'] t generalizing before c with
  | case1 rest ih =>
    obtain ⟨hbefore, hbehind⟩ := hans before rest (by simp)
    have hc : c ≠ 'x' := fun h => absurd (Option.some.inj (hvariable h)) (by decide)
    obtain rfl : c = '(' := Option.some.inj ((hlast hc).symm.trans hbefore)
    refine List.isChain_cons_cons.2 ⟨⟨fun _ => rfl, fun h => absurd h (by decide)⟩, ?_⟩
    have hans' : AnswersEnclosed ((before ++ ['a', 'n', 's']) ++ rest) := by rwa [List.append_assoc]
    exact ih hans' (fun h => hx (List.mem_append_right ['a', 'n', 's'] h)) (fun _ => hbehind) fun h => absurd rfl h
  | case2 d rest _ ih =>
    obtain ⟨hd, hrest⟩ := not_or.1 (mt List.mem_cons.2 hx)
    refine List.isChain_cons_cons.2 ⟨⟨fun h => absurd h.symm hd, fun h => Option.some.inj (hvariable h)⟩, ?_⟩
    have hans' : AnswersEnclosed ((before ++ [d]) ++ rest) := by rwa [List.append_assoc]
    exact ih hans' hrest (fun h => absurd h.symm hd) fun _ => List.getLast?_concat ..
  | case3 => exact List.isChain_singleton c

theorem enclosed_substituteAnswer (hans : AnswersEnclosed t) (hx : 'x' ∉ t) : Enclosed (substituteAnswer ['x'] t) := by
  unfold Enclosed
  unfold substituteAnswer
  split
  · rename_i rest
    exact nomatch (hans [] rest rfl).1
  · rename_i c rest _
    obtain ⟨hc, hrest⟩ := not_or.1 (mt List.mem_cons.2 hx)
    have hans' : AnswersEnclosed ([c] ++ rest) := hans
    exact isChain_substituteAnswer hans' hrest (fun h => absurd h.symm hc) fun _ => rfl
  · exact List.isChain_nil

theorem Enclosed.part {u : Text} (h : Enclosed t) (hu : u <:+: t) : Enclosed u := List.IsChain.infix h hu

theorem Enclosed.tail (h : Enclosed (c :: t)) : Enclosed t := List.IsChain.tail h

theorem Enclosed.head?_ne (h : Enclosed (c :: t)) (hc : c ≠ '(') : t.head? ≠ some 'x' := fun ht =>
  hc (((List.isChain_cons.1 h).1 _ ht).1 rfl)

end Places

/-! ## Runs -/

section Runs

variable {t : Text} (answer : Text)

/-- A literal stops in front of the parenthesis before a free variable. -/
theorem takeLiteral_fill (h : Enclosed t) (hhead : t.head? ≠ some 'x') (afterMark : Bool) :
    takeLiteral afterMark (Text.fill answer t) =
        ((takeLiteral afterMark t).1, Text.fill answer (takeLiteral afterMark t).2) ∧
      (takeLiteral afterMark t).2.head? ≠ some 'x' := by
  induction t generalizing afterMark with
  | nil => exact ⟨rfl, hhead⟩
  | cons c t ih =>
    have hc : c ≠ 'x' := fun hc => hhead (congrArg some hc)
    rw [fill_cons hc, takeLiteral, takeLiteral]
    split
    · rename_i hliteral
      have hopening : c ≠ '(' := by
        rintro rfl
        cases afterMark <;> exact absurd hliteral (by decide)
      obtain ⟨htake, hafter⟩ := ih h.tail (h.head?_ne hopening) (c == 'E')
      exact ⟨by rw [htake], hafter⟩
    · exact ⟨by rw [fill_cons hc], hhead⟩

theorem name_fill (h : Enclosed t) (hhead : t.head? ≠ some 'x') :
    (Text.fill answer t).takeWhile isLetter = t.takeWhile isLetter ∧
      (Text.fill answer t).dropWhile isLetter = Text.fill answer (t.dropWhile isLetter) := by
  induction t with
  | nil => exact ⟨rfl, rfl⟩
  | cons c t ih =>
    have hc : c ≠ 'x' := fun hc => hhead (congrArg some hc)
    rw [fill_cons hc]
    by_cases hletter : isLetter c
    · have hopening : c ≠ '(' := by
        rintro rfl
        exact absurd hletter (by decide)
      obtain ⟨htake, hdrop⟩ := ih h.tail (h.head?_ne hopening)
      simp only [List.takeWhile_cons_of_pos hletter, List.dropWhile_cons_of_pos hletter]
      exact ⟨by rw [htake], hdrop⟩
    · simp only [List.takeWhile_cons_of_neg hletter, List.dropWhile_cons_of_neg hletter]
      exact ⟨trivial, (fill_cons hc).symm⟩

end Runs

/-! ## Argument lists -/

section Arguments

variable {answer t : Text} {inner : ℕ} {c : Char} {r : List Text × Text}

def fillList (answer : Text) (r : List Text × Text) : List Text × Text :=
  (r.1.map (Text.fill answer), Text.fill answer r.2)

theorem fill_headD (args : List Text) : (args.map (Text.fill answer)).headD [] = Text.fill answer (args.headD []) := by
  cases args <;> rfl

theorem fillList_ontoFirst (hc : c ≠ 'x') (r : List Text × Text) :
    fillList answer (ontoFirst c r) = ontoFirst c (fillList answer r) := by
  simp only [ontoFirst_eq, fillList, List.map_cons, List.map_tail, fill_headD, fill_cons hc]

theorem fillList_variable (hne : answer ≠ []) (r : List Text × Text) :
    fillList answer (ontoFirst 'x' r) = answer.foldr ontoFirst (fillList answer r) := by
  rw [foldr_ontoFirst hne]
  simp only [ontoFirst_eq, fillList, List.map_cons, List.map_tail, fill_headD, fill_variable]

/-- An answer without parentheses and commas leaves an argument list as it is. -/
theorem splitArguments_fill (hne : answer ≠ []) (hplain : ∀ c ∈ answer, c ∉ listSigns) :
    splitArguments inner (Text.fill answer t) = (splitArguments inner t).map (fillList answer) := by
  have honto (c : Char) (hc : c ≠ 'x') (r? : Option (List Text × Text)) :
      (r?.map (fillList answer)).map (ontoFirst c) = (r?.map (ontoFirst c)).map (fillList answer) := by
    cases r? with
    | none => rfl
    | some r => exact congrArg some (fillList_ontoFirst hc r).symm
  fun_induction splitArguments inner t with
  | case1 => rfl
  | case2 inner rest ih => rw [fill_cons (by decide), splitArguments, ih, honto _ (by decide)]
  | case3 rest => rfl
  | case4 inner rest ih => rw [fill_cons (by decide), splitArguments, ih, honto _ (by decide)]
  | case5 rest ih =>
    rw [fill_cons (by decide), splitArguments, ih, Option.map_map, Option.map_map]
    rfl
  | case6 inner c rest hopening hclosing hclosing' hcomma ih =>
    by_cases hc : c = 'x'
    · subst hc
      rw [fill_variable, splitArguments_plain hplain, ih, Option.map_map, Option.map_map]
      exact congrArg (Option.map · _) (funext fun r => (fillList_variable hne r).symm)
    · rw [fill_cons hc, splitArguments, ih, honto c hc]
      all_goals assumption

theorem forall_mem_of_headD {P : Text → Prop} {args : List Text} (hfirst : P (args.headD []))
    (hothers : ∀ a ∈ args.tail, P a) : ∀ a ∈ args, P a := by
  cases args with
  | nil => exact List.forall_mem_nil P
  | cons b args => exact List.forall_mem_cons.2 ⟨hfirst, hothers⟩

theorem isInfix_of_splitArguments (h : splitArguments inner t = some r) : ∀ a ∈ r.1, a <:+: t := by
  have hparts : r.1.headD [] <+: t ∧ ∀ a ∈ r.1.tail, a <:+: t := by
    fun_induction splitArguments inner t generalizing r with
    | case1 => cases h
    | case2 inner rest ih | case4 inner rest ih | case6 inner c rest _ _ _ _ ih =>
      obtain ⟨s, hs, rfl⟩ := Option.map_eq_some_iff.1 h
      obtain ⟨hfirst, hothers⟩ := ih hs
      rw [ontoFirst_eq]
      exact ⟨List.cons_prefix_cons.2 ⟨rfl, hfirst⟩, fun a ha => List.infix_cons (hothers a ha)⟩
    | case3 rest =>
      obtain rfl := Option.some.inj h
      exact ⟨List.nil_prefix, List.forall_mem_nil _⟩
    | case5 rest ih =>
      obtain ⟨s, hs, rfl⟩ := Option.map_eq_some_iff.1 h
      obtain ⟨hfirst, hothers⟩ := ih hs
      exact ⟨List.nil_prefix, fun a ha => List.infix_cons (forall_mem_of_headD hfirst.isInfix hothers a ha)⟩
  exact forall_mem_of_headD hparts.1.isInfix hparts.2

end Arguments

/-! ## Pieces -/

section Pieces

variable {answer t rest : Text} {c : Char}

/-- The answer can stand in any place: it is a text without faults that ends no argument. -/
structure Text.IsFilling (answer : Text) : Prop where
  ne_nil : answer ≠ []
  plain : ∀ c ∈ answer, c ∉ listSigns
  faultless : ∀ k, Lexeme.fault k ∉ lexemes answer

theorem lexemes_fill_name (h : Enclosed (c :: rest)) (hc : ¬isLiteralChar c)
    (hname : isLetter c && !isReservedLetter c) : lexemes (Text.fill answer (c :: rest)) =
      namePieces (c :: rest.takeWhile isLetter) (Text.fill answer (rest.dropWhile isLetter)) := by
  obtain ⟨hletter, hfree⟩ := Bool.and_eq_true_iff.1 hname
  have hx : c ≠ 'x' := ne_of_class (p := fun c => !isReservedLetter c) hfree (by decide)
  have hopening : c ≠ '(' := ne_of_class hletter (by decide)
  obtain ⟨htake, hdrop⟩ := name_fill answer h.tail (h.head?_ne hopening)
  rw [fill_cons hx, lexemes_name hc hname, htake, hdrop]

theorem eq_variable (h : Operator.ofText? [c] = some .freeVariable) : c = 'x' :=
  (List.singleton_inj.1 (symbol_of_ofText? h (by decide) (by decide))).symm

theorem lexemes_fill (hfilling : answer.IsFilling) (h : Enclosed t) :
    lexemes (Text.fill answer t) = (lexemes t).flatMap (Lexeme.fill answer) := by
  fun_induction lexemes t with
  | case1 => rw [fill_nil, lexemes]; rfl
  | case2 c rest hc run ih =>
    have hx : c ≠ 'x' := ne_of_class hc (by decide)
    have hopening : c ≠ '(' := ne_of_class hc (by decide)
    have htake := (takeLiteral_fill answer h.tail (h.head?_ne hopening) (c == 'E')).1
    rw [fill_cons hx, lexemes_literal hc, htake]
    exact congrArg _ (ih (h.tail.part (takeLiteral_suffix _ rest).isInfix))
  | case3 c rest hc hname name inside hrest hf =>
    rw [lexemes_fill_name h hc hname, hrest, fill_cons (by decide), namePieces, hf]
    rfl
  | case4 c rest hc hname name inside hrest f hf hsplit =>
    rw [lexemes_fill_name h hc hname, hrest, fill_cons (by decide), namePieces, hf]
    dsimp only
    rw [splitArguments_fill hfilling.ne_nil hfilling.plain, hsplit]
    rfl
  | case5 c rest hc hname name inside hrest f hf arguments after hsplit harity ih =>
    have hafter : after <:+ c :: rest := (splitArguments_suffix hsplit).trans (inside_suffix hrest)
    rw [lexemes_fill_name h hc hname, hrest, fill_cons (by decide), namePieces, hf]
    dsimp only
    rw [splitArguments_fill hfilling.ne_nil hfilling.plain, hsplit]
    simp only [Option.map_some, fillList, List.length_map, harity, if_pos]
    exact congrArg _ (ih (h.part hafter.isInfix))
  | case6 c rest hc hname name inside hrest f hf arguments after hsplit harity =>
    rw [lexemes_fill_name h hc hname, hrest, fill_cons (by decide), namePieces, hf]
    dsimp only
    rw [splitArguments_fill hfilling.ne_nil hfilling.plain, hsplit]
    simp only [Option.map_some, fillList, List.length_map, if_neg harity]
    rfl
  | case7 c rest hc hname name hrest =>
    rw [lexemes_fill_name h hc hname]
    cases hdrop : rest.dropWhile isLetter with
    | nil => rfl
    | cons d u =>
      have hd : isLetter d = false := List.head?_dropWhile_not isLetter rest |> fun hnot => by
        rw [hdrop] at hnot
        exact hnot
      have hx : d ≠ 'x' := by
        rintro rfl
        exact absurd hd (by decide)
      rw [fill_cons hx, namePieces]
      · rfl
      · rintro inside heq
        exact hrest u (hdrop.trans (by rw [(List.cons.inj heq).1]))
  | case8 c rest hc hname hblank ih =>
    have hx : c ≠ 'x' := ne_of_class hblank (by decide)
    rw [fill_cons hx, lexemes_blank hblank]
    exact ih h.tail
  | case9 c rest hc hname hblank op hop ih =>
    by_cases hx : c = 'x'
    · subst hx
      obtain rfl := Option.some.inj (hop.symm.trans rfl : some op = some .freeVariable)
      have hhead : ∀ d ∈ (Text.fill answer rest).head?, d = ')' := by
        intro d hd
        cases rest with
        | nil => cases hd
        | cons e rest =>
          obtain rfl : e = ')' := ((List.isChain_cons.1 h).1 e rfl).2 rfl
          rw [fill_cons (by decide)] at hd
          exact (Option.some.inj hd).symm
      rw [fill_variable, lexemes_append hfilling.faultless, ih h.tail]
      · rfl
      · intro d hd
        rw [hhead d hd]
        rfl
      · intro hminus
        exact absurd (hhead _ hminus) (by decide)
    · have hsign : op ≠ .freeVariable := fun hop' => hx (eq_variable (hop' ▸ hop))
      rw [fill_cons hx, lexemes_sign hc hname hblank hop, ih h.tail, List.flatMap_cons, Lexeme.fill]
      · rfl
      all_goals simp [hsign]
  | case10 c rest hc hname hblank hop =>
    have hx : c ≠ 'x' := by
      rintro rfl
      cases hop
    rw [fill_cons hx, lexemes, if_neg hc, if_neg hname, if_neg hblank, hop]
    rfl

theorem head?_of_variable (h : Enclosed t) (hl : (lexemes t).head? = some (.sign .freeVariable)) :
    t.head? = some 'x' := by
  fun_induction lexemes t with
  | case8 c rest hc hname hblank ih => exact absurd (ih h.tail hl) (h.head?_ne (ne_of_class hblank (by decide)))
  | case9 c rest hc hname hblank op hop ih =>
    obtain rfl := Lexeme.sign.inj (Option.some.inj hl)
    rw [eq_variable hop]
    rfl
  | _ => cases hl

/-- The piece in front of a free variable is an opening parenthesis. -/
def OpenedAt (l m : Lexeme) : Prop := m = .sign .freeVariable → l = .sign .opening

theorem openedAt_of_head?_ne {l : Lexeme} (h : Enclosed rest) (hhead : rest.head? ≠ some 'x') :
    ∀ m ∈ (lexemes rest).head?, OpenedAt l m := by
  rintro m hm rfl
  exact absurd (head?_of_variable h hm) hhead

theorem isChain_lexemes (h : Enclosed t) : (lexemes t).IsChain OpenedAt := by
  fun_induction lexemes t with
  | case2 c rest hc run ih =>
    have hopening : c ≠ '(' := ne_of_class hc (by decide)
    have hrun := h.tail.part (takeLiteral_suffix (c == 'E') rest).isInfix
    have hhead := (takeLiteral_fill [] h.tail (h.head?_ne hopening) (c == 'E')).2
    exact (ih hrun).cons (openedAt_of_head?_ne hrun hhead)
  | case5 c rest hc hname name inside hrest f hf arguments after hsplit harity ih =>
    have hclosing : Enclosed (')' :: after) := h.part ((closing_suffix hsplit).trans (inside_suffix hrest)).isInfix
    exact (ih hclosing.tail).cons (openedAt_of_head?_ne hclosing.tail (hclosing.head?_ne (by decide)))
  | case8 c rest hc hname hblank ih => exact ih h.tail
  | case9 c rest hc hname hblank op hop ih =>
    refine (ih h.tail).cons fun m hm hvariable => ?_
    subst hvariable
    obtain rfl := ((List.isChain_cons.1 h).1 'x' (head?_of_variable h.tail hm)).1 rfl
    obtain rfl := Option.some.inj (hop.symm.trans rfl : some op = some .opening)
    rfl
  | case1 => exact List.isChain_nil
  | _ => exact List.isChain_singleton _

theorem isInfix_argument {f : NamedFunction} {arguments : List Text} {a : Text} (hcall : .call f arguments ∈ lexemes t)
    (ha : a ∈ arguments) : a <:+: t := by
  fun_induction lexemes t with
  | case8 c rest hc hname hblank ih => exact List.infix_cons (ih hcall)
  | case2 c rest hc run ih =>
    rcases List.mem_cons.1 hcall with hcall | hcall
    · cases hcall
    · exact List.infix_cons ((ih hcall).trans (takeLiteral_suffix (c == 'E') rest).isInfix)
  | case9 c rest hc hname hblank op hop ih =>
    rcases List.mem_cons.1 hcall with hcall | hcall
    · cases hcall
    · exact List.infix_cons (ih hcall)
  | case5 c rest hc hname name inside hrest g hf args after hsplit harity ih =>
    have hinside : inside <:+: c :: rest := (inside_suffix hrest).isInfix
    rcases List.mem_cons.1 hcall with hcall | hcall
    · obtain ⟨rfl, rfl⟩ := Lexeme.call.inj hcall
      exact (isInfix_of_splitArguments hsplit a ha).trans hinside
    · exact ((ih hcall).trans (splitArguments_suffix hsplit).isInfix).trans hinside
  | _ => simp at hcall

theorem enclosed_argument {f : NamedFunction} {arguments : List Text} (h : Enclosed t)
    (hcall : .call f arguments ∈ lexemes t) : ∀ a ∈ arguments, Enclosed a :=
  fun _ ha => h.part (isInfix_argument hcall ha)

end Pieces

end Calculator
