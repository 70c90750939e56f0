import Calculator.Proofs.AnswerPieces
import Calculator.Proofs.ArgumentLists

/-!
# Calls in a text

A call begins at an opening parenthesis right behind a name, and is open up to the parenthesis that closes it. So the
calls of a text, and how deep they are nested, can be read off its characters one by one, without cutting arguments out.

* `CallSite`, `calls` : the calls of a text, each with its name and with the number of calls that are open inside it.
* `callDepth` : the most calls nested in one another.
* `callsFrom_splitArguments` : the calls in an argument list are those of its arguments.
* `callsFrom_append` : a text that closes no parenthesis in front of it has the same calls behind open ones, deeper.
* `calls_eq_flatMap` : the calls of a text are those of its pieces, and those in their arguments one deeper.
* `mem_names_of_call`, `names_argument_subset` : their names, and those of the calls in their arguments.
* `callDepth_lt_iff` : so a text nests one deeper than the arguments of its calls.
-/

namespace Calculator

set_option autoImplicit false

open Calculator.Text (isLetter nesting weight)

/-- A call in a text. -/
structure CallSite where
  name : Text
  /-- The number of calls open behind its parenthesis, itself included. -/
  depth : Nat
deriving DecidableEq, Repr

/-! ## Reading calls -/

section Scan

variable (name : Text) (opened : List Bool)

/-- The name that ends with `c` behind a name, or behind none: a name begins with a letter that is neither a literal nor
stands for itself, and goes on with any letters. -/
def nameThrough (c : Char) : Text :=
  if isLetter c && (!name.isEmpty || !isLiteralChar c && !isReservedLetter c) then name ++ [c] else []

/-- The open parentheses behind `c`, the last one first; marked are those of calls. -/
def openedThrough (c : Char) : List Bool :=
  if c = '(' then (!name.isEmpty) :: opened else if c = ')' then opened.tail else opened

def siteAt (c : Char) : List CallSite :=
  if c = '(' ∧ name ≠ [] then [⟨name, opened.count true + 1⟩] else []

/-- The calls of a text behind a name and open parentheses. -/
def callsFrom (name : Text) (opened : List Bool) : Text → List CallSite
  | [] => []
  | c :: rest => siteAt name opened c ++ callsFrom (nameThrough name c) (openedThrough name opened c) rest

end Scan

def calls (t : Text) : List CallSite := callsFrom [] [] t

/-- The most calls of a text that are nested in one another. -/
def callDepth (t : Text) : Nat := ((calls t).map CallSite.depth).foldr max 0

/-- The call inside `outer` more calls. -/
def CallSite.inside (outer : Nat) (site : CallSite) : CallSite := ⟨site.name, site.depth + outer⟩

def Lexeme.calls : Lexeme → List CallSite
  | call f arguments => ⟨f.name, 1⟩ :: arguments.flatMap fun a => (Calculator.calls a).map (.inside 1)
  | _ => []

/-! ## Characters -/

section Characters

variable {name t : Text} {opened own : List Bool} {c : Char}

theorem nameThrough_of_not_letter (name : Text) (hc : isLetter c = false) : nameThrough name c = [] := by
  rw [nameThrough, hc]
  rfl

@[simp] theorem nameThrough_opening (name : Text) : nameThrough name '(' = [] := nameThrough_of_not_letter name rfl

@[simp] theorem nameThrough_closing (name : Text) : nameThrough name ')' = [] := nameThrough_of_not_letter name rfl

@[simp] theorem nameThrough_comma (name : Text) : nameThrough name ',' = [] := nameThrough_of_not_letter name rfl

theorem callsFrom_plain (name : Text) (opened : List Bool) (hopening : c ≠ '(') (hclosing : c ≠ ')') (t : Text) :
    callsFrom name opened (c :: t) = callsFrom (nameThrough name c) opened t := by
  rw [callsFrom, siteAt, if_neg fun h => hopening h.1, openedThrough, if_neg hopening, if_neg hclosing, List.nil_append]

theorem callsFrom_pass (opened : List Bool) (hopening : c ≠ '(') (hclosing : c ≠ ')')
    (hname : isLetter c → isLiteralChar c || isReservedLetter c) (t : Text) :
    callsFrom [] opened (c :: t) = callsFrom [] opened t := by
  have hnone : nameThrough [] c = [] := by
    unfold nameThrough
    cases hletter : isLetter c with
    | false => rfl
    | true =>
      have := hname hletter
      cases hliteral : isLiteralChar c <;> simp_all
  rw [callsFrom_plain [] opened hopening hclosing, hnone]

theorem callsFrom_literal (opened : List Bool) (afterMark : Bool) (t : Text) :
    callsFrom [] opened t = callsFrom [] opened (takeLiteral afterMark t).2 := by
  induction t generalizing afterMark with
  | nil => rfl
  | cons c t ih =>
    rw [takeLiteral]
    split
    · rename_i hliteral
      have hopening : c ≠ '(' := by
        rintro rfl
        cases afterMark <;> exact absurd hliteral (by decide)
      have hclosing : c ≠ ')' := by
        rintro rfl
        cases afterMark <;> exact absurd hliteral (by decide)
      rw [callsFrom_pass opened hopening hclosing ?_ t]
      · exact ih (c == 'E')
      · intro hletter
        rcases Bool.or_eq_true_iff.1 hliteral with hliteral | hminus
        · rw [hliteral]
          rfl
        · obtain rfl := beq_iff_eq.1 (Bool.and_eq_true_iff.1 hminus).1
          exact absurd hletter (by decide)
    · rfl

theorem callsFrom_name (hname : name ≠ []) (opened : List Bool) (t : Text) :
    callsFrom name opened t = callsFrom (name ++ t.takeWhile isLetter) opened (t.dropWhile isLetter) := by
  induction t generalizing name with
  | nil => rw [List.takeWhile_nil, List.dropWhile_nil, callsFrom, callsFrom]
  | cons c t ih =>
    by_cases hletter : isLetter c
    · have hopening : c ≠ '(' := ne_of_class hletter (by decide)
      have hclosing : c ≠ ')' := ne_of_class hletter (by decide)
      have hthrough : nameThrough name c = name ++ [c] := by
        rw [nameThrough, if_pos]
        simp [hletter, hname]
      rw [callsFrom_plain name opened hopening hclosing, hthrough, ih (List.append_ne_nil_of_right_ne_nil _ (by simp)),
        List.takeWhile_cons_of_pos hletter, List.dropWhile_cons_of_pos hletter, List.append_assoc,
        List.singleton_append]
    · rw [List.takeWhile_cons_of_neg hletter, List.dropWhile_cons_of_neg hletter, List.append_nil]

end Characters

/-! ## Argument lists -/

section Arguments

variable {name t : Text} {opened own : List Bool} {c : Char} {inner : ℕ} {r : List Text × Text}

/-- A character that belongs to the first argument. -/
theorem callsFrom_ontoFirst (own' : List Bool)
    (hopened : openedThrough name (own ++ true :: opened) c = own' ++ true :: opened)
    (h : callsFrom (nameThrough name c) (own' ++ true :: opened) t =
      callsFrom (nameThrough name c) (own' ++ true :: opened) (r.1.headD []) ++
        r.1.tail.flatMap (callsFrom [] (true :: opened)) ++ callsFrom [] opened r.2) :
    callsFrom name (own ++ true :: opened) (c :: t) =
      callsFrom name (own ++ true :: opened) ((ontoFirst c r).1.headD []) ++
        (ontoFirst c r).1.tail.flatMap (callsFrom [] (true :: opened)) ++ callsFrom [] opened (ontoFirst c r).2 := by
  rw [ontoFirst_eq, callsFrom, hopened, h]
  simp only [List.headD_cons, List.tail_cons, callsFrom, hopened, List.append_assoc]

/-- The calls in an argument list are those of its arguments; `own` are the parentheses open in the first one. -/
theorem callsFrom_splitArguments (h : splitArguments inner t = some r) (name : Text) (own : List Bool)
    (hown : own.length = inner) : callsFrom name (own ++ true :: opened) t =
      callsFrom name (own ++ true :: opened) (r.1.headD []) ++ r.1.tail.flatMap (callsFrom [] (true :: opened)) ++
        callsFrom [] opened r.2 := by
  fun_induction splitArguments inner t generalizing r name own with
  | case1 => cases h
  | case2 inner rest ih =>
    obtain ⟨s, hs, rfl⟩ := Option.map_eq_some_iff.1 h
    exact callsFrom_ontoFirst ((!name.isEmpty) :: own) rfl (ih hs _ _ (by simp [hown]))
  | case3 rest =>
    obtain rfl := Option.some.inj h
    obtain rfl := List.eq_nil_of_length_eq_zero hown
    rw [List.nil_append, callsFrom, nameThrough_closing]
    rfl
  | case4 inner rest ih =>
    obtain ⟨s, hs, rfl⟩ := Option.map_eq_some_iff.1 h
    obtain ⟨b, own, rfl⟩ := List.exists_cons_of_length_eq_add_one hown
    exact callsFrom_ontoFirst own rfl (ih hs _ _ (Nat.succ.inj hown))
  | case5 rest ih =>
    obtain ⟨s, hs, rfl⟩ := Option.map_eq_some_iff.1 h
    obtain rfl := List.eq_nil_of_length_eq_zero hown
    obtain ⟨u, -, hseparated⟩ := exists_of_splitArguments hs
    obtain ⟨first, others, heq⟩ := hseparated.exists_cons
    have hbehind := ih hs [] [] rfl
    rw [heq] at hbehind ⊢
    rw [List.nil_append] at hbehind
    rw [List.nil_append, callsFrom_plain name _ (by decide) (by decide), nameThrough_comma, hbehind]
    rfl
  | case6 inner c rest hopening hclosing hclosing' hcomma ih =>
    obtain ⟨s, hs, rfl⟩ := Option.map_eq_some_iff.1 h
    refine callsFrom_ontoFirst own ?_ (ih hs _ _ hown)
    rw [openedThrough, if_neg hopening, if_neg (ne_closing hclosing hclosing')]

theorem siteAt_append (name : Text) (own opened : List Bool) (c : Char) :
    siteAt name (own ++ opened) c = (siteAt name own c).map (.inside (opened.count true)) := by
  unfold siteAt
  split
  · rw [List.map_singleton, CallSite.inside, List.count_append, Nat.add_right_comm]
  · rfl

/-- Behind open parentheses that it does not close, a text has the same calls, deeper by the calls among these. -/
theorem callsFrom_append (own : List Bool) (h : ∀ p : Text, p <+: t → 0 ≤ (own.length : Int) + nesting p)
    (name : Text) (opened : List Bool) :
    callsFrom name (own ++ opened) t = (callsFrom name own t).map (.inside (opened.count true)) := by
  induction t generalizing name own with
  | nil => rfl
  | cons c t ih =>
    have hbehind : openedThrough name (own ++ opened) c = openedThrough name own c ++ opened ∧
        ((openedThrough name own c).length : Int) = own.length + weight c := by
      unfold openedThrough weight
      by_cases hopening : c = '('
      · simp [hopening]
      by_cases hclosing : c = ')'
      · -- the parenthesis closes one of the text itself
        subst hclosing
        have hone := h [')'] ⟨t, rfl⟩
        have hnesting : nesting [')'] = -1 := rfl
        have hne : own ≠ [] := by
          rintro rfl
          rw [hnesting] at hone
          simp at hone
        obtain ⟨b, own, rfl⟩ := List.exists_cons_of_ne_nil hne
        simp
      · simp [hopening, hclosing]
    obtain ⟨hopened, hlength⟩ := hbehind
    rw [callsFrom, callsFrom, List.map_append, siteAt_append, hopened, ih]
    intro p hp
    have hcons := h (c :: p) (List.cons_prefix_cons.2 ⟨rfl, hp⟩)
    rw [Text.nesting_cons] at hcons
    omega

/-- The calls in an argument are one deeper than those of its text. -/
theorem callsFrom_argument {a : Text} (h : Text.IsArgument 0 a) (hopened : ∀ b ∈ opened, b = false) :
    callsFrom [] (true :: opened) a = (calls a).map (.inside 1) := by
  have hcount : (true :: opened).count true = 1 := by
    rw [List.count_cons_self, List.count_eq_zero.2 fun hmem => Bool.noConfusion (hopened _ hmem)]
  have hcalls := callsFrom_append [] h.balanced.nonneg [] (true :: opened)
  rwa [hcount] at hcalls

end Arguments

/-! ## Pieces -/

section Pieces

variable {t : Text} {opened : List Bool} {c : Char}

theorem callsFrom_call {rest inside after : Text} {f : NamedFunction} {arguments : List Text}
    (hopened : ∀ b ∈ opened, b = false) (hc : ¬isLiteralChar c) (hname : isLetter c && !isReservedLetter c)
    (hrest : rest.dropWhile isLetter = '(' :: inside) (hf : NamedFunction.ofName? (c :: rest.takeWhile isLetter) = some f)
    (hargs : splitArguments 0 inside = some (arguments, after)) :
    callsFrom [] opened (c :: rest) = (Lexeme.call f arguments).calls ++ callsFrom [] opened after := by
  obtain ⟨hletter, hfree⟩ := Bool.and_eq_true_iff.1 hname
  have hthrough : nameThrough [] c = [c] := by
    rw [nameThrough, if_pos]
    · rfl
    · simp_all
  have hsite : siteAt f.name opened '(' = [⟨f.name, 1⟩] := by
    have hne : f.name ≠ [] := by cases f <;> decide
    have hcount : opened.count true = 0 := List.count_eq_zero.2 fun hmem => Bool.noConfusion (hopened _ hmem)
    rw [siteAt, if_pos ⟨rfl, hne⟩, hcount]
  have hmark : openedThrough f.name opened '(' = true :: opened := by
    have hne : f.name.isEmpty = false := by cases f <;> rfl
    rw [openedThrough, if_pos rfl, hne]
    rfl
  obtain ⟨u, -, hseparated⟩ := exists_of_splitArguments hargs
  have hlist : callsFrom [] (true :: opened) inside = _ := callsFrom_splitArguments hargs [] [] rfl
  obtain ⟨first, others, rfl⟩ := hseparated.exists_cons
  have harguments : (first :: others).flatMap (callsFrom [] (true :: opened)) =
      (first :: others).flatMap fun a => (calls a).map (.inside 1) :=
    List.flatMap_congr fun a ha => callsFrom_argument (hseparated.forall_isArgument a ha) hopened
  rw [callsFrom_plain [] opened (ne_of_class hletter (by decide)) (ne_of_class hletter (by decide)), hthrough,
    callsFrom_name (List.cons_ne_nil _ _), List.singleton_append, ← NamedFunction.name_of_ofName? hf, hrest, callsFrom,
    hsite, hmark, nameThrough_opening]
  rw [hlist, Lexeme.calls, ← harguments]
  rfl

/-- The parentheses outside calls belong to no call. -/
theorem callsFrom_eq_flatMap (h : ∀ k, Lexeme.fault k ∉ lexemes t) : ∀ opened : List Bool, (∀ b ∈ opened, b = false) →
    callsFrom [] opened t = (lexemes t).flatMap Lexeme.calls := by
  fun_induction lexemes t with
  | case1 => exact fun _ _ => rfl
  | case2 c rest hc run ih =>
    intro opened hopened
    have hopening : c ≠ '(' := ne_of_class hc (by decide)
    have hclosing : c ≠ ')' := ne_of_class hc (by decide)
    rw [callsFrom_pass opened hopening hclosing (fun _ => by rw [hc]; rfl), callsFrom_literal opened (c == 'E')]
    exact ih (fun k hk => h k (List.mem_cons_of_mem _ hk)) opened hopened
  | case5 c rest hc hname name inside hrest f hf arguments after hargs harity ih =>
    intro opened hopened
    rw [callsFrom_call hopened hc hname hrest hf hargs, ih (fun k hk => h k (List.mem_cons_of_mem _ hk)) opened hopened]
    rfl
  | case8 c rest hc hname hblank ih =>
    intro opened hopened
    have hopening : c ≠ '(' := ne_of_class hblank (by decide)
    have hclosing : c ≠ ')' := ne_of_class hblank (by decide)
    have hletter : ¬isLetter c := by simp [isLetter_of_isBlank hblank]
    rw [callsFrom_pass opened hopening hclosing fun hl => absurd hl hletter]
    exact ih h opened hopened
  | case9 c rest hc hname hblank op hop ih =>
    intro opened hopened
    have hnone : nameThrough [] c = [] := by
      unfold nameThrough
      simp_all
    have hfalse : ∀ b ∈ openedThrough [] opened c, b = false := by
      unfold openedThrough
      split_ifs
      · exact List.forall_mem_cons.2 ⟨rfl, hopened⟩
      · exact fun b hb => hopened b (List.mem_of_mem_tail hb)
      · exact hopened
    rw [callsFrom, hnone, siteAt, if_neg fun h => h.2 rfl, ih (fun k hk => h k (List.mem_cons_of_mem _ hk)) _ hfalse]
    rfl
  | _ => exact absurd (List.mem_cons_self ..) (h _)

theorem calls_eq_flatMap (h : ∀ k, Lexeme.fault k ∉ lexemes t) : calls t = (lexemes t).flatMap Lexeme.calls :=
  callsFrom_eq_flatMap h [] (List.forall_mem_nil _)

section Names

variable {f : NamedFunction} {arguments : List Text} {a : Text}

theorem mem_names_of_call (h : ∀ k, Lexeme.fault k ∉ lexemes t) (hcall : .call f arguments ∈ lexemes t) :
    f.name ∈ (calls t).map CallSite.name := by
  rw [calls_eq_flatMap h]
  exact List.mem_map.2 ⟨⟨f.name, 1⟩, List.mem_flatMap.2 ⟨_, hcall, List.mem_cons_self ..⟩, rfl⟩

theorem names_argument_subset (h : ∀ k, Lexeme.fault k ∉ lexemes t) (hcall : .call f arguments ∈ lexemes t)
    (ha : a ∈ arguments) : (calls a).map CallSite.name ⊆ (calls t).map CallSite.name := by
  rw [calls_eq_flatMap h]
  intro name hname
  obtain ⟨site, hsite, rfl⟩ := List.mem_map.1 hname
  have hinside : site.inside 1 ∈ (Lexeme.call f arguments).calls :=
    List.mem_cons_of_mem _ (List.mem_flatMap.2 ⟨a, ha, List.mem_map_of_mem hsite⟩)
  exact List.mem_map.2 ⟨site.inside 1, List.mem_flatMap.2 ⟨_, hcall, hinside⟩, rfl⟩

end Names

end Pieces

/-! ## Depth -/

section Depth

variable {t : Text} {n : ℕ}

theorem foldr_max_lt_iff {l : List ℕ} (hn : 0 < n) : l.foldr max 0 < n ↔ ∀ m ∈ l, m < n := by
  induction l with
  | nil => simpa using hn
  | cons a l ih => simp [ih]

theorem callDepth_lt_iff_sites (hn : 0 < n) : callDepth t < n ↔ ∀ site ∈ calls t, site.depth < n := by
  rw [callDepth, foldr_max_lt_iff hn, List.forall_mem_map]

/-- A text nests one deeper than the arguments of its calls. -/
theorem callDepth_lt_iff (h : ∀ k, Lexeme.fault k ∉ lexemes t) : callDepth t < n + 1 ↔
    ∀ f arguments, .call f arguments ∈ lexemes t → 0 < n ∧ ∀ a ∈ arguments, callDepth a < n := by
  have hsites (f : NamedFunction) (arguments : List Text) : (∀ site ∈ (Lexeme.call f arguments).calls, site.depth < n + 1) ↔
      0 < n ∧ ∀ a ∈ arguments, callDepth a < n := by
    rw [Lexeme.calls, List.forall_mem_cons, Nat.lt_add_left_iff_pos]
    refine and_congr_right fun hn => ?_
    simp only [List.forall_mem_flatMap, List.forall_mem_map, callDepth_lt_iff_sites hn]
    simp [CallSite.inside]
  rw [callDepth_lt_iff_sites n.succ_pos, calls_eq_flatMap h]
  simp only [List.mem_flatMap]
  constructor
  · intro hall f arguments hcall
    exact (hsites f arguments).1 fun site hsite => hall site ⟨_, hcall, hsite⟩
  · rintro hall site ⟨l, hl, hsite⟩
    cases l with
    | call f arguments => exact (hsites f arguments).2 (hall f arguments hl) site hsite
    | _ => exact nomatch hsite

end Depth

end Calculator
