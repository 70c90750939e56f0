import Calculator.Operator
import Calculator.Function.Basic
import Calculator.Fault
import Calculator.Text.Classes
import Calculator.Token.Arguments

/-!
# Lexemes

An expression falls into literals, calls and signs; blanks separate literals and mean nothing else.

* `LexicalFault` : what can be wrong with a piece of text, with its kind, code and message.
* `argumentsAt` : the argument list that opens at a place of a text, and the place behind it.
* `Lexeme` : the pieces; a call keeps the texts of its arguments.
* `takeLiteral` : the longest run of digits, points, exponent marks and minus signs behind a mark.
* `lexemes` : the pieces of a text, up to the first fault.
-/

namespace Calculator

set_option autoImplicit false

open Calculator.Text (isLetter isBlank decimal decimalInt)

/-! ## Faults -/

inductive LexicalFault where
  | badLiteral (literal : Text)
  /-- The list that begins with this text is not closed. -/
  | unclosedArguments (list : Text)
  | notCalled (name : Text)
  | unknownCharacter (c : Char)
  | unknownFunction (name : Text)
  | wrongArity (f : NamedFunction) (given : Nat)
  /-- The tokens of this text are in a wrong order. -/
  | misplaced (fault : ParsingFault)
  | tooDeep (limit : Int)
deriving DecidableEq, Repr

namespace LexicalFault

def kind : LexicalFault → ParsingFault
  | unclosedArguments _ => .unmatchedParenthesis
  | misplaced fault => fault
  | _ => .unexpectedToken

def code : LexicalFault → Text
  | badLiteral _ => "3008".toList
  | unclosedArguments _ => "3009".toList
  | notCalled _ => "3010".toList
  | unknownCharacter _ => "3011".toList
  | unknownFunction _ => "3012".toList
  | wrongArity .. => "3013".toList
  | misplaced _ => "3014".toList
  | tooDeep _ => "3031".toList

def message (t : Text) : LexicalFault → Text
  | badLiteral literal => "Invalid number literal: ".toList ++ literal
  | unclosedArguments list => "Missing ')' after function arguments: ".toList ++ list
  | notCalled name => "Missing '(' after function: ".toList ++ name
  | unknownCharacter c => "Unexpected Token: ".toList ++ [c]
  | unknownFunction name => "Unknown function: ".toList ++ name
  | wrongArity f given =>
    f.name ++ " expects ".toList ++ decimal f.arity ++ " argument(s), got ".toList ++ decimal given
  | misplaced _ => "Syntax check failed: ".toList ++ t
  | tooDeep limit => "Function calls nested deeper than ".toList ++ decimalInt limit ++ " levels.".toList

end LexicalFault

/-- A fault in the text `text`, which is the whole input or an argument of a call. -/
structure TokenError where
  fault : LexicalFault
  text : Text
deriving DecidableEq, Repr

namespace TokenError

def kind (e : TokenError) : ParsingFault := e.fault.kind

def code (e : TokenError) : Text := e.fault.code

def report (e : TokenError) : Report := .parsing e.kind (some (e.fault.message e.text)) e.code (some e.text)

end TokenError

/-- The arguments of the list that opens at the place `opening` of a text, and the place behind the list. -/
def argumentsAt (text : Text) (opening : Nat) : Except TokenError (List Text × Nat) :=
  match splitArguments 0 (text.drop (opening + 1)) with
  | some (arguments, after) => .ok (arguments, text.length - after.length)
  | none => .error ⟨.unclosedArguments (text.drop opening), text⟩

/-! ## Pieces of a text -/

inductive Lexeme where
  | literal (text : Text)
  | call (f : NamedFunction) (arguments : List Text)
  | sign (op : Operator)
  /-- What cannot be read; nothing follows it. -/
  | fault (fault : LexicalFault)
deriving DecidableEq, Repr

/-- The characters that begin and continue a literal. -/
def isLiteralChar (c : Char) : Bool := c.isDigit || c == '.' || c == 'E'

/-- The letters that stand for themselves and begin no name. -/
def isReservedLetter (c : Char) : Bool := c == 'e' || c == 'π' || c == 'x'

/-- The literal at the beginning of a text, and what follows it; a minus belongs to it only behind the exponent mark. -/
def takeLiteral : (afterMark : Bool) → Text → Text × Text
  | _, [] => ([], [])
  | afterMark, c :: rest =>
    if isLiteralChar c || (c == '-' && afterMark) then
      let (literal, after) := takeLiteral (c == 'E') rest
      (c :: literal, after)
    else ([], c :: rest)

theorem length_takeLiteral (afterMark : Bool) (t : Text) : (takeLiteral afterMark t).2.length ≤ t.length := by
  fun_induction takeLiteral afterMark t <;> simp_all
  omega

theorem length_dropWhile_le {α : Type} (p : α → Bool) (l : List α) : (l.dropWhile p).length ≤ l.length :=
  (List.dropWhile_suffix p).length_le

def lexemes : Text → List Lexeme
  | [] => []
  | c :: rest =>
    if isLiteralChar c then
      let run := takeLiteral (c == 'E') rest
      .literal (c :: run.1) :: lexemes run.2
    else if isLetter c && !isReservedLetter c then
      let name := c :: rest.takeWhile isLetter
      match _h : rest.dropWhile isLetter with
      | '(' :: inside =>
        match NamedFunction.ofName? name with
        | none => [.fault (.unknownFunction name)]
        | some f =>
          match _h : splitArguments 0 inside with
          | none => [.fault (.unclosedArguments ('(' :: inside))]
          | some (arguments, after) =>
            if arguments.length = f.arity then .call f arguments :: lexemes after
            else [.fault (.wrongArity f arguments.length)]
      | _ => [.fault (.notCalled name)]
    else if isBlank c then lexemes rest
    else
      match Operator.ofText? [c] with
      | some op => .sign op :: lexemes rest
      | none => [.fault (.unknownCharacter c)]
termination_by t => t.length
decreasing_by
  · have := length_takeLiteral (c == 'E') rest
    simp; omega
  · have h₁ := length_dropWhile_le isLetter rest
    have h₂ := length_splitArguments ‹splitArguments 0 inside = _›
    rw [‹List.dropWhile isLetter rest = _›] at h₁
    simp at *; omega
  · simp
  · simp

end Calculator
