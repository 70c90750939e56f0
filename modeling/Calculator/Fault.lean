import Calculator.Text.Basic

/-!
# Faults and their reports

* `ParsingFault` : what can be wrong with an expression.
* `category` : the main group of a code, by its first digit.
* `codeMessage?` : the general wording of a code.
* `Report` : a fault as it is shown, with its message, its code and the expression it concerns.
-/

namespace Calculator

set_option autoImplicit false

inductive ParsingFault where
  | unexpectedToken
  | unmatchedParenthesis
  | evaluationError
deriving DecidableEq, Repr

namespace ParsingFault

def all : List ParsingFault := [unexpectedToken, unmatchedParenthesis, evaluationError]

def text : ParsingFault → Text
  | unexpectedToken => "unexpected-token".toList
  | unmatchedParenthesis => "unmatched-parenthesis".toList
  | evaluationError => "evaluation-error".toList

/-- The name of the fault in capitals. -/
def label (k : ParsingFault) : Text := k.text.map fun c => if c = '-' then '_' else c.toUpper

def ofText? (t : Text) : Option ParsingFault := all.find? fun k => k.text = t

theorem ofText?_text (k : ParsingFault) : ofText? k.text = some k := by cases k <;> decide

end ParsingFault

/-- The main group of a code; its first character decides, and codes without a group belong to the last one. -/
def category (code : Text) : Text :=
  match code.head? with
  | some '1' => "Missing Files".toList
  | some '3' => "Calculator Error".toList
  | some '4' => "UI Error".toList
  | some '5' => "Configuration Error".toList
  | _ => "Runtime Error".toList

/-- The general wording of the codes: group, part of the program, number. -/
def codeMessages : List (Text × Text) :=
  [("3003".toList, "Division by Zero".toList),
    ("3008".toList, "Invalid number literal: ".toList),
    ("3009".toList, "Missing ')'. ".toList),
    ("3010".toList, "Missing '(' after function: ".toList),
    ("3011".toList, "Unexpected Token: ".toList),
    ("3012".toList, "Unknown function: ".toList),
    ("3013".toList, "Wrong number of arguments for function: ".toList),
    ("3014".toList, "Syntax check failed: ".toList),
    ("3026".toList, "Number too big.".toList),
    ("3031".toList, "Expression nested too deeply.".toList),
    ("4002".toList, "Calculation already Running!".toList),
    ("4501".toList, "Not all Settings could be saved: ".toList),
    ("5001".toList, "Invalid angle mode: ".toList),
    ("9999".toList, "Unexpected Error: ".toList)]

def codeMessage? (code : Text) : Option Text := codeMessages.lookup code

inductive Origin where
  | general
  | grammar
  | calculation
  | configuration
  | parsing (fault : ParsingFault)
deriving DecidableEq, Repr

structure Report where
  origin : Origin
  message : Text
  code : Text
  equation : Option Text
deriving DecidableEq, Repr

namespace Report

def generalCode : Text := "9999".toList

/-- The code of a fault in an expression that has none of its own. -/
def parsingCode : Text := "3011".toList

/-- A fault in an expression; without a message it takes the wording of its code, or the name of its kind. -/
def parsing (fault : ParsingFault) (message? : Option Text) (code : Text) (equation : Option Text) : Report :=
  let message :=
    match message? with
    | some (c :: cs) => c :: cs
    | _ => (codeMessage? code).getD fault.text
  ⟨.parsing fault, message, code, equation⟩

/-- The short form: of a fault in an expression its kind, else the message. -/
def text (r : Report) : Text :=
  match r.origin with
  | .parsing fault => fault.text
  | _ => r.message

end Report

end Calculator
