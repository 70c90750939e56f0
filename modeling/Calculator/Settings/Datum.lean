import Calculator.Settings.Store

/-!
# Values that are given to be saved

Whatever is to be saved need not be a value that JSON can hold.

* `Datum` : the values. `Datum.ofJson` : those of JSON among them.
* `Datum.toJson?`, `Datum.serialize?` : the value that is written for it, and its text; none if it cannot be written.
* `Store.saveDatum` : writes a value to the file of the settings, or nothing at all.
-/

namespace Calculator

set_option autoImplicit false

open Calculator.Text (decimal)
open Calculator.Number (maxIntDigits)

inductive Datum where
  | null
  | bool (value : Bool)
  | int (value : Int)
  | float (value : Float)
  | text (value : Text)
  | list (items : List Datum)
  /-- Keys are of any kind. -/
  | dict (entries : List (Datum × Datum))
  /-- A value of any other kind, or one that is inside itself. -/
  | other
deriving Inhabited

namespace Datum

/-! ## Values of JSON -/

mutual

def ofJson : Json → Datum
  | .null => null
  | .bool b => bool b
  | .int n => int n
  | .float x => float x
  | .text t => text t
  | .array items => list (ofItems items)
  | .object fields => dict (ofFields fields)

def ofItems : List Json → List Datum
  | [] => []
  | v :: vs => ofJson v :: ofItems vs

def ofFields : Fields → List (Datum × Datum)
  | [] => []
  | (k, v) :: fs => (text k, ofJson v) :: ofFields fs

end

/-! ## What is written -/

/-- The value may be a key of an object. -/
def isScalar : Datum → Bool
  | list _ | dict _ | other => false
  | _ => true

mutual

/-- The value as it is written: keys are texts. -/
def toJson? : Datum → Option Json
  | null => some .null
  | bool b => some (.bool b)
  | int n => if (decimal n.natAbs).length ≤ maxIntDigits then some (.int n) else none
  | float x => some (.float x)
  | text t => some (.text t)
  | list items => (toItems? items).map .array
  | dict entries => (toFields? entries).map .object
  | other => none

def toItems? : List Datum → Option (List Json)
  | [] => some []
  | d :: ds => do return (← toJson? d) :: (← toItems? ds)

def toFields? : List (Datum × Datum) → Option Fields
  | [] => some []
  | (k, d) :: es => do
    let key ← if k.isScalar then toJson? k else none
    return (Settings.keyText key, ← toJson? d) :: (← toFields? es)

end

def serialize? (d : Datum) : Option Text := d.toJson?.map Json.indented

end Datum

/-- The file in this place can be opened to be written, if that is allowed. -/
def Entry.opens (allowed : Bool) : Entry → Bool
  | directory => false
  | _ => allowed

/-- Writes a value to the file of the settings and gives it back; an empty object if it cannot be written. -/
def Store.saveDatum (allowed : Bool) (s : Store) (d : Datum) : Store × Datum :=
  match d.serialize? with
  | some content => if s.config.opens allowed then (⟨.file content, s.captions⟩, d) else (s, .dict [])
  | none => (s, .dict [])

end Calculator
