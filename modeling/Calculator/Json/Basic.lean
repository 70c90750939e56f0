import Calculator.Number.Shortest
import Calculator.Number.Elementary
import Calculator.Number.Numeral

/-!
# JSON values

The values of settings: whole numbers are told from doubles, and the fields of an object keep their order.

* `Json` : the values.
* `Fields.get?`, `Fields.put`, `Fields.merge` : fields by key; putting a key that is there keeps its place.
* `Json.holds` : whether a value counts as true.
* `Json.isOne`, `Json.isZero` : numeric equality, for which truth values are numbers.
* `Json.toInt` : the whole number a value stands for.
* `Json.describe` : the value in words.
-/

namespace Calculator

set_option autoImplicit false

inductive Json where
  | null
  | bool (value : Bool)
  | int (value : Int)
  | float (value : Float)
  | text (value : Text)
  | array (items : List Json)
  | object (fields : List (Text × Json))
deriving Inhabited

abbrev Fields := List (Text × Json)

namespace Fields

def get? (key : Text) (fields : Fields) : Option Json := fields.lookup key

/-- Gives `key` the value `value`: in its place if the key is there, else at the end. -/
def put (key : Text) (value : Json) : Fields → Fields
  | [] => [(key, value)]
  | (k, v) :: rest => if k = key then (k, value) :: rest else (k, v) :: put key value rest

def merge (fields others : Fields) : Fields := others.foldl (fun acc f => put f.1 f.2 acc) fields

end Fields

namespace Json

open Calculator.Text (decimalInt quoted)
open Calculator.Number (shortestText readInt toWhole ArithmeticFault IntReadError)

/-- Empty values, zero, `false` and `null` do not hold, all others do. -/
def holds : Json → Bool
  | null => false
  | bool b => b
  | int n => n != 0
  | float x => !(x == 0.0)
  | text t => !t.isEmpty
  | array items => !items.isEmpty
  | object fields => !fields.isEmpty

def isZero : Json → Bool
  | bool b => !b
  | int n => n == 0
  | float x => x == 0.0
  | _ => false

def isOne : Json → Bool
  | bool b => b
  | int n => n == 1
  | float x => x == 1.0
  | _ => false

/-- Why a value stands for no whole number. -/
inductive IntFault where
  | arithmetic (fault : ArithmeticFault)
  | unreadable (error : IntReadError)
  /-- The value is no number and no text. -/
  | wrongType
deriving DecidableEq, Repr

/-- The whole number that a value stands for: doubles lose their fractional part, texts are read. -/
def toInt : Json → Except IntFault Int
  | bool b => .ok (if b then 1 else 0)
  | int n => .ok n
  | float x => (toWhole x).mapError .arithmetic
  | text t => (readInt t).mapError .unreadable
  | null | array _ | object _ => .error .wrongType

mutual

def describeInner : Json → Text
  | null => "None".toList
  | bool b => if b then "True".toList else "False".toList
  | int n => decimalInt n
  | float x => shortestText x
  | text t => quoted t
  | array items => '[' :: describeItems items ++ [']']
  | object fields => '\x7b' :: describeFields fields ++ ['\x7d']

def describeItems : List Json → Text
  | [] => []
  | [v] => describeInner v
  | v :: vs => describeInner v ++ ", ".toList ++ describeItems vs

def describeFields : List (Text × Json) → Text
  | [] => []
  | [(k, v)] => quoted k ++ ": ".toList ++ describeInner v
  | (k, v) :: fs => quoted k ++ ": ".toList ++ describeInner v ++ ", ".toList ++ describeFields fs

end

/-- A value as shown in a message: a text is shown as it is. -/
def describe : Json → Text
  | text t => t
  | v => describeInner v

def fields? : Json → Option Fields
  | object fields => some fields
  | _ => none

end Json

end Calculator
