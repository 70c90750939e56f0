import Calculator.Json.Writer
import Calculator.Function.Angle
import Calculator.Fault

/-!
# Settings

A table from keys to values, in order. The keys of settings that were read from an object are texts; a table made of
pairs may have other scalar keys.

* `Settings` : the table, with `get?`, `put` and `merge`.
* `Settings.defaults` : the settings of a new installation.
* `Settings.pairs?` : the entries that a value stands for when it overrides others.
* `AngleMode.ofSetting?` : the angle mode that a value names.
* `SettingsFault` : what can be wrong with settings and the file that holds them.
-/

namespace Calculator

set_option autoImplicit false

open Calculator.Number (toWhole isWhole)

/-! ## Faults -/

inductive SettingsFault where
  /-- The value names no angle mode. -/
  | angleMode (value : Json)
  /-- The value stands for no whole number. -/
  | integer (fault : Json.IntFault)
  /-- The value has no fields. -/
  | noFields
  /-- The value, or an element of it, is no sequence of entries, or a key is no scalar. -/
  | wrongType
  /-- An element does not have a key and a value. -/
  | wrongLength
  /-- A whole number in the file is too long to be read. -/
  | unreadable
  | isDirectory
  | notFound
  | alreadyExists

def angleModeReport (value : Json) : Report :=
  ⟨.configuration, "Invalid angle mode: ".toList ++ value.describe, "5001".toList, none⟩

/-- The angle mode that a value names: by its name, or by its place among the two. -/
def AngleMode.ofSetting? (value : Json) : Option AngleMode :=
  let isText (t : Text) : Bool :=
    match value with
    | .text s => s == t
    | _ => false
  if value.isZero || isText ['0'] then some .radians
  else if value.isOne || isText ['1'] then some .degrees
  else
    let name := Text.lowerAscii (Text.strip value.describe)
    if name = AngleMode.radians.name then some .radians
    else if name = AngleMode.degrees.name then some .degrees
    else none

/-! ## The table -/

abbrev Settings := List (Json × Json)

/-- The value as a number, truth values included. -/
def Json.integerPart? : Json → Option Int
  | bool b => some (if b then 1 else 0)
  | int n => some n
  | float x => if isWhole x then (toWhole x).toOption else none
  | _ => none

/-- The keys are the same: equal texts, equal numbers, or both `null`. What is no number is one key. -/
def sameKey : Json → Json → Bool
  | .text s, .text t => s == t
  | .null, .null => true
  | .float x, .float y => x == y || x.isNaN && y.isNaN
  | a, b => a.integerPart?.isSome && a.integerPart? == b.integerPart?

namespace Settings

def ofFields (fields : Fields) : Settings := fields.map fun f => (.text f.1, f.2)

def get? (key : Text) (s : Settings) : Option Json := (s.find? fun e => sameKey e.1 (.text key)).map Prod.snd

/-- Gives `key` the value `value`: in its place if the key is there, else at the end. -/
def put (key value : Json) : Settings → Settings
  | [] => [(key, value)]
  | (k, v) :: rest => if sameKey k key then (k, value) :: rest else (k, v) :: put key value rest

def merge (s others : Settings) : Settings := others.foldl (fun acc e => acc.put e.1 e.2) s

def isScalar : Json → Bool
  | .array _ | .object _ => false
  | _ => true

def pair? : Json → Except SettingsFault (Json × Json)
  | .array [k, v] => if isScalar k then .ok (k, v) else .error .wrongType
  | .text [k, v] => .ok (.text [k], .text [v])
  | .object [(k, _), (v, _)] => .ok (.text k, .text v)
  | .array _ | .text _ | .object _ => .error .wrongLength
  | _ => .error .wrongType

/-- The entries that a value stands for: the fields of an object, or the pairs of an array. -/
def pairs? : Json → Except SettingsFault Settings
  | .object fields => .ok (ofFields fields)
  | .array items => items.mapM pair?
  | .text [] => .ok []
  | .text _ => .error .wrongLength
  | _ => .error .wrongType

/-- The key as it is written in an object. -/
def keyText : Json → Text
  | .text t => t
  | .null => "null".toList
  | .bool b => if b then "true".toList else "false".toList
  | .float x => Json.writtenFloat x
  | k => k.describe

def toJson (s : Settings) : Json := .object (s.map fun e => (keyText e.1, e.2))

/-! ## Keys and defaults -/

def angleModeKey : Text := "angle_mode".toList

def graphingKey : Text := "graphing".toList

def darkModeKey : Text := "darkmode".toList

def maxDepthKey : Text := "max_nesting_depth".toList

def debugKey : Text := "debug".toList

/-- The settings where a file says nothing else. -/
def defaults : Settings :=
  ofFields [(angleModeKey, .text AngleMode.radians.name), (graphingKey, .bool true), (darkModeKey, .bool false),
    (maxDepthKey, .int 64), (debugKey, .bool false)]

/-- Dark colours are wanted: the value is true, or the number one. -/
def isDark (s : Settings) : Bool := (s.get? darkModeKey).any Json.isOne

end Settings

end Calculator
