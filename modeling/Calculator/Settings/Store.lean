import Calculator.Settings.Basic
import Calculator.Json.Reader
import Calculator.Json.Writer

/-!
# The files of the settings

One file holds the settings, another one their captions.

* `Entry`, `Store` : what stands in the place of a file, and the two places.
* `Store.loadValue`, `Store.loadCaption` : a value of a file by its key, or all of it.
* `Store.loadSettings` : the settings, the defaults standing for what is not there.
* `Store.save` : writes a value, or nothing at all.

A file that is missing or holds no JSON counts as an empty object.
-/

namespace Calculator

set_option autoImplicit false

/-- What stands in the place of a file. -/
inductive Entry where
  | absent
  | file (content : Text)
  | directory
deriving DecidableEq, Repr

structure Store where
  config : Entry
  captions : Entry
deriving DecidableEq, Repr

namespace Entry

def content? : Entry → Option Text
  | file content => some content
  | _ => none

/-- The value that a file holds, if it is there and holds one. -/
def load : Entry → Except SettingsFault (Option Json)
  | absent => .ok none
  | directory => .error .isDirectory
  | file content =>
    match Json.read content with
    | .ok v => .ok (some v)
    | .error .malformed => .ok none
    | .error .intTooLong => .error .unreadable

end Entry

namespace Store

/-- The key that means all of a file. -/
def allKey : Text := "all".toList

/-- The value of a key in an object; zero if there is none. -/
def fieldOf (key : Text) : Json → Except SettingsFault Json
  | .object fields => .ok ((Fields.get? key fields).getD (.int 0))
  | _ => .error .noFields

/-- A value of a file by its key; without a value in the file an empty object for every key. -/
def lookUp (key : Text) (e : Entry) : Except SettingsFault Json := do
  match ← e.load with
  | none => return .object []
  | some v => if key = allKey then return v else fieldOf key v

def loadValue (s : Store) (key : Text) : Except SettingsFault Json := lookUp key s.config

def loadCaption (s : Store) (key : Text) : Except SettingsFault Json := lookUp key s.captions

def loadSettings (s : Store) : Except SettingsFault Settings := do
  return Settings.defaults.merge (← Settings.pairs? (← s.loadValue allKey))

/-- Writes a value to the file of the settings and gives it back; an empty object if it cannot be written. -/
def save (s : Store) (v : Json) : Store × Json :=
  match Json.write? v, s.config with
  | some _, .directory => (s, .object [])
  | some content, _ => (⟨.file content, s.captions⟩, v)
  | none, _ => (s, .object [])

def remove (s : Store) : Except SettingsFault Store :=
  match s.config with
  | .file _ => .ok ⟨.absent, s.captions⟩
  | .absent => .error .notFound
  | .directory => .error .isDirectory

def makeDirectory (s : Store) : Except SettingsFault Store :=
  match s.config with
  | .absent => .ok ⟨.directory, s.captions⟩
  | _ => .error .alreadyExists

end Store

end Calculator
