import Calculator.Notice
import Calculator.Settings.Store
import Calculator.Window.Style

/-!
# The dialog of the settings

* `Control` : the control of one setting: a check box, a choice of the angle mode, or a field for a whole number.
* `Dialog` : the settings that were loaded, their controls in order, and how the dialog ended.
* `Dialog.opened` : the dialog as it opens.
* `Dialog.confirm`, `Dialog.cancel` : its two buttons. A field that is not understood keeps the dialog open.
* `Visit` : a dialog together with the files, under what its user does.
-/

namespace Calculator

set_option autoImplicit false

open Calculator.Number (IntReadError readInt)
open Calculator.Text (decimalInt)

/-! ## Fields -/

def Settings.leastInput : Int := 2

/-- Why the text of a field is not taken. -/
inductive InputFault where
  | unreadable (error : IntReadError)
  | tooSmall (value : Int)

def InputFault.message : InputFault → Text
  | unreadable error => error.message
  | tooSmall n => '\'' :: decimalInt n ++ "' is too small. Minimum is ".toList ++ decimalInt Settings.leastInput ++ ['.']

/-- The number in a field; `none` if the field is blank. -/
def readInput (t : Text) : Except InputFault (Option Int) :=
  match Text.strip t with
  | [] => .ok none
  | c :: cs =>
    match readInt (c :: cs) with
    | .error e => .error (.unreadable e)
    | .ok n => if n < Settings.leastInput then .error (.tooSmall n) else .ok (some n)

/-! ## Controls -/

inductive Control where
  | checkBox (caption : Json) (checked : Bool)
  | choice (caption : Json) (current : AngleMode)
  /-- A field, with the present value behind its text. -/
  | input (caption placeholder text : Text)

namespace Control

def modes : List AngleMode := [.radians, .degrees]

def modeOf? (t : Text) : Option AngleMode := modes.find? fun m => m.name = t

/-- The caption of a field names the least number. -/
def inputCaption (caption : Text) : Text := caption ++ " (min. ".toList ++ decimalInt Settings.leastInput ++ "):".toList

/-- The control of a setting, by its value; some values have none. -/
def ofSetting (key caption : Json) : (value : Json) → Except SettingsFault (Option Control)
  | .bool b => .ok (some (.checkBox caption b))
  | value =>
    if sameKey key (.text Settings.angleModeKey) then
      let current := match value with
        | .text t => (modeOf? t).getD .radians
        | _ => .radians
      .ok (some (.choice caption current))
    else
      match value, caption with
      | .int n, .text c => .ok (some (.input (inputCaption c) (decimalInt n) []))
      | .int _, _ => .error .wrongType
      | _, _ => .ok none

/-- The value that a control stands for; `none` if it leaves the setting as it is. -/
def value : Control → Except InputFault (Option Json)
  | checkBox _ checked => .ok (some (.bool checked))
  | choice _ current => .ok (some (.text current.name))
  | input _ _ t => (readInput t).map (·.map .int)

def set : Json → Control → Control
  | .bool b, checkBox caption _ => checkBox caption b
  | .text t, choice caption current => choice caption ((modeOf? t).getD current)
  | .text t, input caption placeholder _ => input caption placeholder t
  | _, c => c

def label? : Control → Option Json
  | checkBox _ _ => none
  | choice caption _ => some caption
  | input caption _ _ => some (.text caption)

end Control

/-! ## The dialog -/

inductive DialogEnd where
  | accepted
  | rejected
deriving DecidableEq, Repr

structure Dialog where
  /-- The settings that will be written. -/
  table : Settings
  /-- The controls by key, in order. -/
  controls : List (Json × Control)
  /-- How often settings were saved. -/
  saves : Nat
  /-- How the dialog ended; `none` while it is open. -/
  ended : Option DialogEnd

namespace Dialog

def title : Text := "Calculator Settings".toList

def size : Nat × Nat := (300, 200)

def captionOf (captions : Fields) (key : Json) : Json :=
  match key with
  | .text k => (Fields.get? k captions).getD key
  | _ => key

def controlsOf (captions : Fields) : Settings → Except SettingsFault (List (Json × Control))
  | [] => .ok []
  | (key, value) :: rest => do
    let control? ← Control.ofSetting key (captionOf captions key) value
    let others ← controlsOf captions rest
    return match control? with
      | some c => (key, c) :: others
      | none => others

def opened (s : Store) : Except SettingsFault Dialog := do
  let table ← s.loadSettings
  match ← s.loadCaption Store.allKey with
  | .object captions => return ⟨table, ← controlsOf captions table, 0, none⟩
  | _ => .error .noFields

def style (d : Dialog) : Text := Style.dialog d.table.isDark

def set (key : Text) (value : Json) (d : Dialog) : Dialog :=
  { d with controls := d.controls.map fun e => if sameKey e.1 (.text key) then (e.1, e.2.set value) else e }

/-- Puts the values of the controls into a table, up to the first that is not understood. -/
def collect : List (Json × Control) → Settings → Settings × Option (Json × InputFault)
  | [], table => (table, none)
  | (key, control) :: rest, table =>
    match control.value with
    | .ok (some v) => collect rest (table.put key v)
    | .ok none => collect rest table
    | .error e => (table, some (key, e))

def inputNotice (key : Json) (fault : InputFault) : Notice where
  title := "Invalid Input:".toList
  text := "Error in input for '".toList ++ key.describe ++ "':\n\n".toList ++ fault.message ++
    "\n\nPlease correct your input.".toList
  details := none
  style := none

def saveCode : Text := "4501".toList

def saveNotice : Notice where
  title := "Error".toList
  text := "Error ".toList ++ saveCode ++ ": ".toList ++ (codeMessage? saveCode).getD [] ++ "config.json".toList
  details := none
  style := none

/-- Saves what the controls say and ends the dialog. A control that is not understood, or a file that cannot be written,
keeps it open with a message; the table keeps what was put into it. -/
def confirm (s : Store) (d : Dialog) : Store × Dialog × List Notice :=
  match collect d.controls d.table with
  | (table, some (key, fault)) => (s, { d with table := table }, [inputNotice key fault])
  | (table, none) =>
    match s.save table.toJson with
    | (s, .object []) => (s, { d with table := table }, [saveNotice])
    | (s, _) => (s, { d with table := table, saves := d.saves + 1, ended := some .accepted }, [])

def cancel (d : Dialog) : Dialog := { d with ended := some .rejected }

/-! ## A visit -/

inductive Action where
  | set (key : Text) (value : Json)
  | confirm
  | cancel
  /-- Elsewhere, a directory is put in the place of the file of the settings. -/
  | block
  /-- Elsewhere, that directory is removed. -/
  | unblock

end Dialog

/-- A dialog and the files, as its user goes on. -/
structure Visit where
  store : Store
  dialog : Dialog
  /-- After each press of a button: how the dialog ended, and how often settings were saved. -/
  answers : List (Option DialogEnd × Nat)
  notices : List Notice

namespace Visit

def start (s : Store) (d : Dialog) : Visit := ⟨s, d, [], []⟩

def noted (v : Visit) : Visit := { v with answers := v.answers ++ [(v.dialog.ended, v.dialog.saves)] }

/-- The buttons of a dialog that has ended do nothing. -/
def act (v : Visit) : Dialog.Action → Visit
  | .set key value => { v with dialog := v.dialog.set key value }
  | .confirm =>
    if v.dialog.ended.isSome then v.noted
    else
      let (s, d, notices) := v.dialog.confirm v.store
      noted { v with store := s, dialog := d, notices := v.notices ++ notices }
  | .cancel => if v.dialog.ended.isSome then v.noted else noted { v with dialog := v.dialog.cancel }
  | .block => { v with store := { v.store with config := .directory } }
  | .unblock =>
    match v.store.config with
    | .directory => { v with store := { v.store with config := .absent } }
    | _ => v

def run (v : Visit) (actions : List Dialog.Action) : Visit := actions.foldl act v

end Visit

end Calculator
