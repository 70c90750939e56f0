import Calculator.Graph
import Calculator.Settings.Basic

/-!
# Sessions

What is typed and seen in one window.

* `Session` : the text on display with its cursor, the history, the last result, the graph and the saved ones, and how
  problems are understood. The cursor stands in front of the character of its number.
* `Session.start` : a new session with given settings.
* `insert`, `insertTemplate`, `deleteBack`, `clear`, `moveCursor` : editing; every change of the text is followed by a
  new graph.
* `calculate` : puts the result in the place of the text.
* `saveGraph`, `setAngleMode`, `setGraphing`.
-/

namespace Calculator

set_option autoImplicit false

structure Session where
  display : Text
  cursor : Nat
  history : List Text
  lastResult : Text
  points : List Point
  saved : List (List Point)
  setup : Setup

namespace Session

/-- The button that inserts the place of the previous answer. -/
def answerSign : Text := Operator.answer.symbol

def empty (s : Setup) : Session := ⟨[], 0, [], [], [], [], s⟩

def angleModeOf (value : Json) : Except SettingsFault AngleMode :=
  match AngleMode.ofSetting? value with
  | some m => .ok m
  | none => .error (.angleMode value)

def maxDepthOf (value : Json) : Except SettingsFault Int := value.toInt.mapError .integer

def start (s : Settings) : Except SettingsFault Session := do
  let angleMode ← ((s.get? Settings.angleModeKey).map angleModeOf).getD (.ok .radians)
  let graphing := (s.get? Settings.graphingKey).all Json.holds
  let maxDepth ← ((s.get? Settings.maxDepthKey).map maxDepthOf).getD (.ok defaultMaxDepth)
  return empty ⟨angleMode, graphing, maxDepth⟩

/-! ## Graphs -/

def currentGraph (s : Session) : List Point := standardGraph s.setup s.lastResult s.display

def redraw (s : Session) : Session := { s with points := s.currentGraph }

/-- Keeps the graph beside later ones, unless it is empty; tells whether it did. -/
def saveGraph (s : Session) : Session × Bool :=
  if s.points.isEmpty then (s, false) else ({ s with saved := s.saved ++ [s.points] }, true)

/-! ## Settings -/

def withAngleMode (s : Session) (m : AngleMode) : Session :=
  redraw { s with setup := { s.setup with angleMode := m } }

def setAngleMode (s : Session) (value : Json) : Except SettingsFault Session :=
  return s.withAngleMode (← angleModeOf value)

def setGraphing (s : Session) (graphing : Bool) : Session :=
  redraw { s with setup := { s.setup with graphing := graphing } }

/-- Changes the nesting limit and nothing else. -/
def setMaxDepth (s : Session) (limit : Int) : Session :=
  { s with setup := { s.setup with maxDepth := limit } }

/-! ## Editing -/

def left (s : Session) : Text := s.display.take s.cursor

def right (s : Session) : Text := s.display.drop s.cursor

def moveCursor (s : Session) (offset : Int) : Session :=
  { s with cursor := (max 0 (min (s.display.length : Int) (s.cursor + offset))).toNat }

def insert (s : Session) (t : Text) : Session :=
  redraw { s with display := s.left ++ t ++ s.right, cursor := s.cursor + t.length }

/-- Inserts the text of a button; the cursor goes back into parentheses, and before a comma. -/
def insertTemplate (s : Session) (t : Text) : Session :=
  let s := s.insert t
  let s := if t.contains '(' && t.contains ')' && t != answerSign then s.moveCursor (-1) else s
  if t.contains ',' then s.moveCursor (-1) else s

def deleteBack (s : Session) : Session :=
  if s.cursor = 0 then s
  else redraw { s with display := s.display.take (s.cursor - 1) ++ s.right, cursor := s.cursor - 1 }

/-- Empties the display; if it is empty, the history too. -/
def clear (s : Session) : Session :=
  redraw { s with
    history := if s.display.isEmpty then [] else s.history
    display := []
    cursor := 0 }

/-! ## Calculation -/

def historyEntry (problem result : Text) : Text := problem ++ " = ".toList ++ result

def result (s : Session) : Text := Calculator.calculate s.setup s.lastResult s.display

/-- Replaces the text by its result and records both. -/
def calculate (s : Session) : Session :=
  let r := s.result
  redraw { s with
    history := s.history ++ [historyEntry (substituteAnswer s.lastResult s.display) r]
    lastResult := r
    display := r
    cursor := r.length }

/-- A button or a key: the sign of equality calculates, all else is inserted. -/
def press (s : Session) (t : Text) : Session := if t = ['='] then s.calculate else s.insertTemplate t

end Session

end Calculator
