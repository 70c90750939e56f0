import Calculator.Proofs.FreshGraph
import Mathlib.Data.List.DropRight

/-!
# What a run leaves on record

Of all that was done to a session three things are kept: the history of the calculations, the last result, and the graphs
that were saved. They are exact logs, to be read off the steps of the run.

* `Session.run`, `Session.steps` : a run of operations, and its steps, each with the session that it found.
* `Step.calculates`, `Step.wipes`, `Step.saves` : the steps that change a log; `Step.entry`, `Step.result`, `Step.graph` : what
  they record.
* `Logs`, `Session.logs`, `Logs.after` : the three logs, and what a step does to them.
* `logs_after`, `logs_run` : an operation, and any run.
* `history_foldl`, `lastResult_foldl`, `saved_foldl` : the logs of a list of steps.
* `logs_of_run` : the logs of a new session.
-/

namespace Calculator

set_option autoImplicit false

namespace Session

/-! ## Runs -/

def run (s : Session) (os : List Operation) : Session := os.foldl after s

structure Step where
  found : Session
  operation : Operation

def steps (s : Session) : List Operation → List Step
  | [] => []
  | o :: os => ⟨s, o⟩ :: (s.after o).steps os

def Operation.calculates : Operation → Bool
  | .calculate => true
  | .press t => t = ['=']
  | _ => false

namespace Step

def calculates (st : Step) : Bool := st.operation.calculates

def wipes (st : Step) : Bool :=
  match st.operation with
  | .clear => st.found.display.isEmpty
  | _ => false

def saves (st : Step) : Bool :=
  match st.operation with
  | .saveGraph => !st.found.points.isEmpty
  | _ => false

/-- The result of the text that the step found, in which `ans` means the last result of then. -/
def result (st : Step) : Text := Calculator.calculate st.found.setup st.found.lastResult st.found.display

/-- The text that the step found, `ans` replaced in it, and its result. -/
def entry (st : Step) : Text := historyEntry (substituteAnswer st.found.lastResult st.found.display) st.result

def graph (st : Step) : List Point := st.found.points

end Step

/-- The steps since the last one that wiped the history. -/
def sinceWiped (sts : List Step) : List Step := sts.rtakeWhile fun st => !st.wipes

/-- The results of the calculations among some steps, in order. -/
def results (sts : List Step) : List Text := (sts.filter Step.calculates).map Step.result

theorem calculates_of_wipes {st : Step} (h : st.wipes) : st.calculates = false := by
  obtain ⟨s, o⟩ := st
  cases o with
  | clear => rfl
  | _ => exact nomatch h

/-! ## Logs -/

/-- What a session keeps of what was done to it. -/
structure Logs where
  history : List Text
  lastResult : Text
  saved : List (List Point)

def logs (s : Session) : Logs := ⟨s.history, s.lastResult, s.saved⟩

def Logs.empty : Logs := ⟨[], [], []⟩

def Logs.after (l : Logs) (st : Step) : Logs where
  history := if st.calculates then l.history ++ [st.entry] else if st.wipes then [] else l.history
  lastResult := if st.calculates then st.result else l.lastResult
  saved := if st.saves then l.saved ++ [st.graph] else l.saved

theorem Logs.after_of_not {st : Step} (hcalculates : st.calculates = false) (hwipes : st.wipes = false)
    (hsaves : st.saves = false) (l : Logs) : l.after st = l := by
  rw [Logs.after, hcalculates, hwipes, hsaves]
  rfl

theorem logs_insertTemplate (s : Session) (t : Text) : (s.insertTemplate t).logs = s.logs := by
  unfold insertTemplate
  simp only
  split
  · split <;> rfl
  · split <;> rfl

/-- **One operation**, also one that fails. -/
theorem logs_after (s : Session) (o : Operation) : (s.after o).logs = s.logs.after ⟨s, o⟩ := by
  cases o with
  | calculate => rfl
  | press t =>
    by_cases ht : t = ['=']
    · subst ht
      rfl
    · have hcalculates : Step.calculates ⟨s, .press t⟩ = false := decide_eq_false ht
      rw [Logs.after_of_not hcalculates rfl rfl]
      show (s.press t).logs = s.logs
      rw [press, if_neg ht, logs_insertTemplate]
  | clear =>
    cases hdisplay : s.display <;>
      simp [Session.after, attempt, clear, redraw, logs, Logs.after, Step.calculates, Operation.calculates, Step.wipes,
        Step.saves, hdisplay]
  | saveGraph =>
    show s.saveGraph.1.logs = _
    unfold saveGraph
    cases hpoints : s.points <;>
      simp [logs, Logs.after, Step.calculates, Operation.calculates, Step.wipes, Step.saves, Step.graph, hpoints]
  | insertTemplate t =>
    rw [Logs.after_of_not rfl rfl rfl]
    exact logs_insertTemplate s t
  | deleteBack =>
    rw [Logs.after_of_not rfl rfl rfl]
    show s.deleteBack.logs = s.logs
    unfold deleteBack
    split <;> rfl
  | setAngleMode value =>
    rw [Logs.after_of_not rfl rfl rfl]
    unfold Session.after
    split
    · rename_i t ht
      obtain ⟨mode, -, ht⟩ := bind_eq_ok.1 ht
      exact Except.ok.inj ht ▸ rfl
    · rfl
  | _ => rfl

theorem logs_run (s : Session) (os : List Operation) : (s.run os).logs = (s.steps os).foldl Logs.after s.logs := by
  induction os generalizing s with
  | nil => rfl
  | cons o os ih =>
    show ((s.after o).run os).logs = _
    rw [ih, logs_after]
    rfl

/-! ## The logs of a list of steps -/

section Fold

variable (sts : List Step)

theorem history_foldl :
    (sts.foldl Logs.after .empty).history = ((sinceWiped sts).filter Step.calculates).map Step.entry := by
  induction sts using List.reverseRecOn with
  | nil => rfl
  | append_singleton sts st ih =>
    rw [List.foldl_append, sinceWiped, List.rtakeWhile_concat]
    show (if st.calculates then _ else if st.wipes then [] else _) = _
    rw [ih]
    cases hwipes : st.wipes with
    | true => simp [calculates_of_wipes hwipes]
    | false => cases hcalculates : st.calculates <;> simp [sinceWiped, hcalculates]

theorem lastResult_foldl : (sts.foldl Logs.after .empty).lastResult = (results sts).getLastD [] := by
  induction sts using List.reverseRecOn with
  | nil => rfl
  | append_singleton sts st ih =>
    rw [List.foldl_append, results, List.filter_append, List.map_append]
    show (if st.calculates then st.result else _) = _
    rw [ih]
    cases hcalculates : st.calculates <;> simp [results, hcalculates]

theorem saved_foldl : (sts.foldl Logs.after .empty).saved = (sts.filter Step.saves).map Step.graph := by
  induction sts using List.reverseRecOn with
  | nil => rfl
  | append_singleton sts st ih =>
    rw [List.foldl_append, List.filter_append, List.map_append]
    show (if st.saves then _ ++ [st.graph] else _) = _
    rw [ih]
    cases hsaves : st.saves <;> simp [hsaves]

end Fold

/-! ## The logs of a run -/

theorem logs_of_start {settings : Settings} {s : Session} (h : Session.start settings = .ok s) : s.logs = .empty := by
  obtain ⟨mode, -, h⟩ := bind_eq_ok.1 h
  obtain ⟨limit, -, h⟩ := bind_eq_ok.1 h
  obtain rfl := Except.ok.inj h
  rfl

theorem after_calculates {o : Operation} (h : o.calculates) (s : Session) : s.after o = s.calculate := by
  cases o with
  | calculate => rfl
  | press t =>
    obtain rfl : t = ['='] := of_decide_eq_true h
    rfl
  | _ => exact nomatch h

/-- **The logs are exact.** After any operations on a new session, the history has one entry for each calculation since the
last time that an empty display was cleared, the last result is that of the last calculation, and the saved graphs are those
that were current, and not empty, when they were saved, all in order. A further calculation puts its result, in which `ans`
means the last one, on display, with the cursor at its end, and records it; and but for calculations, clearings of an empty
display, and savings of a graph with points nothing changes a log. -/
theorem logs_of_run {settings : Settings} {s : Session} (h : Session.start settings = .ok s) (os : List Operation) :
    (s.run os).history = ((sinceWiped (s.steps os)).filter Step.calculates).map Step.entry ∧
    (s.run os).lastResult = (results (s.steps os)).getLastD [] ∧
    (s.run os).saved = ((s.steps os).filter Step.saves).map Step.graph ∧
    ∀ o, (o.calculates →
        let answer := (results (s.steps os)).getLastD []
        let result := Calculator.calculate (s.run os).setup answer (s.run os).display
        ((s.run os).after o).display = result ∧ ((s.run os).after o).cursor = result.length ∧
        ((s.run os).after o).lastResult = result ∧
        ((s.run os).after o).history = (s.run os).history ++
          [substituteAnswer answer (s.run os).display ++ " = ".toList ++ result]) ∧
      (o.calculates = false → ((s.run os).after o).lastResult = (s.run os).lastResult) ∧
      (o.calculates = false → Step.wipes ⟨s.run os, o⟩ = false → ((s.run os).after o).history = (s.run os).history) ∧
      (Step.saves ⟨s.run os, o⟩ = false → ((s.run os).after o).saved = (s.run os).saved) := by
  have hlogs := logs_run s os
  rw [logs_of_start h] at hlogs
  have hlast : (s.run os).lastResult = (results (s.steps os)).getLastD [] :=
    (congrArg Logs.lastResult hlogs).trans (lastResult_foldl _)
  refine ⟨(congrArg Logs.history hlogs).trans (history_foldl _), hlast, (congrArg Logs.saved hlogs).trans (saved_foldl _),
    fun o => ?_⟩
  have hafter := logs_after (s.run os) o
  refine ⟨fun ho => ?_, fun ho => ?_, fun ho hwipes => ?_, fun hsaves => ?_⟩
  · rw [← hlast, after_calculates ho]
    exact ⟨rfl, rfl, rfl, rfl⟩
  · have hresult := congrArg Logs.lastResult hafter
    rwa [Logs.after, Step.calculates, ho] at hresult
  · have hhistory := congrArg Logs.history hafter
    rwa [Logs.after, Step.calculates, ho, hwipes] at hhistory
  · have hsaved := congrArg Logs.saved hafter
    rwa [Logs.after, hsaves] at hsaved

/-- A sum is calculated and then doubled, after a calculation of which the history was wiped. -/
def sumDoubled : List Operation :=
  [.insert "7".toList, .press ['='], .clear, .clear, .insert "2+3".toList, .calculate, .clear, .insertTemplate answerSign,
    .insert "⋅2".toList, .press ['=']]

theorem logs_of_sumDoubled : ∃ s, Session.start [] = .ok s ∧
    (s.run sumDoubled).history = ["2+3 = 5".toList, "(5)⋅2 = 10".toList] ∧ (s.run sumDoubled).lastResult = "10".toList := by
  obtain ⟨s, hs⟩ : ∃ s, Session.start [] = .ok s := ⟨_, rfl⟩
  obtain ⟨hhistory, hlast, -, -⟩ := logs_of_run hs sumDoubled
  refine ⟨s, hs, hhistory.trans ?_, hlast.trans ?_⟩
  · obtain rfl := Except.ok.inj hs
    decide +kernel
  · obtain rfl := Except.ok.inj hs
    decide +kernel

end Session

end Calculator
