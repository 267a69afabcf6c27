/-
This file shows that the error handler of an engine hears of every error once.
The errors that it is called with are, in order, the errors that calls of the
engine are answered with; for a call that succeeds it is not called.

Nothing that an engine does on the way to an answer calls the handler, as long
as no host function calls back into the engine. Only a report does, and every
call that may end in an error ends in one report at most.
-/

import Reckon.Proofs.Engine.Failures

namespace Reckon

variable {Memory Result Other : Type}

/-! ### The errors that were handled -/

/-- The error that the error handler is called with. -/
def Event.handled? : Event → Option EngineError
  | .handled error => some error
  | _ => none

theorem Event.IsOfEvaluation.handled? {event : Event} (isOfEvaluation : event.IsOfEvaluation) :
    event.handled? = none := by
  cases event with
  | visited | called => rfl
  | _ => exact isOfEvaluation.elim

namespace EngineState

/-- The errors that the error handler was called with, the earliest first. -/
def handledErrors (state : EngineState Memory) : List EngineError :=
  (state.journal.filterMap Event.handled?).reverse

variable {state : EngineState Memory} {event : Event}

theorem handledErrors_congr {state' : EngineState Memory}
    (journal : state'.journal = state.journal) :
    state'.handledErrors = state.handledErrors := by
  unfold handledErrors
  rw [journal]

theorem handledErrors_note (state : EngineState Memory) (other : event.handled? = none) :
    (state.note event).handledErrors = state.handledErrors := by
  unfold handledErrors EngineState.note
  rw [List.filterMap_cons_none other]

theorem handledErrors_log (state : EngineState Memory) (configuration : Configuration)
    (message : String) (arguments : List Value) :
    (state.log configuration message arguments).handledErrors = state.handledErrors := by
  unfold EngineState.log
  split
  · exact state.handledErrors_note rfl
  · rfl

theorem handledErrors_note_log (state : EngineState Memory) (other : event.handled? = none)
    (configuration : Configuration) (message : String) (arguments : List Value) :
    ((state.note event).log configuration message arguments).handledErrors =
      state.handledErrors :=
  (handledErrors_log _ configuration message arguments).trans (state.handledErrors_note other)

theorem handledErrors_treeOf (state : EngineState Memory) (configuration : Configuration)
    (text : String) :
    (state.treeOf configuration text).2.handledErrors = state.handledErrors := by
  have noted : ∀ found message, ((state.note (.treeLookup found text)).log configuration message
      [.text text]).handledErrors = state.handledErrors :=
    fun _ message => state.handledErrors_note_log rfl configuration message _
  unfold EngineState.treeOf
  cases state.trees.get? text with
  | some tree => exact noted true _
  | none =>
    dsimp only
    cases Expression.parse text with
    | error cause => exact noted false _
    | ok tree => exact (handledErrors_congr rfl).trans (noted false _)

theorem handledErrors_keptResult (state : EngineState Memory) (configuration : Configuration)
    (text : String) (key : CacheKey) :
    (state.keptResult configuration text key).2.handledErrors = state.handledErrors := by
  unfold EngineState.keptResult
  cases state.results.get? key with
  | some kept => exact state.handledErrors_note_log rfl configuration _ _
  | none => exact state.handledErrors_note_log rfl configuration _ _

/-- A report calls the error handler once, with the error. -/
theorem handledErrors_report (handler : state.hasErrorHandler = true) (error : EngineError) :
    (state.report error).handledErrors = state.handledErrors ++ [error] := by
  unfold EngineState.report
  dsimp only
  rw [if_pos (show (state.note (.failed error)).hasErrorHandler = true from handler)]
  exact List.reverse_cons

end EngineState

/-! ### Work on a task -/

namespace Registries

open EngineState

variable {registries : Registries Memory}

/-- No evaluation calls the error handler. -/
theorem handledErrors_evaluation (staysOut : registries.functions.StaysOut)
    (reenter : Reenter Memory) (configuration : Configuration) (given : Dictionary String Value)
    (tree : Expression) (state : EngineState Memory) :
    (registries.evaluation reenter configuration given tree state).2.engine.handledErrors =
      state.handledErrors := by
  have maintains := @FunctionRegistry.StaysOut.maintains _
    (registries.setting state.begun reenter configuration) staysOut
    (fun engine => engine.handledErrors = state.handledErrors)
    (fun after event isOfEvaluation same =>
      (after.handledErrors_note isOfEvaluation.handled?).trans same)
    fun _ _ same => same
  exact maintains 0 tree (.start (.ofVariables given) state) rfl

theorem handledErrors_afterResult (generation : Nat) (key : Option CacheKey) (value : Value)
    (machine : Machine Memory) :
    (afterResult generation key value machine).handledErrors = machine.engine.handledErrors := by
  unfold afterResult keepResult
  cases key with
  | none => rfl
  | some own =>
    dsimp only
    split
    · split <;> rfl
    · rfl

theorem handledErrors_evaluateTree (staysOut : registries.functions.StaysOut)
    (reenter : Reenter Memory) (configuration : Configuration) (generation : Nat)
    (key : Option CacheKey) (given : Dictionary String Value) (tree : Expression)
    (state : EngineState Memory) :
    (registries.evaluateTree reenter configuration generation key given tree
      state).2.handledErrors = state.handledErrors := by
  have evaluated := handledErrors_evaluation staysOut reenter configuration given tree state
  rw [evaluateTree_eq]
  generalize registries.evaluation reenter configuration given tree state = run at evaluated ⊢
  rcases run with ⟨error | value, machine⟩
  · exact evaluated
  · have kept := handledErrors_afterResult generation key value machine
    exact (handledErrors_note_log _ rfl configuration _ _).trans (kept.trans evaluated)

theorem handledErrors_workAfresh (staysOut : registries.functions.StaysOut)
    (reenter : Reenter Memory) (task : Task) (text : String) (configuration : Configuration)
    (generation : Nat) (key : Option CacheKey) (given : Dictionary String Value)
    (state : EngineState Memory) :
    (registries.workAfresh reenter task text configuration generation key given
      state).2.handledErrors = state.handledErrors := by
  have searched := state.handledErrors_treeOf configuration text
  unfold workAfresh
  generalize state.treeOf configuration text = search at searched ⊢
  rcases search with ⟨error | tree, after⟩
  · exact searched
  · exact (handledErrors_evaluateTree staysOut reenter configuration generation key given _
      after).trans searched

theorem handledErrors_runText (staysOut : registries.functions.StaysOut) (reenter : Reenter Memory)
    (task : Task) (text : String) (state : EngineState Memory) :
    (registries.runText reenter task text state).2.handledErrors = state.handledErrors := by
  have logged : _ = state.handledErrors := state.begin.handledErrors_log state.configuration
    "Evaluating expression: \x7b\x7d" [.text text]
  rw [runText_eq]
  dsimp only
  generalize state.begin.log state.configuration "Evaluating expression: \x7b\x7d" [.text text] =
    begun at logged ⊢
  cases task.key? state.configuration text (task.mergedVariables begun.defaults) with
  | none => exact (handledErrors_workAfresh staysOut reenter task text _ _ _ _ begun).trans logged
  | some key =>
    have asked := begun.handledErrors_keptResult state.configuration text key
    dsimp only
    generalize begun.keptResult state.configuration text key = lookup at asked ⊢
    rcases lookup with ⟨_ | result, after⟩
    · exact (handledErrors_workAfresh staysOut reenter task text _ _ _ _ after).trans
        (asked.trans logged)
    · exact asked.trans logged

/-- Work on a task does not call the error handler. -/
theorem handledErrors_run (staysOut : registries.functions.StaysOut) (task : Task)
    (state : EngineState Memory) :
    (registries.run task state).2.handledErrors = state.handledErrors := by
  obtain ⟨reenter, same⟩ := registries.run_eq task state
  rw [same]
  split
  · rfl
  · exact handledErrors_runText staysOut reenter task _ state

end Registries

/-! ### Calls -/

namespace Engine

/-- An engine with an error handler, whose functions do not call back into it. -/
structure Reports (engine : Engine Memory) : Prop where
  staysOut : engine.registries.functions.StaysOut
  handler : engine.state.hasErrorHandler = true

/-- The error handler was called with the error of an answer, if it is one, and with no other. -/
def Reported (engine : Engine Memory) (answered : Answer × Engine Memory) : Prop :=
  answered.2.state.handledErrors = engine.state.handledErrors ++ answered.1.error?.toList

variable {engine : Engine Memory}

theorem reported_of_same {answered : Answer × Engine Memory} (fine : answered.1.error? = none)
    (same : answered.2.state.handledErrors = engine.state.handledErrors) :
    engine.Reported answered := by
  unfold Reported
  rw [fine, same]
  exact (List.append_nil _).symm

/-- An answer is reported at its end, where nothing was before. -/
theorem reported_reporting {pair : Except EngineError Result × EngineState Memory}
    (handler : pair.2.hasErrorHandler = true)
    (same : pair.2.handledErrors = engine.state.handledErrors) :
    engine.Reported (Answer.ofOutcome (engine.reporting pair)) := by
  rcases pair with ⟨error | result, state⟩
  · exact (EngineState.handledErrors_report handler error).trans (congrArg (· ++ [error]) same)
  · exact reported_of_same rfl same

/-- A result that is changed afterwards is no further answer. -/
theorem Reported.map {answered : Except EngineError Result × Engine Memory}
    (reported : engine.Reported (Answer.ofOutcome answered)) (change : Result → Other) :
    engine.Reported (Answer.ofOutcome (answered.1.map change, answered.2)) := by
  rcases answered with ⟨error | result, after⟩
  · exact reported
  · exact reported

theorem Reports.compile (reports : engine.Reports) (source : String) :
    engine.Reported (Answer.ofOutcome (engine.compile source)) := by
  unfold Engine.compile
  dsimp only
  split
  · exact reported_reporting reports.handler rfl
  · obtain ⟨trees, searched⟩ :=
      engine.state.notedFrom_treeOf engine.state.configuration (trimmed source)
    exact reported_reporting (searched.follows.worked.hasErrorHandler.trans reports.handler)
      (engine.state.handledErrors_treeOf _ _)

theorem Reports.run (reports : engine.Reports) (task : Task)
    (read : Except EngineError Value → Except EngineError Result) :
    let work := engine.registries.run task engine.state
    engine.Reported (Answer.ofOutcome (engine.reporting (read work.1, work.2))) := by
  have worked := (Registries.run_spares reports.staysOut task engine.state).1
  have same := Registries.handledErrors_run reports.staysOut task engine.state
  generalize engine.registries.run task engine.state = work at worked same ⊢
  exact reported_reporting (worked.hasErrorHandler.trans reports.handler) same

end Engine

namespace Call

open Engine

variable {engine : Engine Memory}

/-- Whether an error handler stays in place through a call, and no function is added that calls
back into the engine. -/
def KeepsReports : Call Memory → Prop
  | .registerFunction _ _ function => HostFunction.StaysOut function
  | .setErrorHandler present => present = true
  | _ => True

/-- The error that a call ends in is reported once, and nothing else is. -/
theorem reported_perform (reports : engine.Reports) (call : Call Memory) :
    engine.Reported (call.perform engine) := by
  cases call with
  | evaluate source given =>
    have reported := reports.run ⟨source, some given, none⟩ id
    dsimp only [id, Prod.eta] at reported
    exact reported
  | evaluateAs Result extractable source =>
    have reported := reports.run ⟨source, none, none⟩ (readAs Result)
    dsimp only at reported
    rw [← extracted_eq] at reported
    exact reported
  | evaluateAsWith Result extractable source given =>
    have reported := reports.run ⟨source, some given, none⟩ (readAs Result)
    dsimp only at reported
    rw [← extracted_eq] at reported
    exact reported
  | evaluateNamed source typeName =>
    have reported := reports.run ⟨source, none, some typeName⟩ id
    dsimp only [id, Prod.eta] at reported
    exact reported
  | compile source => exact reports.compile source
  | validate source =>
    have reported := (reports.compile source).map fun _ => ()
    rw [← validate_eq] at reported
    exact reported
  | format source layout =>
    have reported := (reports.compile source).map fun tree => tree.render layout
    rw [← format_eq] at reported
    exact reported
  | defineFunction definition =>
    dsimp only [perform]
    unfold Engine.defineFunction
    cases FunctionDefinition.parse definition with
    | error cause => exact reported_reporting reports.handler rfl
    | ok read => exact reported_of_same rfl (engine.state.handledErrors_note rfl)
  | registerFunction name signature function =>
    exact reported_of_same rfl (engine.state.handledErrors_note rfl)
  | unregisterFunction name =>
    refine reported_of_same rfl ?_
    dsimp only [perform]
    unfold Engine.unregisterFunction
    split <;> rfl
  | removeContext name =>
    refine reported_of_same rfl ?_
    dsimp only [perform]
    unfold Engine.removeContext
    split <;> rfl
  | _ => exact reported_of_same rfl rfl

theorem reports_perform (reports : engine.Reports) {call : Call Memory}
    (keeps : call.KeepsReports) : (call.perform engine).2.Reports := by
  cases works : call.source? with
  | some source =>
    have unchanged := unchanged_perform_of_source engine reports.staysOut works
    exact ⟨unchanged.registries ▸ reports.staysOut,
      unchanged.hasErrorHandler.trans reports.handler⟩
  | none =>
    cases call with
    | registerFunction name signature function =>
      exact ⟨reports.staysOut.register keeps, reports.handler⟩
    | defineFunction definition =>
      dsimp only [perform, Answer.ofOutcome]
      unfold Engine.defineFunction
      cases FunctionDefinition.parse definition with
      | error cause =>
        have noted := notedFrom_reporting engine
          ((.error (.definition cause), engine.state) : Except EngineError Unit × _)
        exact ⟨reports.staysOut, noted.follows.worked.hasErrorHandler.trans reports.handler⟩
      | ok read => exact ⟨reports.staysOut.register trivial, reports.handler⟩
    | unregisterFunction name =>
      dsimp only [perform]
      unfold Engine.unregisterFunction
      split
      · exact ⟨reports.staysOut.unregister name, reports.handler⟩
      · exact reports
    | removeContext name =>
      dsimp only [perform]
      unfold Engine.removeContext
      split <;> exact ⟨reports.staysOut, reports.handler⟩
    | setErrorHandler present => exact ⟨reports.staysOut, keeps⟩
    | evaluate | evaluateAs | evaluateAsWith | evaluateNamed | compile | validate | format =>
      cases works
    | _ => exact ⟨reports.staysOut, reports.handler⟩

end Call

/-! ### Sequences of calls -/

namespace Engine

variable {engine : Engine Memory}

theorem Reports.answerAll (reports : engine.Reports) {calls : List (Call Memory)}
    (keeps : ∀ call ∈ calls, call.KeepsReports) : (engine.answerAll id calls).2.Reports := by
  induction calls generalizing engine with
  | nil => exact reports
  | cons call rest inductionHypothesis =>
    obtain ⟨first, later⟩ := List.forall_mem_cons.1 keeps
    rw [answerAll_cons]
    exact inductionHypothesis (Call.reports_perform reports first) later

theorem Reports.handledErrors_answerAll (reports : engine.Reports) {calls : List (Call Memory)}
    (keeps : ∀ call ∈ calls, call.KeepsReports) :
    (engine.answerAll id calls).2.state.handledErrors =
      engine.state.handledErrors ++ (engine.answerAll id calls).1.filterMap Answer.error? := by
  induction calls generalizing engine with
  | nil => exact (List.append_nil _).symm
  | cons call rest inductionHypothesis =>
    obtain ⟨first, later⟩ := List.forall_mem_cons.1 keeps
    have reported : Reported engine (call.perform engine) := Call.reported_perform reports call
    rw [answerAll_cons, id_eq, List.filterMap_cons]
    calc ((call.perform engine).2.answerAll id rest).2.state.handledErrors
      _ = (call.perform engine).2.state.handledErrors ++
          ((call.perform engine).2.answerAll id rest).1.filterMap Answer.error? :=
        inductionHypothesis (Call.reports_perform reports first) later
      _ = engine.state.handledErrors ++ ((call.perform engine).1.error?.toList ++
          ((call.perform engine).2.answerAll id rest).1.filterMap Answer.error?) := by
        rw [show _ = _ from reported, List.append_assoc]
      _ = _ := by cases (call.perform engine).1.error? <;> rfl

/-- The error handler of an engine hears of every error once. In the course of calls it is called
with the errors that they are answered with, in their order, as long as it stays in place and no
host function calls back into the engine. Each single call has it called with the error that the
call is answered with, and not at all if that is none. -/
theorem handler_hears_of_errors_once (engine : Engine Memory)
    (staysOut : engine.registries.functions.StaysOut)
    (handler : engine.state.hasErrorHandler = true) (calls : List (Call Memory))
    (keeps : ∀ call ∈ calls, call.KeepsReports) :
    (engine.answerAll id calls).2.state.handledErrors =
        engine.state.handledErrors ++ (engine.answerAll id calls).1.filterMap Answer.error? ∧
      ∀ earlier call later, calls = earlier ++ call :: later →
        let before := (engine.answerAll id earlier).2
        (call.perform before).2.state.handledErrors =
          before.state.handledErrors ++ (call.perform before).1.error?.toList := by
  have reports : engine.Reports := ⟨staysOut, handler⟩
  refine ⟨reports.handledErrors_answerAll keeps, ?_⟩
  rintro earlier call later rfl
  have reached := reports.answerAll fun call member => keeps call (List.mem_append_left _ member)
  exact Call.reported_perform reached call

/-- Calls of an engine with an error handler. The last one runs into a timeout. -/
def faulty : List (Call Nat) := [
  .evaluateAs Binary64 inferInstance "1 / 0",
  .evaluateAsWith Int64 inferInstance "x" (oneVariable "a"),
  .evaluateAs Binary64 inferInstance "1 + 1",
  .validate " ",
  .defineFunction "double(x) => x * 2",
  .evaluateNamed "double(y)" "number",
  .configure ({ · with evaluationTimeout := 10, timeoutCheckInterval := 1 }),
  .evaluate "1 + 1" .empty]

theorem handler_hears_of_errors_once_faulty :
    let engine := counting.setErrorHandler true
    let errors : List EngineError := [.evaluation .divisionByZero,
      .evaluation (.cast ⟨"string", "a", "integer"⟩), .emptyExpression,
      .evaluation (.undefinedVariable "y"), .evaluation (.timedOut 10)]
    engine.registries.functions.StaysOut ∧ engine.state.hasErrorHandler = true ∧
      (∀ call ∈ faulty, call.KeepsReports) ∧
      (engine.answerAll id faulty).1.filterMap Answer.error? = errors ∧
      (engine.answerAll id faulty).2.state.handledErrors = errors := by
  intro engine errors
  have keeps : ∀ call ∈ faulty, call.KeepsReports := by
    simp [faulty, Call.KeepsReports]
  have answered : (engine.answerAll id faulty).1.filterMap Answer.error? = errors := by
    decide +kernel
  have heard := (handler_hears_of_errors_once engine staysOut_counting rfl faulty keeps).1
  refine ⟨staysOut_counting, rfl, keeps, answered, heard.trans ?_⟩
  rw [answered]
  rfl

end Engine

end Reckon
