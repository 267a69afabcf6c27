/-
This file puts an observer beside an engine. It writes down each invocation of
a function whose results may not be kept, in an extension of the host memory:
the function, the arguments and the type hint, the latest first. Observed calls
are answered as they are without the observer, and leave the same engine but
for the extension.
-/

import Reckon.Proofs.Engine.Caching
import Reckon.Proofs.Engine.Erasure

namespace Reckon

universe u

variable {Extra Memory : Type}

/-! ### The observer -/

/-- An invocation of a host function. -/
structure Invocation (Memory : Type) where
  name : String
  function : HostFunction Memory
  arguments : List Value
  hint : Option String

/-- Invocations that were written down, the latest first. -/
abbrev Ledger (Memory : Type) := List (Invocation Memory)

/-- A host function that writes down its invocations if its results may not be kept. -/
def HostFunction.observed (name : String) (signature : Signature)
    (function : HostFunction Memory) : HostFunction (Ledger Memory × Memory) :=
  fun arguments hint =>
    if signature.cacheable then (function arguments hint).extended
    else
      .ask .recall fun memory =>
        .ask (.store (⟨name, function, arguments, hint⟩ :: memory.1, memory.2)) fun _ =>
          (function arguments hint).extended

/-- A function under observation. -/
def RegisteredFunction.observed (function : RegisteredFunction Memory) :
    RegisteredFunction (Ledger Memory × Memory) where
  name := function.name
  signature := function.signature
  callable :=
    match function.callable with
    | .host host => .host (host.observed function.name function.signature)
    | .defined parameters body => .defined parameters body

/-- A call that puts the function it adds, if it adds one, under observation. -/
def Call.observed : Call Memory → Call (Ledger Memory × Memory)
  | .evaluate source given => .evaluate source given
  | .evaluateAs Result extractable source => .evaluateAs Result extractable source
  | .evaluateAsWith Result extractable source given =>
    .evaluateAsWith Result extractable source given
  | .evaluateNamed source typeName => .evaluateNamed source typeName
  | .compile source => .compile source
  | .validate source => .validate source
  | .format source layout => .format source layout
  | .setVariable name value => .setVariable name value
  | .removeVariable name => .removeVariable name
  | .clearVariables => .clearVariables
  | .registerFunction name signature function =>
    .registerFunction name signature (function.observed name signature)
  | .defineFunction definition => .defineFunction definition
  | .unregisterFunction name => .unregisterFunction name
  | .registerOperation operation => .registerOperation operation
  | .registerOperationUnnoticed operation => .registerOperationUnnoticed operation
  | .registerType table name resolver => .registerType table name resolver
  | .configure change => .configure change
  | .setLogger present => .setLogger present
  | .setErrorHandler present => .setErrorHandler present
  | .putContext name value => .putContext name value
  | .removeContext name => .removeContext name
  | .clearContext => .clearContext
  | .clearCaches => .clearCaches

/-! ### Observation changes nothing: work on a task -/

namespace Registries

/-- The same operations, types, platform and functions, the functions under observation. -/
structure Observes (observed : Registries (Ledger Memory × Memory))
    (registries : Registries Memory) : Prop where
  operations : registries.operations = observed.operations
  types : registries.types = observed.types
  platform : registries.platform = observed.platform
  functions : ∀ name, observed.functions.get? name =
    (registries.functions.get? name).map RegisteredFunction.observed

open Coupling

variable {observed : Registries (Ledger Memory × Memory)} {registries : Registries Memory}
  {reenter : Reenter (Ledger Memory × Memory)} {reenter' : Reenter Memory}

theorem answersAlike_observed (observes : observed.Observes registries)
    (back : ReenterAlike reenter reenter') (begun : Nat) (configuration : Configuration)
    {interpret : Nat → Expression → Evaluation (Ledger Memory × Memory) Value}
    {interpret' : Nat → Expression → Evaluation Memory Value}
    (interprets : ∀ depth tree, (alike .identity (EngineState.Extends fun _ => True)
      False).Simulates 0 (interpret depth tree) (interpret' depth tree)) :
    AnswersAlike (fun _ => True)
      ((observed.setting begun reenter configuration).answering interpret)
      ((registries.setting begun reenter' configuration).answering interpret') where
  configuration := rfl
  types := observes.types
  deadline := congrArg (Platform.deadline · begun configuration) observes.platform
  reenter source given _ _ := back.extends source given
  interpret := interprets

/-- A function under observation does what it does without. -/
theorem simulates_observed {setting : NestedSetting Memory}
    {setting' : NestedSetting (Ledger Memory × Memory)} {likeness : Environment.Likeness}
    (answers : AnswersAlike (fun _ => True) setting' setting) (level : Nat) (name : String)
    (signature : Signature) (function : HostFunction Memory) (arguments : List Value)
    (hint : Option String) :
    (alike likeness (EngineState.Extends fun _ => True) False).Simulates level
      (Evaluation.runProgram setting' (function.observed name signature arguments hint))
      (Evaluation.runProgram setting (function arguments hint)) := by
  have plain : Simulates (alike likeness (EngineState.Extends fun _ => True) False) level _ _ :=
    simulates_runProgram_extended answers (function arguments hint)
  unfold HostFunction.observed
  split
  · exact plain
  · refine ⟨fun machine machine' together => ?_, fun _ _ _ parted => parted.1.elim⟩
    exact plain.1
      { machine with engine := { machine.engine with
        memory := (⟨name, function, arguments, hint⟩ :: machine.engine.memory.1,
          machine.engine.memory.2) } }
      machine' { together with engine := ⟨together.engine.forget, trivial⟩ }

theorem erases_observed (observes : observed.Observes registries)
    (back : ReenterAlike reenter reenter') : observed.Erases reenter registries reenter' := by
  refine ⟨observes.platform, fun begun configuration likeness interpret interpret' interprets => ?_⟩
  have answers := answersAlike_observed observes back begun configuration interprets
  refine settingsAlike_of_map rfl observes.operations observes.types answers.deadline
    observes.functions fun function => ⟨rfl, ?_⟩
  unfold RegisteredFunction.observed
  dsimp only
  cases function.callable with
  | defined parameters body => exact .defined parameters body
  | host host =>
    refine .host (fun _ _ _ _ _ parted => parted.1.elim) fun _ level arguments hint => ?_
    exact simulates_observed answers level function.name function.signature host arguments hint

theorem runWithin_observed (observes : observed.Observes registries) (reentries : Nat)
    (task : Task) (state : EngineState (Ledger Memory × Memory)) :
    forgetting (observed.runWithin reentries task state) =
      registries.runWithin reentries task state.forget := by
  induction reentries generalizing task state with
  | zero => rfl
  | succ reentries inductionHypothesis =>
    unfold runWithin
    dsimp only
    split
    · rfl
    · exact runText_forget
        (erases_observed observes (reenterAlike_backThrough inductionHypothesis)) task _ state

theorem run_observed (observes : observed.Observes registries) (task : Task)
    (state : EngineState (Ledger Memory × Memory)) :
    forgetting (observed.run task state) = registries.run task state.forget := by
  unfold run
  rw [observes.platform]
  exact runWithin_observed observes _ task state

end Registries

/-! ### Observation changes nothing: calls -/

namespace Engine

/-- The same engine, its functions under observation. -/
structure Observes (observed : Engine (Ledger Memory × Memory)) (engine : Engine Memory) :
    Prop where
  registries : observed.registries.Observes engine.registries
  state : observed.state.forget = engine.state

/-- The same answer, of engines that are the same but for the observation. -/
structure ObservedAnswer {Answer : Type u} (one : Answer × Engine (Ledger Memory × Memory))
    (other : Answer × Engine Memory) : Prop where
  answer : one.1 = other.1
  observes : one.2.Observes other.2

variable {observed : Engine (Ledger Memory × Memory)} {engine : Engine Memory} {Result : Type}

theorem ObservedAnswer.map {Other : Type} {one : Result × Engine (Ledger Memory × Memory)}
    {other : Result × Engine Memory} (same : ObservedAnswer one other) (change : Result → Other) :
    ObservedAnswer (change one.1, one.2) (change other.1, other.2) :=
  ⟨congrArg change same.answer, same.observes⟩

theorem ObservedAnswer.ofOutcome
    {one : Except EngineError Result × Engine (Ledger Memory × Memory)}
    {other : Except EngineError Result × Engine Memory} (same : ObservedAnswer one other) :
    ObservedAnswer (Answer.ofOutcome one) (Answer.ofOutcome other) :=
  ⟨congrArg (Answer.outcome Result) same.answer, same.observes⟩

theorem observedAnswer_reporting (observes : observed.Observes engine)
    (pair : Except EngineError Result × EngineState (Ledger Memory × Memory)) :
    ObservedAnswer (observed.reporting pair) (engine.reporting (forgetting pair)) := by
  rcases pair with ⟨error | result, state⟩
  · exact ⟨rfl, observes.registries, EngineState.forget_report state error⟩
  · exact ⟨rfl, observes.registries, rfl⟩

theorem observedAnswer_compile (observes : observed.Observes engine) (source : String) :
    ObservedAnswer (observed.compile source) (engine.compile source) := by
  have reported := observedAnswer_reporting observes
    (if trimmed source = "" then (.error .emptyExpression, observed.state)
    else observed.state.treeOf observed.state.configuration (trimmed source))
  rw [apply_ite forgetting, EngineState.forget_treeOf] at reported
  rcases engine with ⟨registries, state⟩
  obtain ⟨-, rfl⟩ := observes
  exact reported

/-- Functions under observation stay so when one is added. -/
theorem observes_register (observes : observed.Observes engine)
    {function : RegisteredFunction Memory} {state : EngineState (Ledger Memory × Memory)}
    {state' : EngineState Memory} (same : state.forget = state')
    {function' : RegisteredFunction (Ledger Memory × Memory)}
    (watched : function' = function.observed) :
    Observes
      ((observed.withState state).withFunctions
        (observed.registries.functions.register function'))
      ((engine.withState state').withFunctions (engine.registries.functions.register function)) := by
  subst watched same
  refine ⟨{ observes.registries with functions := fun name => ?_ }, rfl⟩
  show (Dictionary.insert _ _ _).get? name = ((Dictionary.insert _ _ _).get? name).map _
  rw [Dictionary.get?_insert, Dictionary.get?_insert]
  by_cases own : name = function.name
  · rw [if_pos own, if_pos (show name = function.observed.name from own)]
    rfl
  · rw [if_neg own, if_neg (show name ≠ function.observed.name from own)]
    exact observes.registries.functions name

theorem observes_unregister (observes : observed.Observes engine) (removed : String) :
    Observes (observed.withFunctions (observed.registries.functions.unregister removed))
      (engine.withFunctions (engine.registries.functions.unregister removed)) := by
  refine ⟨{ observes.registries with functions := fun name => ?_ },
    congrArg EngineState.invalidate observes.state⟩
  show (Dictionary.erase _ _).get? name = ((Dictionary.erase _ _).get? name).map _
  rw [Dictionary.get?_erase, Dictionary.get?_erase]
  split
  · rfl
  · exact observes.registries.functions name

theorem observedAnswer_run (observes : observed.Observes engine) (task : Task) :
    ObservedAnswer (observed.reporting (observed.registries.run task observed.state))
      (engine.reporting (engine.registries.run task engine.state)) := by
  have same := Registries.run_observed observes.registries task observed.state
  rw [observes.state] at same
  rw [← same]
  exact observedAnswer_reporting observes _

theorem forgetting_extracted [Extractable Result]
    (pair : Except EngineError Value × EngineState (Extra × Memory)) :
    (forgetting (extracted pair) : Except EngineError Result × EngineState Memory) =
      extracted (forgetting pair) := by
  rcases pair with ⟨error | value, state⟩
  · rfl
  · rfl

theorem observedAnswer_extracted [Extractable Result] (observes : observed.Observes engine)
    (task : Task) :
    ObservedAnswer
      (observed.reporting (extracted (observed.registries.run task observed.state)) :
        Except EngineError Result × _)
      (engine.reporting (extracted (engine.registries.run task engine.state))) := by
  have same := Registries.run_observed observes.registries task observed.state
  rw [observes.state] at same
  rw [← same, ← forgetting_extracted]
  exact observedAnswer_reporting observes _

end Engine

namespace Call

open Engine

variable {observed : Engine (Ledger Memory × Memory)} {engine : Engine Memory}

/-- An observed call is answered like the call itself. -/
theorem observedAnswer_perform (observes : observed.Observes engine) (call : Call Memory) :
    ObservedAnswer (call.observed.perform observed) (call.perform engine) := by
  rcases engine with ⟨registries, state⟩
  obtain rfl : observed.state.forget = state := observes.state
  cases call with
  | evaluate source given =>
    exact (observedAnswer_run observes ⟨source, some given, none⟩).ofOutcome
  | evaluateAs Result extractable source =>
    exact (observedAnswer_extracted observes ⟨source, none, none⟩).ofOutcome
  | evaluateAsWith Result extractable source given =>
    exact (observedAnswer_extracted observes ⟨source, some given, none⟩).ofOutcome
  | evaluateNamed source typeName =>
    exact (observedAnswer_run observes ⟨source, none, some typeName⟩).ofOutcome
  | compile source => exact (observedAnswer_compile observes source).ofOutcome
  | validate source =>
    have same := (observedAnswer_compile observes source).map (Except.map fun _ => ())
    rw [← validate_eq, ← validate_eq] at same
    exact same.ofOutcome
  | format source layout =>
    have same := (observedAnswer_compile observes source).map
      (Except.map fun tree => tree.render layout)
    rw [← format_eq, ← format_eq] at same
    exact same.ofOutcome
  | setVariable name value => exact ⟨rfl, observes.registries, rfl⟩
  | removeVariable name => exact ⟨rfl, observes.registries, rfl⟩
  | clearVariables => exact ⟨rfl, observes.registries, rfl⟩
  | registerFunction name signature function =>
    exact ⟨rfl, observes_register observes
      (rfl : (observed.state.note (.registered name)).forget = _) rfl⟩
  | defineFunction definition =>
    show ObservedAnswer (Answer.ofOutcome (observed.defineFunction definition))
      (Answer.ofOutcome (Engine.defineFunction ⟨registries, observed.state.forget⟩ definition))
    unfold Engine.defineFunction
    cases FunctionDefinition.parse definition with
    | error cause =>
      exact (observedAnswer_reporting observes
        (.error (.definition cause), observed.state)).ofOutcome
    | ok definition =>
      exact ⟨rfl, observes_register observes
        (rfl : (observed.state.note (.defined definition.name)).forget = _) rfl⟩
  | unregisterFunction name =>
    have sameKnown : Engine.hasFunction ⟨registries, observed.state.forget⟩ name =
        observed.hasFunction name := by
      show Option.isSome _ = Option.isSome _
      rw [show observed.registries.functions.table.get? name = _ from
        observes.registries.functions name, Option.isSome_map]
      rfl
    show ObservedAnswer
      (Answer.truth (observed.unregisterFunction name).1, (observed.unregisterFunction name).2)
      (Answer.truth (Engine.unregisterFunction ⟨registries, observed.state.forget⟩ name).1,
        (Engine.unregisterFunction ⟨registries, observed.state.forget⟩ name).2)
    unfold Engine.unregisterFunction
    rw [sameKnown]
    cases observed.hasFunction name with
    | false => exact ⟨rfl, observes⟩
    | true => exact ⟨rfl, observes_unregister observes name⟩
  | registerOperation operation =>
    have added := congrArg (OperationRegistry.register · operation) observes.registries.operations
    exact ⟨rfl, { observes.registries with operations := added }, rfl⟩
  | registerOperationUnnoticed operation =>
    have added := congrArg (OperationRegistry.register · operation) observes.registries.operations
    exact ⟨rfl, { observes.registries with operations := added }, rfl⟩
  | registerType table name resolver =>
    have added := congrArg (TypeRegistry.register · table name resolver) observes.registries.types
    exact ⟨rfl, { observes.registries with types := added }, rfl⟩
  | configure change => exact ⟨rfl, observes.registries, rfl⟩
  | setLogger present => exact ⟨rfl, observes.registries, rfl⟩
  | setErrorHandler present => exact ⟨rfl, observes.registries, rfl⟩
  | putContext name value => exact ⟨rfl, observes.registries, rfl⟩
  | removeContext name =>
    show ObservedAnswer
      (Answer.found (observed.removeContext name).1, (observed.removeContext name).2)
      (Answer.found (Engine.removeContext ⟨registries, observed.state.forget⟩ name).1,
        (Engine.removeContext ⟨registries, observed.state.forget⟩ name).2)
    unfold Engine.removeContext
    rw [show Engine.context? ⟨registries, observed.state.forget⟩ name = observed.context? name
      from rfl]
    cases observed.context? name with
    | none => exact ⟨rfl, observes⟩
    | some value => exact ⟨rfl, observes.registries, rfl⟩
  | clearContext => exact ⟨rfl, observes.registries, rfl⟩
  | clearCaches => exact ⟨rfl, observes.registries, rfl⟩

end Call

/-! ### Observation changes nothing: sequences of calls -/

namespace Engine

theorem observes_new (platform : Platform) (configuration : Configuration) (memory : Memory)
    (ledger : Ledger Memory) :
    Observes (Engine.new platform configuration (ledger, memory))
      (Engine.new platform configuration memory) :=
  ⟨⟨rfl, rfl, rfl, fun _ => rfl⟩, rfl⟩

/-- Observation changes no answer, whatever is done to the engine before each call. -/
theorem answerAll_observed
    {prepare : Engine (Ledger Memory × Memory) → Engine (Ledger Memory × Memory)}
    {prepare' : Engine Memory → Engine Memory}
    (prepares : ∀ observed engine, Observes observed engine →
      Observes (prepare observed) (prepare' engine))
    (calls : List (Call Memory)) {observed : Engine (Ledger Memory × Memory)}
    {engine : Engine Memory} (observes : observed.Observes engine) :
    (observed.answerAll prepare (calls.map Call.observed)).1 =
        (engine.answerAll prepare' calls).1 ∧
      Observes (observed.answerAll prepare (calls.map Call.observed)).2
        (engine.answerAll prepare' calls).2 := by
  induction calls generalizing observed engine with
  | nil => exact ⟨rfl, observes⟩
  | cons call rest inductionHypothesis =>
    have same := Call.observedAnswer_perform (prepares observed engine observes) call
    have sameRest := inductionHypothesis same.observes
    rw [List.map_cons, answerAll_cons, answerAll_cons, same.answer, sameRest.1]
    exact ⟨rfl, sameRest.2⟩

/-- A new engine under observation answers as a new engine does. -/
theorem answerAll_new_observed (platform : Platform) (configuration : Configuration)
    (memory : Memory) (ledger : Ledger Memory) (calls : List (Call Memory)) :
    ((Engine.new platform configuration (ledger, memory)).answerAll id
        (calls.map Call.observed)).1 =
      ((Engine.new platform configuration memory).answerAll id calls).1 :=
  (answerAll_observed (fun _ _ => id) calls
    (observes_new platform configuration memory ledger)).1

end Engine

end Reckon
