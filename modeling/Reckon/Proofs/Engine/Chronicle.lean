/-
This file keeps the chronicle of an engine: when an evaluation began, when it
ended, and when the kept results were invalidated, each time with the state of
the engine at that moment. The kept results change at these moments only. The
chronicle is an extension of the host memory, which the host functions do not
see.

A host function may invalidate the kept results while it runs. To have that
written down, it is made to call back into the engine right afterwards, with an
empty text for a signal. A text that it asks the engine to evaluate is told
apart from a signal by a letter in front. On the way into the engine signals
are taken out and the letters taken off, so with the chronicle an engine does
what it does without.
-/

import Reckon.Proofs.Engine.Call
import Reckon.Proofs.Engine.Erasure

namespace Reckon

variable {Memory : Type}

/-! ### What happens to an engine -/

/-- Something that happens to an engine, with the state that the engine is in then. -/
inductive Happening (Memory : Type) where
  /-- Work on a task began. -/
  | began (task : Task) (state : EngineState Memory)
  /-- The work ended that had begun after so many other happenings. -/
  | ended (beginning : Nat) (answer : Except EngineError Value) (state : EngineState Memory)
  /-- The kept results were invalidated. -/
  | invalidated (state : EngineState Memory)

namespace Happening

/-- The state of the engine when something happened. -/
def state : Happening Memory → EngineState Memory
  | .began _ state => state
  | .ended _ _ state => state
  | .invalidated state => state

/-- Whether kept results were invalidated. -/
def isInvalidation : Happening Memory → Bool
  | .invalidated _ => true
  | _ => false

end Happening

/-- What has happened to an engine, the latest first. -/
abbrev Chronicle (Memory : Type) := List (Happening Memory)

namespace EngineState

/-- The chronicle that goes with a state. -/
def chronicle (state : EngineState (Chronicle Memory × Memory)) : Chronicle Memory :=
  state.memory.1

/-- The state after it was written down that something happened in it. -/
def record (state : EngineState (Chronicle Memory × Memory))
    (happening : EngineState Memory → Happening Memory) :
    EngineState (Chronicle Memory × Memory) :=
  { state with memory := (happening state.forget :: state.chronicle, state.memory.2) }

end EngineState

/-! ### Signals -/

/-- A text with a letter in front, which tells it apart from a signal. -/
def lettered (text : String) : String :=
  String.ofList ('=' :: text.toList)

/-- The text behind a letter; a signal has none. -/
def behindLetter? (source : String) : Option String :=
  match source.toList with
  | [] => none
  | _ :: letters => some (String.ofList letters)

theorem behindLetter?_lettered (text : String) : behindLetter? (lettered text) = some text := by
  unfold behindLetter? lettered
  rw [String.toList_ofList]
  exact congrArg some String.ofList_toList

/-- The program that signals whenever it has invalidated the kept results. -/
def HostProgram.signalling : HostProgram Memory → HostProgram Memory
  | .done result => .done result
  | .ask (.putContext name value) next =>
    .ask (.putContext name value) fun _ => .ask (.evaluate "" .empty) fun _ => (next ()).signalling
  | .ask (.setStrictMode on) next =>
    .ask (.setStrictMode on) fun _ => .ask (.evaluate "" .empty) fun _ => (next ()).signalling
  | .ask (.evaluate source given) next =>
    .ask (.evaluate (lettered source) given) fun answer => (next answer).signalling
  | .ask request next => .ask request fun answer => (next answer).signalling

namespace Registries

/-- A way back into the engine that passes over signals. -/
def passingSignals (reenter : Reenter Memory) : Reenter Memory := fun source given state =>
  match behindLetter? source with
  | some text => reenter text given state
  | none => (.ok .null, state)

/-- A way back into the engine on which signals are written down. -/
def recordingSignals (reenter : Reenter (Chronicle Memory × Memory)) :
    Reenter (Chronicle Memory × Memory) := fun source given state =>
  match behindLetter? source with
  | some text => reenter text given state
  | none => (.ok .null, state.record .invalidated)

theorem passingSignals_lettered (reenter : Reenter Memory) (text : String)
    (given : Dictionary String Value) (state : EngineState Memory) :
    passingSignals reenter (lettered text) given state = reenter text given state := by
  unfold passingSignals
  rw [behindLetter?_lettered]

theorem recordingSignals_lettered (reenter : Reenter (Chronicle Memory × Memory)) (text : String)
    (given : Dictionary String Value) (state : EngineState (Chronicle Memory × Memory)) :
    recordingSignals reenter (lettered text) given state = reenter text given state := by
  unfold recordingSignals
  rw [behindLetter?_lettered]

/-- Where signals are passed over they make no difference to a program. -/
theorem runProgram_signalling (registries : Registries Memory) (begun : Nat)
    (reenter : Reenter Memory) (configuration : Configuration)
    (interpret : Nat → Expression → Evaluation Memory Value) (program : HostProgram Memory) :
    Evaluation.runProgram
        ((registries.setting begun (passingSignals reenter) configuration).answering interpret)
        program.signalling =
      Evaluation.runProgram ((registries.setting begun reenter configuration).answering interpret)
        program := by
  induction program with
  | done result => rfl
  | ask request next inductionHypothesis =>
    funext machine
    cases request with
    | putContext name value => exact congrFun (inductionHypothesis ()) _
    | setStrictMode on => exact congrFun (inductionHypothesis ()) _
    | evaluate source given =>
      have answered : Evaluation.respond
            ((registries.setting begun (passingSignals reenter) configuration).answering interpret)
            (.evaluate (lettered source) given) machine =
          Evaluation.respond
            ((registries.setting begun reenter configuration).answering interpret)
            (.evaluate source given) machine := by
        dsimp only [Evaluation.respond, Setting.answering, setting]
        rw [passingSignals_lettered]
        rfl
      unfold HostProgram.signalling Evaluation.runProgram Evaluation.andThen
      rw [answered]
      rcases Evaluation.respond _ (.evaluate source given) machine with ⟨error | answer, after⟩
      · rfl
      · exact congrFun (inductionHypothesis answer) after
    | _ =>
      unfold HostProgram.signalling Evaluation.runProgram Evaluation.andThen
      simp only [inductionHypothesis]
      rfl

end Registries

/-! ### Work that is written down -/

/-- The function, signalling whenever it has invalidated the kept results. -/
def RegisteredFunction.signalling (function : RegisteredFunction Memory) :
    RegisteredFunction Memory where
  name := function.name
  signature := function.signature
  callable :=
    match function.callable with
    | .host host => .host fun arguments hint => (host arguments hint).signalling
    | .defined parameters body => .defined parameters body

namespace Registries

/-- The same operations, functions, types and platform, for an engine that keeps a chronicle. -/
def recorded (registries : Registries Memory) : Registries (Chronicle Memory × Memory) where
  operations := registries.operations
  functions := ⟨registries.functions.table.mapEntries fun function => function.signalling.extended⟩
  types := registries.types
  platform := registries.platform

/-- Carries out a task and writes down when the work begins and ends. -/
def runRecorded (registries : Registries Memory) : Nat → Task →
    EngineState (Chronicle Memory × Memory) →
      Except EngineError Value × EngineState (Chronicle Memory × Memory)
  | 0, _, state => (.error (.evaluation .unfinished), state)
  | reentries + 1, task, state =>
    let text := trimmed task.source
    if text = "" then (.error .emptyExpression, state)
    else
      let (answer, after) := registries.recorded.runText
        (recordingSignals (backThrough (runRecorded registries reentries))) task text
        (state.record (.began task))
      (answer, after.record (.ended state.chronicle.length answer))

/-! ### The chronicle changes nothing -/

theorem get?_recorded (registries : Registries Memory) (name : String) :
    registries.recorded.functions.get? name =
      (registries.functions.get? name).map fun function => function.signalling.extended :=
  Dictionary.get?_mapEntries _ _ _

open Coupling

variable {registries : Registries Memory} {reenter : Reenter (Chronicle Memory × Memory)}
  {reenter' : Reenter Memory}

/-- Signals that are written down are, without the chronicle, signals passed over. -/
theorem reenterAlike_signals (back : ReenterAlike reenter reenter') :
    ReenterAlike (recordingSignals reenter) (passingSignals reenter') := by
  intro source given state
  unfold recordingSignals passingSignals
  cases behindLetter? source with
  | none => rfl
  | some text => exact back text given state

theorem answersAlike_recorded (registries : Registries Memory)
    (back : ReenterAlike reenter reenter') (begun : Nat) (configuration : Configuration)
    {interpret : Nat → Expression → Evaluation (Chronicle Memory × Memory) Value}
    {interpret' : Nat → Expression → Evaluation Memory Value}
    (interprets : ∀ depth tree, (alike .identity (EngineState.Extends fun _ => True)
      False).Simulates 0 (interpret depth tree) (interpret' depth tree)) :
    AnswersAlike (fun _ => True)
      ((registries.recorded.setting begun (recordingSignals reenter) configuration).answering
        interpret)
      ((registries.setting begun (passingSignals reenter') configuration).answering
        interpret') where
  configuration := rfl
  types := rfl
  deadline := rfl
  reenter source given _ _ := (reenterAlike_signals back).extends source given
  interpret := interprets

/-- With a chronicle an evaluation does what it does without. -/
theorem erases_recorded (registries : Registries Memory) (back : ReenterAlike reenter reenter') :
    registries.recorded.Erases (recordingSignals reenter) registries reenter' := by
  refine ⟨rfl, fun begun configuration likeness interpret interpret' interprets => ?_⟩
  refine settingsAlike_of_map rfl rfl rfl rfl (get?_recorded registries)
    fun function => ⟨rfl, ?_⟩
  unfold RegisteredFunction.extended RegisteredFunction.signalling Callable.extended
  dsimp only
  cases function.callable with
  | defined parameters body => exact .defined parameters body
  | host host =>
    refine .host (fun _ _ _ _ _ parted => parted.1.elim) fun _ level arguments hint => ?_
    have simulates : Simulates (alike likeness (EngineState.Extends fun _ => True) False) level
        _ _ := simulates_runProgram_extended
          (answersAlike_recorded registries back begun configuration interprets)
          (host arguments hint).signalling
    rwa [runProgram_signalling] at simulates

/-- With a chronicle a task is carried out as it is without. -/
theorem runRecorded_forget (registries : Registries Memory) (reentries : Nat) (task : Task)
    (state : EngineState (Chronicle Memory × Memory)) :
    forgetting (registries.runRecorded reentries task state) =
      registries.runWithin reentries task state.forget := by
  induction reentries generalizing task state with
  | zero => rfl
  | succ reentries inductionHypothesis =>
    unfold runRecorded runWithin
    dsimp only
    split
    · rfl
    · exact runText_forget
        (erases_recorded registries (reenterAlike_backThrough inductionHypothesis)) task _
        (state.record (.began task))

end Registries

/-! ### Calls of an engine -/

namespace Call

/-- The task that a call has an engine carry out. -/
def task? : Call Memory → Option Task
  | .evaluate source given => some ⟨source, some given, none⟩
  | .evaluateAs _ _ source => some ⟨source, none, none⟩
  | .evaluateAsWith _ _ source given => some ⟨source, some given, none⟩
  | .evaluateNamed source typeName => some ⟨source, none, some typeName⟩
  | _ => none

/-- Whether a call has an engine change its functions, operations, types, settings or context, or
clear its caches. An operation that is added behind the back of the engine invalidates nothing. -/
def invalidates (engine : Engine Memory) : Call Memory → Bool
  | .registerFunction _ _ _ | .registerOperation _ | .registerType _ _ _ | .configure _
  | .putContext _ _ | .clearContext | .clearCaches => true
  | .defineFunction definition => (FunctionDefinition.parse definition).isOk
  | .unregisterFunction name => engine.hasFunction name
  | .removeContext name => (engine.context? name).isSome
  | _ => false

/-- The chronicle of an engine after a call. -/
def chronicle (engine : Engine Memory) (before : Chronicle Memory) (call : Call Memory) :
    Chronicle Memory :=
  match call.task? with
  | some task =>
    let within := engine.registries.platform.nestings + 1
    (engine.registries.runRecorded within task (engine.state.extend before)).2.chronicle
  | none =>
    if call.invalidates engine then .invalidated (call.perform engine).2.state :: before
    else before

end Call

namespace Engine

/-- The chronicle of an engine after a sequence of calls. -/
def chronicle (engine : Engine Memory) (before : Chronicle Memory) :
    List (Call Memory) → Chronicle Memory
  | [] => before
  | call :: calls => (call.perform engine).2.chronicle (call.chronicle engine before) calls

end Engine

end Reckon
