/-
This file describes how an engine is used from outside: by a sequence of calls,
each of which gets an answer. The calls are those that have the engine work on
a text and those that change what it knows.

It also says what is asked of such a sequence where answers are to be the same
with and without kept results. Host functions do not call back into the engine,
and those whose results may be kept do not keep a memory of their own. No
evaluation runs out of time, for a result that is kept takes no time. All
operations are added through the engine: one that is added to the table of
operations behind its back drops no kept result. Of two maps of variables that
a text is evaluated against and that share a key, both are the same map.
-/

import Reckon.Engine

namespace Reckon

variable {Memory : Type}

/-! ### Calls and their answers -/

/-- A call of an engine. Every setter of a single setting is a change of the settings. -/
inductive Call (Memory : Type) : Type 1 where
  | evaluate (source : String) (given : Dictionary String Value)
  | evaluateAs (Result : Type) (extractable : Extractable Result) (source : String)
  | evaluateAsWith (Result : Type) (extractable : Extractable Result) (source : String)
    (given : Dictionary String Value)
  | evaluateNamed (source typeName : String)
  | compile (source : String)
  | validate (source : String)
  | format (source : String) (layout : Layout)
  | setVariable (name : String) (value : Value)
  | removeVariable (name : String)
  | clearVariables
  | registerFunction (name : String) (signature : Signature) (function : HostFunction Memory)
  | defineFunction (definition : String)
  | unregisterFunction (name : String)
  | registerOperation (operation : Operation)
  | registerOperationUnnoticed (operation : Operation)
  | registerType (table : TypeTable) (name : String) (resolver : Resolver)
  | configure (change : Configuration → Configuration)
  | setLogger (present : Bool)
  | setErrorHandler (present : Bool)
  | putContext (name : String) (value : Value)
  | removeContext (name : String)
  | clearContext
  | clearCaches

/-- What a call is answered with. -/
inductive Answer : Type 1 where
  | done
  | truth (truth : Bool)
  | found (value? : Option Value)
  | outcome (Result : Type) (outcome : Except EngineError Result)

namespace Answer

/-- The answer of a call that may end in an error. -/
def ofOutcome {Result : Type} (pair : Except EngineError Result × Engine Memory) :
    Answer × Engine Memory :=
  (.outcome Result pair.1, pair.2)

/-- The error that a call ended in. -/
def error? : Answer → Option EngineError
  | .outcome _ (.error error) => some error
  | _ => none

end Answer

namespace Call

/-- The answer of an engine to a call, and the engine after it. -/
def perform (engine : Engine Memory) : Call Memory → Answer × Engine Memory
  | .evaluate source given => Answer.ofOutcome (engine.evaluate source given)
  | .evaluateAs Result extractable source =>
    let _ : Extractable Result := extractable
    Answer.ofOutcome (engine.evaluateAs Result source)
  | .evaluateAsWith Result extractable source given =>
    let _ : Extractable Result := extractable
    Answer.ofOutcome (engine.evaluateAsWith Result source given)
  | .evaluateNamed source typeName => Answer.ofOutcome (engine.evaluateNamed source typeName)
  | .compile source => Answer.ofOutcome (engine.compile source)
  | .validate source => Answer.ofOutcome (engine.validate source)
  | .format source layout => Answer.ofOutcome (engine.format source layout)
  | .setVariable name value => (.done, engine.setVariable name value)
  | .removeVariable name => (.found (engine.removeVariable name).1, (engine.removeVariable name).2)
  | .clearVariables => (.done, engine.clearVariables)
  | .registerFunction name signature function =>
    (.done, engine.registerFunction name signature function)
  | .defineFunction definition => Answer.ofOutcome (engine.defineFunction definition)
  | .unregisterFunction name =>
    (.truth (engine.unregisterFunction name).1, (engine.unregisterFunction name).2)
  | .registerOperation operation => (.done, engine.registerOperation operation)
  | .registerOperationUnnoticed operation => (.done, engine.registerOperationUnnoticed operation)
  | .registerType table name resolver => (.done, engine.registerType table name resolver)
  | .configure change => (.done, engine.configure change)
  | .setLogger present => (.done, engine.setLogger present)
  | .setErrorHandler present => (.done, engine.setErrorHandler present)
  | .putContext name value => (.done, engine.putContext name value)
  | .removeContext name => (.found (engine.removeContext name).1, (engine.removeContext name).2)
  | .clearContext => (.done, engine.clearContext)
  | .clearCaches => (.done, engine.clearCaches)

end Call

namespace Engine

/-- The answers of an engine to calls, and the engine after the last of them. Before each call
the engine is prepared. -/
def answerAll (prepare : Engine Memory → Engine Memory) (engine : Engine Memory) :
    List (Call Memory) → List Answer × Engine Memory
  | [] => ([], engine)
  | call :: calls =>
    let (answer, engine) := call.perform (prepare engine)
    let (answers, engine) := answerAll prepare engine calls
    (answer :: answers, engine)

theorem answerAll_cons (prepare : Engine Memory → Engine Memory) (engine : Engine Memory)
    (call : Call Memory) (calls : List (Call Memory)) :
    engine.answerAll prepare (call :: calls) =
      ((call.perform (prepare engine)).1 ::
          ((call.perform (prepare engine)).2.answerAll prepare calls).1,
        ((call.perform (prepare engine)).2.answerAll prepare calls).2) := rfl

theorem fst_reporting {Result : Type} (engine : Engine Memory)
    (outcome : Except EngineError Result × EngineState Memory) :
    (engine.reporting outcome).1 = outcome.1 := by
  rcases outcome with ⟨error | result, state⟩
  · rfl
  · rfl

theorem registries_reporting {Result : Type} (engine : Engine Memory)
    (outcome : Except EngineError Result × EngineState Memory) :
    (engine.reporting outcome).2.registries = engine.registries := by
  rcases outcome with ⟨error | result, state⟩ <;> rfl

/-- The engine with both caches empty. A call asks each cache at most once before it puts
something into it, so to an engine prepared in this way both caches always miss. -/
def withoutKept (engine : Engine Memory) : Engine Memory :=
  engine.withState { engine.state with trees := .empty, results := .empty }

end Engine

/-! ### What is asked of the host -/

namespace Request

/-- Requests that call back into the engine. -/
def CallsBack : Request Memory → Prop
  | .putContext _ _ | .setStrictMode _ | .evaluate _ _ => True
  | _ => False

/-- Requests that read or change the host memory. -/
def UsesMemory : Request Memory → Prop
  | .recall | .store _ => True
  | _ => False

end Request

theorem HostProgram.AsksOnly.mono {allowed permitted : Request Memory → Prop}
    {program : HostProgram Memory} (asks : program.AsksOnly allowed)
    (permits : ∀ request, allowed request → permitted request) : program.AsksOnly permitted := by
  induction program with
  | done result => trivial
  | ask request next inductionHypothesis =>
    exact ⟨permits request asks.1, fun answer => inductionHypothesis answer (asks.2 answer)⟩

namespace Signature

/-- What a host function may ask for: it does not call back into the engine, and one whose
results may be kept depends on nothing that the host keeps. -/
def Permits (signature : Signature) (request : Request Memory) : Prop :=
  ¬ request.CallsBack ∧ (signature.cacheable = true → ¬ request.UsesMemory)

end Signature

/-- No evaluation under the settings runs out of time. That is so on every platform if they set no
timeout. -/
def Platform.LeavesTime (platform : Platform) (configuration : Configuration) : Prop :=
  ∀ begun visits, platform.deadline begun configuration ≠ some (.passesAt visits)

namespace Call

/-- A call that adds no host function that asks for more than it may, sets no timeout that an
evaluation on the platform runs into, and adds no operation behind the back of the engine. -/
def IsOrderly (platform : Platform) : Call Memory → Prop
  | .registerFunction _ signature function =>
    ∀ arguments hint, (function arguments hint).AsksOnly signature.Permits
  | .registerOperationUnnoticed _ => False
  | .configure change =>
    ∀ configuration, platform.LeavesTime configuration → platform.LeavesTime (change configuration)
  | _ => True

/-! ### The variables that texts are evaluated against -/

/-- The text that a call evaluates against variables given with it, and those variables over
the defaults. -/
def usedVariables? (defaults : Dictionary String Value) :
    Call Memory → Option (String × Dictionary String Value)
  | .evaluate source given => some (trimmed source, defaults.merge given)
  | .evaluateAsWith _ _ source given => some (trimmed source, defaults.merge given)
  | _ => none

/-- The default variables after a call. -/
def defaultsAfter (defaults : Dictionary String Value) : Call Memory → Dictionary String Value
  | .setVariable name value => defaults.insert name value
  | .removeVariable name => defaults.erase name
  | .clearVariables => .empty
  | _ => defaults

/-- The texts that calls evaluate against variables given with them, each with its variables. -/
def usedVariables (defaults : Dictionary String Value) :
    List (Call Memory) → List (String × Dictionary String Value)
  | [] => []
  | call :: calls =>
    (call.usedVariables? defaults).toList ++ usedVariables (call.defaultsAfter defaults) calls

end Call

/-- Maps of variables under which a key hides no difference: two that are used with one text and
have one key are the same map. -/
def KeysTellApart (used : List (String × Dictionary String Value)) : Prop :=
  ∀ text given given', (text, given) ∈ used → (text, given') ∈ used →
    CacheKey.ofVariables text given.entries = CacheKey.ofVariables text given'.entries →
      ∀ name, given.get? name = given'.get? name

end Reckon
