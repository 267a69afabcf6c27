/-
This file extends the memory of a host by something that the host functions do
not see. An evaluation in an engine with an extended memory does what it does
without the extension, and leaves the extension alone.

What is kept in an extension can be used to observe an evaluation from outside,
without any change to what the evaluation does.
-/

import Reckon.Proofs.Evaluation.Alike

namespace Reckon

variable {Extra Memory : Type}

/-! ### States and programs -/

namespace EngineState

/-- The state without the extension of its memory. -/
def forget (state : EngineState (Extra × Memory)) : EngineState Memory :=
  { state with memory := state.memory.2 }

/-- The state with a memory that is extended. -/
def extend (extra : Extra) (state : EngineState Memory) : EngineState (Extra × Memory) :=
  { state with memory := (extra, state.memory) }

/-- A state whose memory is extended by something that is allowed. -/
structure Extends (allowed : Extra → Prop) (extended : EngineState (Extra × Memory))
    (state : EngineState Memory) : Prop where
  forget : extended.forget = state
  allowed : allowed extended.memory.1

theorem survivesNotes_extends (allowed : Extra → Prop) :
    Coupling.SurvivesNotes
      (Extends allowed : EngineState (Extra × Memory) → EngineState Memory → Prop) := by
  refine ⟨fun extended state event extends_ => ⟨?_, extends_.allowed⟩⟩
  rw [← extends_.forget]
  rfl

end EngineState

namespace HostProgram

/-- The program on an extended memory, of which it sees as much as before. -/
def extended : HostProgram Memory → HostProgram (Extra × Memory)
  | .done result => .done result
  | .ask (.context name) next => .ask (.context name) fun answer => (next answer).extended
  | .ask .callDepth next => .ask .callDepth fun answer => (next answer).extended
  | .ask .visits next => .ask .visits fun answer => (next answer).extended
  | .ask .configuration next => .ask .configuration fun answer => (next answer).extended
  | .ask .isCacheable next => .ask .isCacheable fun answer => (next answer).extended
  | .ask .hasDeadline next => .ask .hasDeadline fun answer => (next answer).extended
  | .ask .forbidCaching next => .ask .forbidCaching fun answer => (next answer).extended
  | .ask (.coerce value typeName) next =>
    .ask (.coerce value typeName) fun answer => (next answer).extended
  | .ask .recall next => .ask .recall fun memory => (next memory.2).extended
  | .ask (.store memory) next =>
    .ask .recall fun before => .ask (.store (before.1, memory)) fun answer => (next answer).extended
  | .ask (.putContext name value) next =>
    .ask (.putContext name value) fun answer => (next answer).extended
  | .ask (.setStrictMode on) next => .ask (.setStrictMode on) fun answer => (next answer).extended
  | .ask (.interpret tree environment depth) next =>
    .ask (.interpret tree environment depth) fun answer => (next answer).extended
  | .ask (.evaluate source given) next =>
    .ask (.evaluate source given) fun answer => (next answer).extended

end HostProgram

/-! ### Evaluations -/

/-- A callable on an extended memory. -/
def Callable.extended : Callable Memory → Callable (Extra × Memory)
  | .host function => .host fun arguments hint => (function arguments hint).extended
  | .defined parameters body => .defined parameters body

/-- A function on an extended memory. -/
def RegisteredFunction.extended (function : RegisteredFunction Memory) :
    RegisteredFunction (Extra × Memory) where
  name := function.name
  signature := function.signature
  callable := function.callable.extended

namespace Evaluation

/-- Answers a request of a program in a setting with an extended memory, of which the program sees
as much as before. -/
def respondBeside (setting : NestedSetting (Extra × Memory)) :
    (request : Request Memory) → Evaluation (Extra × Memory) request.Answer
  | .context name => respond setting (.context name)
  | .callDepth => respond setting .callDepth
  | .visits => respond setting .visits
  | .configuration => respond setting .configuration
  | .isCacheable => respond setting .isCacheable
  | .hasDeadline => respond setting .hasDeadline
  | .forbidCaching => respond setting .forbidCaching
  | .coerce value typeName => respond setting (.coerce value typeName)
  | .recall => inspect fun machine => machine.engine.memory.2
  | .store memory => update fun machine =>
    { machine with engine := { machine.engine with memory := (machine.engine.memory.1, memory) } }
  | .putContext name value => respond setting (.putContext name value)
  | .setStrictMode on => respond setting (.setStrictMode on)
  | .interpret tree environment depth => respond setting (.interpret tree environment depth)
  | .evaluate source given => respond setting (.evaluate source given)

theorem runProgram_extended_eq_runWith (setting : NestedSetting (Extra × Memory))
    (program : HostProgram Memory) :
    runProgram setting program.extended = Coupling.runWith (respondBeside setting) program := by
  induction program with
  | done result => rfl
  | ask request next inductionHypothesis =>
    have goesOn : Coupling.runWith (respondBeside setting) (.ask request next) =
        andThen (respondBeside setting request) fun answer =>
          runProgram setting (next answer).extended :=
      congrArg (andThen (respondBeside setting request))
        (funext fun answer => (inductionHypothesis answer).symm)
    rw [goesOn]
    cases request <;> rfl

end Evaluation

namespace Coupling

open Evaluation

variable {likeness : Environment.Likeness} {allowed : Extra → Prop} {level : Nat}
  {setting : NestedSetting Memory} {extended : NestedSetting (Extra × Memory)}

/-- Two settings that agree in what host programs can ask for. -/
structure AnswersAlike (allowed : Extra → Prop) (extended : NestedSetting (Extra × Memory))
    (setting : NestedSetting Memory) : Prop where
  configuration : setting.configuration = extended.configuration
  types : setting.types = extended.types
  deadline : setting.deadline = extended.deadline
  reenter : ∀ source given state state', EngineState.Extends allowed state state' →
    (extended.reenter source given state).1 = (setting.reenter source given state').1 ∧
      EngineState.Extends allowed (extended.reenter source given state).2
        (setting.reenter source given state').2
  interpret : (alike .identity (EngineState.Extends allowed) False).InterpretsAlike extended setting

/-- A request is answered on an extended memory as it is without the extension. -/
theorem simulates_respondBeside (answers : AnswersAlike allowed extended setting)
    (request : Request Memory) :
    (alike likeness (EngineState.Extends allowed) False).Simulates level
      (respondBeside extended request) (respond setting request) := by
  have keeps : ∀ {Result : Type} (action : Evaluation (Extra × Memory) Result),
      (alike likeness (EngineState.Extends allowed) False).Keeps action :=
    fun _ _ _ _ parted => parted.1.elim
  cases request with
  | context name =>
    refine simulates_inspect fun machine machine' together => ?_
    rw [← together.engine.forget]
    rfl
  | callDepth => exact simulates_inspect fun _ _ together => together.callDepth
  | visits => exact simulates_inspect fun _ _ together => together.visits
  | configuration =>
    unfold respondBeside respond
    rw [answers.configuration]
    exact simulates_pure _
  | isCacheable => exact simulates_inspect fun _ _ together => together.cacheable
  | hasDeadline =>
    unfold respondBeside respond
    rw [answers.deadline]
    exact simulates_inspect fun _ _ _ => rfl
  | forbidCaching =>
    exact simulates_update (fun _ _ together => { together with cacheable := rfl })
      fun _ _ _ parted => parted.1.elim
  | coerce value typeName =>
    unfold respondBeside respond
    rw [answers.types]
    exact simulates_pure _
  | «recall» =>
    refine simulates_inspect fun machine machine' together => ?_
    rw [← together.engine.forget]
    rfl
  | store memory =>
    refine simulates_update (fun machine machine' together => ?_) fun _ _ _ parted => parted.1.elim
    refine { together with engine := ⟨?_, together.engine.allowed⟩ }
    rw [← together.engine.forget]
    rfl
  | putContext name value =>
    refine simulates_update (fun machine machine' together => ?_) fun _ _ _ parted => parted.1.elim
    refine { together with engine := ⟨?_, together.engine.allowed⟩ }
    rw [← together.engine.forget]
    rfl
  | setStrictMode on =>
    refine simulates_update (fun machine machine' together => ?_) fun _ _ _ parted => parted.1.elim
    refine { together with engine := ⟨?_, together.engine.allowed⟩ }
    rw [← together.engine.forget]
    rfl
  | interpret tree environment depth =>
    exact interpret_alike answers.interpret tree environment depth
  | evaluate source given =>
    refine ⟨fun machine machine' together => Or.inl ?_, keeps _⟩
    obtain ⟨result, engine⟩ := answers.reenter source given _ _ together.engine
    unfold respondBeside respond
    dsimp only
    rw [result]
    exact ⟨.same _, { together with engine }⟩

/-- A host program does on an extended memory what it does without the extension. -/
theorem simulates_runProgram_extended (answers : AnswersAlike allowed extended setting)
    (program : HostProgram Memory) :
    (alike likeness (EngineState.Extends allowed) False).Simulates level
      (runProgram extended program.extended) (runProgram setting program) := by
  rw [runProgram_extended_eq_runWith, runProgram_eq_runWith]
  exact simulates_runWith (simulates_respondBeside answers) program

/-- A function does on an extended memory what it does without the extension. -/
theorem functionsAlike_extended (answers : AnswersAlike allowed extended setting)
    (function : RegisteredFunction Memory) :
    FunctionsAlike likeness (EngineState.Extends allowed) False extended setting function.extended
      function := by
  refine ⟨rfl, ?_⟩
  unfold RegisteredFunction.extended Callable.extended
  dsimp only
  cases function.callable with
  | defined parameters body => exact .defined parameters body
  | host host =>
    refine .host (fun _ _ _ _ _ parted => parted.1.elim) fun _ level arguments hint => ?_
    exact simulates_runProgram_extended answers (host arguments hint)

end Coupling

/-! ### Settings and machines -/

/-- The machine without the extension of the memory. -/
def Machine.forget (machine : Machine (Extra × Memory)) : Machine Memory :=
  { machine with engine := machine.engine.forget }

/-- The machine with a memory that is extended. -/
def Machine.extend (extra : Extra) (machine : Machine Memory) : Machine (Extra × Memory) :=
  { machine with engine := machine.engine.extend extra }

/-- The computation on an extended memory, which leaves the extension alone. -/
def Evaluation.extended {Result : Type} (action : Evaluation Memory Result) :
    Evaluation (Extra × Memory) Result :=
  fun machine =>
    let (result, after) := action machine.forget
    (result, after.extend machine.engine.memory.1)

/-- The setting of the same evaluations on an extended memory. -/
def Setting.extended (setting : Setting Memory) : Setting (Extra × Memory) where
  configuration := setting.configuration
  operations := setting.operations
  functions := ⟨setting.functions.table.mapEntries RegisteredFunction.extended⟩
  types := setting.types
  deadline := setting.deadline
  reenter source given state :=
    let (result, after) := setting.reenter source given state.forget
    (result, after.extend state.memory.1)
  nestings := setting.nestings

/-- The setting on an extended memory, with the same evaluator of trees for host functions. -/
def NestedSetting.extended (setting : NestedSetting Memory) : NestedSetting (Extra × Memory) :=
  setting.toSetting.extended.answering fun depth tree => (setting.interpret depth tree).extended

namespace Coupling

variable {likeness : Environment.Likeness} {allowed : Extra → Prop} {level : Nat}

theorem get?_extended (setting : Setting Memory) (name : String) :
    (setting.extended : Setting (Extra × Memory)).functions.get? name =
      (setting.functions.get? name).map RegisteredFunction.extended :=
  Dictionary.get?_mapEntries _ _ _

/-- Calls on an extended memory go together with those without the extension if each function's
do. -/
theorem callsAlike_extended {coupling : Coupling (Extra × Memory) Memory} {depth : Nat}
    {extended : NestedSetting (Extra × Memory)} {setting : NestedSetting Memory}
    {body : Expression → Evaluation (Extra × Memory) Value}
    {body' : Expression → Evaluation Memory Value}
    (functions : ∀ name, extended.functions.get? name =
      (setting.functions.get? name).map RegisteredFunction.extended)
    (called : ∀ name function, setting.functions.get? name = some function →
      ∀ level hint values, coupling.Simulates level
        (Evaluation.callFunction extended depth body name function.extended hint values)
        (Evaluation.callFunction setting depth body' name function hint values)) :
    coupling.CallsAlike extended setting depth body body' where
  unknown name unknown := by
    rw [functions] at unknown
    exact Option.map_eq_none_iff.1 unknown
  known name function found := by
    rw [functions] at found
    obtain ⟨plain, known, rfl⟩ := Option.map_eq_some_iff.1 found
    exact ⟨plain, known, called name plain known⟩

section Answering

variable {setting : Setting Memory}
  {interpret : Nat → Expression → Evaluation (Extra × Memory) Value}
  {interpret' : Nat → Expression → Evaluation Memory Value}

theorem answersAlike_extended (setting : Setting Memory)
    (interprets : ∀ depth tree, (alike .identity (EngineState.Extends allowed) False).Simulates 0
      (interpret depth tree) (interpret' depth tree)) :
    AnswersAlike allowed (setting.extended.answering interpret) (setting.answering interpret') where
  configuration := rfl
  types := rfl
  deadline := rfl
  reenter source given state state' extends_ := by
    rw [← extends_.forget]
    exact ⟨rfl, rfl, extends_.allowed⟩
  interpret := interprets

theorem settingsAlike_extended (setting : Setting Memory)
    (interprets : ∀ depth tree, (alike .identity (EngineState.Extends allowed) False).Simulates 0
      (interpret depth tree) (interpret' depth tree)) :
    SettingsAlike likeness (EngineState.Extends allowed) False
      (setting.extended.answering interpret) (setting.answering interpret') :=
  settingsAlike_of_map rfl rfl rfl rfl (get?_extended setting)
    (functionsAlike_extended (answersAlike_extended setting interprets))

end Answering

/-- A machine and what is left of it if the extension is forgotten. -/
theorem alike_forget (machine : Machine (Extra × Memory)) :
    Machine.Alike .identity (EngineState.Extends (· = machine.engine.memory.1)) machine
      machine.forget :=
  ⟨rfl, rfl, rfl, rfl, rfl, rfl⟩

theorem eq_forget_of_alike {machine : Machine (Extra × Memory)} {machine' : Machine Memory}
    (alike : Machine.Alike .identity (EngineState.Extends allowed) machine machine') :
    machine' = machine.forget := by
  have environment : machine.environment = machine'.environment := alike.environment
  exact Machine.eq_of_fields environment.symm alike.visits.symm alike.callDepth.symm
    alike.cacheable.symm alike.engine.forget.symm

/-- A machine that extends another is that machine with the extension. -/
theorem eq_extend_of_alike {machine : Machine (Extra × Memory)} {machine' : Machine Memory}
    (alike : Machine.Alike .identity (EngineState.Extends allowed) machine machine') :
    ∃ extra, allowed extra ∧ machine = machine'.extend extra := by
  obtain rfl := eq_forget_of_alike alike
  exact ⟨machine.engine.memory.1, alike.engine.allowed, rfl⟩

/-- What leaves an extension alone goes together with what it does without the extension. -/
theorem simulates_extended {Result : Type} (action : Evaluation Memory Result) :
    (alike .identity (EngineState.Extends allowed) False).Simulates level action.extended
      action := by
  refine ⟨fun machine machine' together => Or.inl ?_, fun _ _ _ parted => parted.1.elim⟩
  obtain rfl := eq_forget_of_alike together
  exact ⟨.same _, rfl, rfl, rfl, rfl, rfl, together.engine.allowed⟩

/-- A request that is not for the evaluation of a tree is answered on an extended memory as it is
without the extension, which is left alone. -/
theorem respondBeside_eq_extended (setting : Setting Memory)
    (interpret : Nat → Expression → Evaluation (Extra × Memory) Value)
    (interpret' : Nat → Expression → Evaluation Memory Value) {request : Request Memory}
    (plain : ¬ request.IsForTree) :
    Evaluation.respondBeside (setting.extended.answering interpret) request =
      (Evaluation.respond (setting.answering interpret') request).extended := by
  cases request with
  | interpret => exact absurd trivial plain
  | _ => rfl

end Coupling

end Reckon
