/-
This file shows how far an evaluation depends on the engine it runs in when no
host function calls back into it. Started from two states with the same context
and host memory, evaluations come out the same and change the host memory in
the same way; nothing else of a state changes but its journal.

An evaluation whose result may be kept does not even depend on the host memory,
and leaves it alone: had it called a function with a memory, it would know that
its result may not be kept.
-/

import Reckon.Proofs.Engine.Call
import Reckon.Proofs.Evaluation.Alike

namespace Reckon

variable {Memory : Type}

/-! ### States that differ in host memory and journal -/

namespace EngineState

/-- A state that an evaluation comes to from another one without a call back into the engine. -/
def FollowsFrom (start state : EngineState Memory) : Prop :=
  state = { start with memory := state.memory, journal := state.journal }

/-- Two states that follow from two others, with host memories that are related. -/
structure Alongside (start start' : EngineState Memory) (memories : Memory → Memory → Prop)
    (state state' : EngineState Memory) : Prop where
  first : start.FollowsFrom state
  second : start'.FollowsFrom state'
  memories : memories state.memory state'.memory

variable {start start' state state' : EngineState Memory} {memories : Memory → Memory → Prop}

theorem FollowsFrom.refl (state : EngineState Memory) : state.FollowsFrom state := rfl

theorem FollowsFrom.note (follows : start.FollowsFrom state) (event : Event) :
    start.FollowsFrom (state.note event) := by
  unfold FollowsFrom EngineState.note at *
  rw [follows]

theorem FollowsFrom.store (follows : start.FollowsFrom state) (memory : Memory) :
    start.FollowsFrom { state with memory } := by
  unfold FollowsFrom at *
  rw [follows]

theorem FollowsFrom.context (follows : start.FollowsFrom state) :
    state.context = start.context := by
  rw [follows]

theorem FollowsFrom.trees (follows : start.FollowsFrom state) : state.trees = start.trees := by
  rw [follows]

theorem FollowsFrom.results (follows : start.FollowsFrom state) :
    state.results = start.results := by
  rw [follows]

theorem FollowsFrom.generation (follows : start.FollowsFrom state) :
    state.generation = start.generation := by
  rw [follows]

theorem survivesNotes_alongside :
    Coupling.SurvivesNotes (Alongside start start' memories) :=
  ⟨fun _ _ _ along => ⟨along.first.note _, along.second.note _, along.memories⟩⟩

end EngineState

/-! ### Evaluations of a tree -/

namespace Platform

variable {platform : Platform} {configuration : Configuration}

/-- Without a timeout no evaluation has a deadline. -/
theorem leavesTime_of_untimed (untimed : configuration.timeout? = none) :
    platform.LeavesTime configuration := by
  intro begun visits
  unfold deadline
  rw [untimed]
  nofun

/-- Deadlines that no evaluation runs into are the same for all evaluations. -/
theorem LeavesTime.deadline_eq (inTime : platform.LeavesTime configuration) (begun begun' : Nat) :
    platform.deadline begun configuration = platform.deadline begun' configuration := by
  have notUp := inTime begun
  have notUp' := inTime begun'
  unfold deadline at *
  cases timeout : configuration.timeout? with
  | none => rfl
  | some milliseconds =>
    rw [timeout] at notUp notUp'
    cases clock : platform.clock begun milliseconds with
    | passesAt visits => exact absurd (congrArg some clock) (notUp visits)
    | distant =>
      cases clock' : platform.clock begun' milliseconds with
      | passesAt visits => exact absurd (congrArg some clock') (notUp' visits)
      | distant => rw [Option.map_some, Option.map_some, clock, clock']

end Platform

namespace Registries

/-- Every host function asks only for what its signature permits. -/
def IsOrderly (registries : Registries Memory) : Prop :=
  ∀ name function host, registries.functions.get? name = some function →
    function.callable = .host host →
      ∀ arguments hint, (host arguments hint).AsksOnly function.signature.Permits

/-- The evaluation of a tree against variables from a state on. -/
def evaluation (registries : Registries Memory) (reenter : Reenter Memory)
    (configuration : Configuration) (given : Dictionary String Value) (tree : Expression)
    (state : EngineState Memory) : Except EvaluationError Value × Machine Memory :=
  Evaluation.evaluate (registries.setting state.begun reenter configuration) 0 tree
    (.start (.ofVariables given) state)

section Alongside

variable {registries : Registries Memory} {reenter reenter' : Reenter Memory}
  {configuration : Configuration} {start start' : EngineState Memory}
  {memories : Memory → Memory → Prop} {mayPart : Prop} {level : Nat}
  {likeness : Environment.Likeness}

open Coupling

/-- Requests that do not call back are answered alike. Those that use the host memory are if
both runs have the same one, and those for a tree if the trees are evaluated alike. -/
theorem respond_alongside (setting setting' : NestedSetting Memory)
    (configuration : setting.configuration = setting'.configuration)
    (types : setting.types = setting'.types) (deadline : setting.deadline = setting'.deadline)
    (interprets : (alike .identity (EngineState.Alongside start start' memories)
      mayPart).InterpretsAlike setting setting')
    (context : start.context = start'.context) (request : Request Memory)
    (stays : ¬ request.CallsBack) (sharing : request.UsesMemory → memories = Eq) :
    (alike likeness (EngineState.Alongside start start' memories) mayPart).Simulates level
      (Evaluation.respond setting request) (Evaluation.respond setting' request) := by
  cases request with
  | context name =>
    refine simulates_inspect fun machine machine' together => ?_
    show machine.engine.context.get? name = machine'.engine.context.get? name
    rw [together.engine.first.context, together.engine.second.context, context]
  | callDepth => exact simulates_inspect fun _ _ together => together.callDepth
  | visits => exact simulates_inspect fun _ _ together => together.visits
  | configuration =>
    unfold Evaluation.respond
    rw [configuration]
    exact simulates_pure _
  | isCacheable => exact simulates_inspect fun _ _ together => together.cacheable
  | hasDeadline =>
    unfold Evaluation.respond
    rw [deadline]
    exact simulates_inspect fun _ _ _ => rfl
  | forbidCaching =>
    exact simulates_update (fun _ _ together => { together with cacheable := rfl })
      fun _ _ _ parted => ⟨parted.1, rfl⟩
  | coerce value typeName =>
    unfold Evaluation.respond
    rw [types]
    exact simulates_pure _
  | «recall» =>
    have same := sharing trivial
    subst same
    exact simulates_inspect fun _ _ together => together.engine.memories
  | store memory =>
    have same := sharing trivial
    subst same
    refine simulates_update (fun machine machine' together => ?_) fun _ _ _ parted => parted
    have stored : EngineState.Alongside start start' Eq { machine.engine with memory }
        { machine'.engine with memory } :=
      ⟨together.engine.first.store memory, together.engine.second.store memory, rfl⟩
    exact { together with engine := stored }
  | putContext name value => exact absurd trivial stays
  | setStrictMode on => exact absurd trivial stays
  | interpret tree environment depth => exact interpret_alike interprets tree environment depth
  | evaluate source given => exact absurd trivial stays

variable (reenter reenter' : Reenter Memory) (configuration : Configuration)

/-- Evaluations come out alike if they share the host memory, or part where a function with a
memory is called. -/
theorem nestings_alongside (orderly : registries.IsOrderly)
    (clock : registries.platform.deadline start.begun configuration =
      registries.platform.deadline start'.begun configuration)
    (context : start.context = start'.context) (sharing : ¬ mayPart → memories = Eq)
    (likeness : Environment.Likeness) :
    NestingsAlike likeness (EngineState.Alongside start start' memories) mayPart
      (registries.setting start.begun reenter configuration)
      (registries.setting start'.begun reenter' configuration) := by
  intro interpret interpret' interprets
  refine ⟨rfl, rfl, rfl, clock.symm, fun _ unknown => unknown, fun name function found => ?_⟩
  refine ⟨function, found, rfl, ?_⟩
  cases callable : function.callable with
  | defined parameters body => exact .defined parameters body
  | host host =>
    refine .host (fun arguments hint => keeps_runProgram (fun depth tree =>
      (interprets depth tree).2) _) fun called level arguments hint => ?_
    refine simulates_runProgram (fun request permitted => ?_) _
      (orderly name function host found callable arguments hint)
    exact respond_alongside ⟨registries.setting start.begun reenter configuration, interpret⟩
      ⟨registries.setting start'.begun reenter' configuration, interpret'⟩ rfl rfl clock interprets
      context request permitted.1 fun uses => sharing fun may => permitted.2 (called may) uses

theorem evaluation_alongside (memories : Memory → Memory → Prop) (mayPart : Prop)
    (orderly : registries.IsOrderly)
    (clock : registries.platform.deadline start.begun configuration =
      registries.platform.deadline start'.begun configuration)
    (context : start.context = start'.context)
    (sharing : ¬ mayPart → memories = Eq)
    (memory : memories start.memory start'.memory) {given given' : Dictionary String Value}
    (same : ∀ name, given.get? name = given'.get? name) (tree : Expression) :
    (alike .bindings (EngineState.Alongside start start' memories) mayPart).Agree 0
      (registries.evaluation reenter configuration given tree start)
      (registries.evaluation reenter' configuration given' tree start') := by
  have nestings : ∀ likeness, NestingsAlike likeness _ mayPart _ _ :=
    nestings_alongside reenter reenter' configuration orderly clock context sharing
  have simulates : Simulates (alike .bindings _ mayPart) 0 _ _ :=
    evaluate_alike EngineState.survivesNotes_alongside (by rfl) nestings 0 tree
  exact simulates.1 _ _ ⟨Environment.sameBindings_ofVariables same, rfl, rfl, rfl,
    ⟨.refl start, .refl start', memory⟩⟩

/-- From states with the same context and host memory an evaluation comes out the same. -/
theorem evaluation_congr (orderly : registries.IsOrderly)
    (clock : registries.platform.deadline start.begun configuration =
      registries.platform.deadline start'.begun configuration)
    (context : start.context = start'.context) (memory : start.memory = start'.memory)
    (given : Dictionary String Value) (tree : Expression) :
    (registries.evaluation reenter configuration given tree start).1 =
        (registries.evaluation reenter' configuration given tree start').1 ∧
      (registries.evaluation reenter configuration given tree start).2.engine.memory =
        (registries.evaluation reenter' configuration given tree start').2.engine.memory := by
  rcases (evaluation_alongside reenter reenter' configuration Eq False orderly clock context
    (fun _ => rfl) memory (fun _ => rfl) tree).equal fun _ _ => id with
    ⟨same, together⟩ | ⟨parted, -⟩
  · exact ⟨same, together.engine.memories⟩
  · exact parted.elim

/-- An evaluation changes nothing of a state but the host memory and the journal. -/
theorem evaluation_followsFrom (orderly : registries.IsOrderly) (state : EngineState Memory)
    (given : Dictionary String Value) (tree : Expression) :
    state.FollowsFrom
      (registries.evaluation reenter configuration given tree state).2.engine := by
  have sameContext : state.context = state.context := rfl
  have sameClock : registries.platform.deadline state.begun configuration =
      registries.platform.deadline state.begun configuration := rfl
  rcases evaluation_alongside reenter reenter configuration Eq False orderly sameClock sameContext
    (fun _ => rfl) rfl (fun _ => rfl) tree with ⟨-, together⟩ | ⟨parted, -⟩
  · exact together.engine.first
  · exact parted.elim

/-! ### Values that do not depend on the host memory -/

/-- A tree comes to a value under settings and a context, whatever the host memory is and in
whatever order the variables are listed, and leaves the host memory alone. -/
def Settles (registries : Registries Memory) (configuration : Configuration)
    (context given : Dictionary String Value) (tree : Expression) (value : Value) : Prop :=
  ∀ (reenter : Reenter Memory) (state : EngineState Memory) (given' : Dictionary String Value),
    state.context = context → (∀ name, given.get? name = given'.get? name) →
      (registries.evaluation reenter configuration given' tree state).1 = .ok value ∧
        (registries.evaluation reenter configuration given' tree state).2.engine.memory =
          state.memory

/-- The result of an evaluation that ends with leave to keep it settles what the tree comes to, if
no evaluation runs out of time. -/
theorem settles_of_cacheable (orderly : registries.IsOrderly)
    (inTime : registries.platform.LeavesTime configuration) (state : EngineState Memory)
    (given : Dictionary String Value) (tree : Expression) {value : Value}
    (result : (registries.evaluation reenter configuration given tree state).1 = .ok value)
    (cacheable :
      (registries.evaluation reenter configuration given tree state).2.cacheable = true) :
    registries.Settles configuration state.context given tree value := by
  intro reenter' state' given' context same
  -- Each run keeps its own memory until a function with a memory is called.
  rcases (evaluation_alongside reenter reenter' configuration
    (fun memory memory' => memory = state.memory ∧ memory' = state'.memory) True orderly
    (inTime.deadline_eq state.begun state'.begun) context.symm
    (fun never => absurd trivial never) ⟨rfl, rfl⟩ same tree).equal fun _ _ => id with
    ⟨sameResult, together⟩ | parted
  · exact ⟨sameResult.symm.trans result, together.engine.memories.2⟩
  · have uncacheable : _ = false := parted.2
    rw [cacheable] at uncacheable
    cases uncacheable

end Alongside

end Registries

end Reckon
