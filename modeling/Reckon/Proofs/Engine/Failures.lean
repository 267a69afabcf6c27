/-
This file shows that a call of an engine that ends in an error changes nothing,
as long as no host function calls back into the engine. What may remain is the
tree of the text, which was read before anything could fail in its evaluation.
There is one exception. Where a result is read as another type at the end, and
only that fails, the evaluation was a success, and its result may be kept.

No more than its own result is kept by a call that succeeds, and that only if no
function was invoked whose results may not be kept. An observer tells which of
these were invoked.
-/

import Reckon.Proofs.Engine.Invocations
import Reckon.Proofs.Engine.LookUps

namespace Reckon

variable {Extra Memory : Type}

/-! ### Functions that stay out of the engine -/

/-- A host function that does not call back into the engine. -/
def HostFunction.StaysOut (host : HostFunction Memory) : Prop :=
  ∀ arguments hint, (host arguments hint).AsksOnly fun request => ¬ request.CallsBack

/-- Whether a callable does not call back into the engine itself. -/
def Callable.StaysOut : Callable Memory → Prop
  | .host function => HostFunction.StaysOut function
  | .defined _ _ => True

/-- Whether no function calls back into the engine itself. -/
def FunctionRegistry.StaysOut (functions : FunctionRegistry Memory) : Prop :=
  ∀ name function, functions.get? name = some function → function.callable.StaysOut

namespace FunctionRegistry

variable {functions : FunctionRegistry Memory}

theorem StaysOut.register (staysOut : functions.StaysOut) {function : RegisteredFunction Memory}
    (staysOutToo : function.callable.StaysOut) : (functions.register function).StaysOut :=
  forall_register staysOut staysOutToo

theorem StaysOut.unregister (staysOut : functions.StaysOut) (removed : String) :
    (functions.unregister removed).StaysOut :=
  forall_unregister staysOut removed

/-- What holds of the engine around an evaluation stays true throughout if it survives what the
evaluation notes and programs that do not call back. -/
theorem StaysOut.maintains {setting : Setting Memory} (staysOut : setting.functions.StaysOut)
    (holds : EngineState Memory → Prop)
    (note : ∀ state event, Event.IsOfEvaluation event → holds state → holds (state.note event))
    (store : ∀ state memory, holds state → holds { state with memory }) (depth : Nat)
    (expression : Expression) :
    (Evaluation.evaluate setting depth expression).Maintains fun machine =>
      holds machine.engine := by
  refine Evaluation.maintains_evaluate setting holds note ?_ depth expression
  intro interpret interprets name function host found callable arguments hint
  have asks : (host arguments hint).AsksOnly fun request => ¬ request.CallsBack := by
    have staysOut := staysOut name function found
    rw [callable] at staysOut
    exact staysOut arguments hint
  generalize host arguments hint = program at asks ⊢
  induction program with
  | done result => exact fun _ before => before
  | ask request next inductionHypothesis =>
    refine Evaluation.Maintains.bind (fun machine before => ?_)
      fun answer => inductionHypothesis answer (asks.2 answer)
    cases request with
    | store memory => exact store machine.engine memory before
    | putContext name value => exact absurd trivial asks.1
    | setStrictMode on => exact absurd trivial asks.1
    | evaluate source given => exact absurd trivial asks.1
    | interpret tree environment depth =>
      exact Evaluation.maintains_interpret holds interprets tree environment depth machine before
    | _ => exact before

end FunctionRegistry

/-- An evaluation changes nothing of the engine but the host memory and the journal, whatever
becomes of it, also where its deadline stops it. -/
theorem Evaluation.followsFrom_evaluate {setting : Setting Memory}
    (staysOut : setting.functions.StaysOut) (depth : Nat) (tree : Expression)
    (machine : Machine Memory) :
    machine.engine.FollowsFrom (evaluate setting depth tree machine).2.engine :=
  staysOut.maintains machine.engine.FollowsFrom (fun _ event _ follows => follows.note event)
    (fun _ memory follows => follows.store memory) depth tree machine (.refl machine.engine)

/-! ### Observed evaluations -/

/-- An observed host function calls back only if the function itself does. -/
theorem HostFunction.StaysOut.observed {host : HostFunction Memory}
    (staysOut : HostFunction.StaysOut host) (name : String) (signature : Signature) :
    HostFunction.StaysOut (host.observed name signature) := by
  intro arguments hint
  -- A signature whose results may not be kept forbids nothing but calls back.
  have permitted : (host arguments hint).AsksOnly
      (Signature.Permits ⟨none, .any, none, false⟩) :=
    (staysOut arguments hint).mono fun _ stays => ⟨stays, nofun⟩
  have extended : (HostProgram.extended (host arguments hint) :
      HostProgram (Ledger Memory × Memory)).AsksOnly fun request => ¬ request.CallsBack :=
    (HostProgram.asksOnly_extended permitted).mono fun _ permitted => permitted.1
  unfold HostFunction.observed
  split
  · exact extended
  · exact ⟨id, fun _ => ⟨id, fun _ => extended⟩⟩

namespace Registries

open Coupling Evaluation EngineState

variable {registries : Registries Memory}

/-- The same operations, functions, types and platform, the functions under observation. -/
def observed (registries : Registries Memory) : Registries (Ledger Memory × Memory) where
  operations := registries.operations
  functions := ⟨registries.functions.table.mapEntries RegisteredFunction.observed⟩
  types := registries.types
  platform := registries.platform

theorem get?_observed (registries : Registries Memory) (name : String) :
    registries.observed.functions.get? name =
      (registries.functions.get? name).map RegisteredFunction.observed :=
  Dictionary.get?_mapEntries _ _ _

theorem observes_observed (registries : Registries Memory) :
    registries.observed.Observes registries :=
  ⟨rfl, rfl, rfl, registries.get?_observed⟩

/-- The invocations of functions whose results may not be kept, in the course of work on a
task. -/
def invocations (registries : Registries Memory) (task : Task) (state : EngineState Memory) :
    Ledger Memory :=
  (registries.observed.run task (state.extend [])).2.memory.1

theorem staysOut_observed (staysOut : registries.functions.StaysOut) :
    registries.observed.functions.StaysOut := by
  intro name function found
  rw [get?_observed] at found
  obtain ⟨plain, known, rfl⟩ := Option.map_eq_some_iff.1 found
  have plainStaysOut := staysOut name plain known
  unfold RegisteredFunction.observed
  dsimp only
  cases is : plain.callable with
  | defined parameters body => trivial
  | host host =>
    rw [is] at plainStaysOut
    exact plainStaysOut.observed plain.name plain.signature

/-- One state, with a certain ledger. -/
def SameWithLedger (ledger : Ledger Memory) (state state' : EngineState (Ledger Memory × Memory)) :
    Prop :=
  state = state' ∧ state.memory.1 = ledger

theorem survivesNotes_sameWithLedger (ledger : Ledger Memory) :
    SurvivesNotes (SameWithLedger ledger) where
  note _ _ event := fun ⟨same, is⟩ => ⟨congrArg (EngineState.note · event) same, is⟩

section Ledger

variable {likeness : Environment.Likeness} {ledger : Ledger Memory}

/-- A request that does not call back leaves the ledger alone, but an evaluation that is asked for
may write into it. -/
theorem respondBeside_sameWithLedger {setting : Setting (Ledger Memory × Memory)}
    {interpret interpret' : Nat → Expression → Evaluation (Ledger Memory × Memory) Value}
    (interprets : (alike .identity (SameWithLedger ledger) True).InterpretsAlike
      (setting.answering interpret) (setting.answering interpret')) (level : Nat)
    {request : Request Memory} (stays : ¬ request.CallsBack) :
    (alike likeness (SameWithLedger ledger) True).Simulates level
      (respondBeside (setting.answering interpret) request)
      (respondBeside (setting.answering interpret') request) := by
  cases request with
  | interpret tree environment depth => exact interpret_alike interprets tree environment depth
  | putContext name value => exact absurd trivial stays
  | setStrictMode on => exact absurd trivial stays
  | evaluate source given => exact absurd trivial stays
  | forbidCaching =>
    exact simulates_update (fun _ _ together => { together with cacheable := rfl })
      fun _ _ _ parted => ⟨parted.1, rfl⟩
  | _ =>
    refine ⟨fun machine machine' together => Or.inl ?_, fun _ _ _ parted => parted⟩
    obtain ⟨environment, visits, callDepth, cacheable, engine⟩ := machine
    obtain ⟨environment', visits', callDepth', cacheable', engine'⟩ := machine'
    obtain ⟨environments, rfl, rfl, rfl, rfl, same⟩ := together
    exact ⟨.same _, environments, rfl, rfl, rfl, rfl, same⟩

/-- Runs of one program that does not call back are the same, with one ledger, until an invocation
is written down. -/
theorem simulates_sameWithLedger {setting : Setting (Ledger Memory × Memory)}
    {interpret interpret' : Nat → Expression → Evaluation (Ledger Memory × Memory) Value}
    (interprets : (alike .identity (SameWithLedger ledger) True).InterpretsAlike
      (setting.answering interpret) (setting.answering interpret')) (level : Nat)
    {program : HostProgram Memory} (asks : program.AsksOnly fun request => ¬ request.CallsBack) :
    (alike likeness (SameWithLedger ledger) True).Simulates level
      (runProgram (setting.answering interpret) program.extended)
      (runProgram (setting.answering interpret') program.extended) := by
  rw [runProgram_extended_eq_runWith, runProgram_extended_eq_runWith]
  induction program with
  | done result => exact simulates_ofExcept result
  | ask request next inductionHypothesis =>
    exact (respondBeside_sameWithLedger interprets level asks.1).bind
      fun answer => inductionHypothesis answer (asks.2 answer)

theorem nestings_sameWithLedger (staysOut : registries.functions.StaysOut) (ledger : Ledger Memory)
    (reenter : Reenter (Ledger Memory × Memory)) (begun : Nat) (configuration : Configuration)
    (likeness : Environment.Likeness) :
    NestingsAlike likeness (SameWithLedger ledger) True
      (registries.observed.setting begun reenter configuration)
      (registries.observed.setting begun reenter configuration) := by
  intro interpret interpret' interprets
  refine ⟨rfl, rfl, rfl, rfl, fun _ unknown => unknown, fun name function found => ?_⟩
  refine ⟨function, found, rfl, ?_⟩
  change registries.observed.functions.get? name = some function at found
  rw [get?_observed] at found
  obtain ⟨plain, known, rfl⟩ := Option.map_eq_some_iff.1 found
  have plainStaysOut := staysOut name plain known
  unfold RegisteredFunction.observed
  dsimp only
  cases is : plain.callable with
  | defined parameters body => exact .defined parameters body
  | host host =>
    rw [is] at plainStaysOut
    refine .host (fun _ _ => keeps_runProgram (fun depth tree => (interprets depth tree).2) _)
      fun called level arguments hint => ?_
    unfold HostFunction.observed
    rw [if_pos (called trivial)]
    exact simulates_sameWithLedger interprets level (plainStaysOut arguments hint)

end Ledger

/-- In an evaluation that ends with leave to keep its result, no invocation was written down. -/
theorem ledger_evaluation (staysOut : registries.functions.StaysOut)
    (reenter : Reenter (Ledger Memory × Memory)) (configuration : Configuration)
    (given : Dictionary String Value) (tree : Expression)
    (state : EngineState (Ledger Memory × Memory))
    (cacheable : (registries.observed.evaluation reenter configuration given tree
      state).2.cacheable = true) :
    (registries.observed.evaluation reenter configuration given tree state).2.engine.memory.1 =
      state.memory.1 := by
  have simulates : Simulates (alike .identity _ True) 0 _ _ :=
    evaluate_alike (survivesNotes_sameWithLedger state.memory.1) rfl
      (nestings_sameWithLedger staysOut state.memory.1 reenter state.begun configuration) 0 tree
  rcases (simulates.1 (.start (.ofVariables given) state) (.start (.ofVariables given) state)
    ⟨rfl, rfl, rfl, rfl, rfl, rfl⟩).equal fun _ _ => id with ⟨-, together⟩ | parted
  · exact together.engine.2
  · cases cacheable.symm.trans parted.2

end Registries

/-! ### What work on a task leaves behind -/

namespace EngineState

/-- At most the tree of one text was added to the trees that are kept. -/
def GainsTree (text : String) (start state : EngineState Memory) : Prop :=
  state.trees = start.trees ∨
    start.trees.get? text = none ∧
      ∃ tree, Expression.parse text = .ok tree ∧ state.trees = start.trees.insert text tree

theorem GainsTree.trans {text : String} {start middle state : EngineState Memory}
    (first : start.GainsTree text middle) (second : middle.GainsTree text state) :
    start.GainsTree text state := by
  rcases first with same | ⟨missing, tree, parsed, gained⟩
  · unfold GainsTree at second
    rwa [same] at second
  · rcases second with same | ⟨missingToo, -⟩
    · exact .inr ⟨missing, tree, parsed, same.trans gained⟩
    · rw [gained, Dictionary.get?_insert, if_pos rfl] at missingToo
      cases missingToo

theorem gainsTree_treeOf (state : EngineState Memory) (configuration : Configuration)
    (text : String) : state.GainsTree text (state.treeOf configuration text).2 := by
  unfold EngineState.treeOf
  cases missing : state.trees.get? text with
  | some tree => exact .inl (notedFrom_note_log state _ configuration _ _).follows.trees
  | none =>
    have missed := (notedFrom_note_log state (.treeLookup false text) configuration
      "Cache miss for parse: \x7b\x7d" [.text text]).follows
    dsimp only
    cases parsed : Expression.parse text with
    | error cause => exact .inl missed.trees
    | ok tree =>
      refine .inr ⟨missing, tree, parsed, ?_⟩
      dsimp only
      rw [missed.trees]

end EngineState

namespace Registries

open EngineState

/-- What work on a task leaves of a state, where invocations are written down in a ledger. At most
the tree of the text is added to the kept trees, and at most the result under the key to the kept
results, if there is a result and nothing was written down. -/
structure Spares (text : String) (key : Option CacheKey)
    (state : EngineState (Ledger Memory × Memory))
    (work : Except EngineError Value × EngineState (Ledger Memory × Memory)) : Prop where
  worked : state.WorkedFrom work.2
  trees : state.GainsTree text work.2
  results : work.2.results = state.results ∨
    ∃ own value, key = some own ∧ work.1 = .ok value ∧ work.2.memory.1 = state.memory.1 ∧
      state.results.get? own = none ∧
      work.2.results = state.results.insert own ⟨value, state.generation⟩

variable {registries : Registries Memory} {text : String} {key : Option CacheKey}
  {state after : EngineState (Ledger Memory × Memory)}
  {work : Except EngineError Value × EngineState (Ledger Memory × Memory)}

/-- Work that ends before anything is evaluated. -/
theorem spares_of_noted (answer : Except EngineError Value) (noted : state.NotedFrom after) :
    Spares text key state (answer, after) :=
  ⟨noted.follows.worked, .inl noted.follows.trees, .inl noted.follows.results⟩

/-- What comes before the work may add the tree. -/
theorem Spares.before (spares : Spares text key after work) (worked : state.WorkedFrom after)
    (trees : state.GainsTree text after) (results : after.results = state.results)
    (memory : after.memory = state.memory) : Spares text key state work := by
  have kept := spares.results
  rw [results, worked.generation, memory] at kept
  exact ⟨worked.trans spares.worked, trees.trans spares.trees, kept⟩

theorem Spares.noted (spares : Spares text key after work) (noted : state.NotedFrom after) :
    Spares text key state work :=
  spares.before noted.follows.worked (.inl noted.follows.trees) noted.follows.results noted.memory

/-- A result is kept only with leave to keep it, and in the generation in which its evaluation
began. -/
theorem results_afterResult (generation : Nat) (key : Option CacheKey) (value : Value)
    (machine : Machine Memory) :
    (afterResult generation key value machine).results = machine.engine.results ∨
      ∃ own, key = some own ∧ machine.cacheable = true ∧
        (afterResult generation key value machine).results =
          machine.engine.results.insert own ⟨value, generation⟩ := by
  unfold afterResult EngineState.keepResult
  cases key with
  | none => exact .inl rfl
  | some own =>
    dsimp only
    split
    next cacheable =>
      split
      · exact .inr ⟨own, rfl, cacheable, rfl⟩
      · exact .inl rfl
    next => exact .inl rfl

/-- An evaluation that may keep its result under a key keeps no more. -/
theorem spares_evaluateTree (staysOut : registries.functions.StaysOut)
    (reenter : Reenter (Ledger Memory × Memory)) (configuration : Configuration)
    (missing : ∀ own, key = some own → state.results.get? own = none)
    (given : Dictionary String Value) (tree : Expression) :
    Spares text key state (registries.observed.evaluateTree reenter configuration
      state.generation key given tree state) := by
  have follows : state.FollowsFrom
      (registries.observed.evaluation reenter configuration given tree state).2.engine :=
    Evaluation.followsFrom_evaluate (staysOut_observed staysOut) 0 tree _
  have ledger := ledger_evaluation staysOut reenter configuration given tree state
  rw [evaluateTree_eq]
  generalize registries.observed.evaluation reenter configuration given tree state = run
    at follows ledger ⊢
  rcases run with ⟨error | value, machine⟩
  · exact ⟨follows.worked, .inl follows.trees, .inl follows.results⟩
  · have noted := notedFrom_note_log (afterResult state.generation key value machine)
      (.completed value machine.visits) configuration
      "Expression evaluation completed. Result: \x7b\x7d" [value]
    have worked := worked_afterResult state.generation key value machine
    have trees := trees_afterResult state.generation key value machine
    refine ⟨follows.worked.trans (worked.1.trans noted.follows.worked),
      .inl (noted.follows.trees.trans (trees.trans follows.trees)), ?_⟩
    rcases results_afterResult state.generation key value machine with
      same | ⟨own, is, cacheable, kept⟩
    · exact .inl (noted.follows.results.trans (same.trans follows.results))
    · refine .inr ⟨own, value, is, rfl, ?_, missing own is, ?_⟩
      · exact (congrArg Prod.fst (noted.memory.trans worked.2)).trans (ledger cacheable)
      · rw [← follows.results]
        exact noted.follows.results.trans kept

theorem spares_workAfresh (staysOut : registries.functions.StaysOut)
    (reenter : Reenter (Ledger Memory × Memory)) (task : Task) (configuration : Configuration)
    (missing : ∀ own, key = some own → state.results.get? own = none)
    (given : Dictionary String Value) :
    Spares text key state (registries.observed.workAfresh reenter task text configuration
      state.generation key given state) := by
  obtain ⟨trees, noted⟩ := state.notedFrom_treeOf configuration text
  have gains := state.gainsTree_treeOf configuration text
  have worked : state.WorkedFrom (state.treeOf configuration text).2 := by
    rw [noted]
    rfl
  have results : (state.treeOf configuration text).2.results = state.results :=
    noted.follows.results
  unfold workAfresh
  generalize state.treeOf configuration text = search at noted gains worked results ⊢
  rcases search with ⟨error | tree, searched⟩
  · exact ⟨worked, gains, .inl results⟩
  · have spares : Spares text key searched _ := spares_evaluateTree staysOut reenter configuration
      (fun own is => (congrArg (Dictionary.get? · own) results).trans (missing own is)) given
      (task.wrap tree)
    rw [worked.generation] at spares
    exact spares.before worked gains results noted.memory

theorem spares_runText (staysOut : registries.functions.StaysOut)
    (reenter : Reenter (Ledger Memory × Memory)) (task : Task) (text : String)
    (state : EngineState (Ledger Memory × Memory)) :
    Spares text (task.key? state.configuration text (task.mergedVariables state.defaults)) state
      (registries.observed.runText reenter task text state) := by
  rw [runText_eq]
  dsimp only
  have logged := notedFrom_log state.begin state.configuration "Evaluating expression: \x7b\x7d"
    [.text text]
  generalize state.begin.log state.configuration "Evaluating expression: \x7b\x7d" [.text text] =
    begun at logged ⊢
  have worked := state.worked_begin.trans logged.follows.worked
  rw [worked.defaults, ← worked.generation]
  refine Spares.before ?_ worked (.inl logged.follows.trees) logged.follows.results logged.memory
  cases task.key? state.configuration text (task.mergedVariables state.defaults) with
  | none => exact spares_workAfresh staysOut reenter task _ (fun _ is => by cases is) _
  | some key =>
    obtain ⟨asked, noted⟩ := begun.keptResult_eq state.configuration text key
    dsimp only
    generalize begun.keptResult state.configuration text key = lookup at asked noted ⊢
    rcases lookup with ⟨_ | result, after⟩
    · have missing : after.results.get? key = none := by
        rw [noted.follows.results]
        exact Option.map_eq_none_iff.1 asked.symm
      rw [← noted.follows.generation]
      refine Spares.noted (spares_workAfresh staysOut reenter task _ (fun own is => ?_) _) noted
      cases is
      exact missing
    · exact spares_of_noted _ noted

theorem spares_run (staysOut : registries.functions.StaysOut) (task : Task)
    (state : EngineState (Ledger Memory × Memory)) :
    Spares (trimmed task.source)
      (task.key? state.configuration (trimmed task.source) (task.mergedVariables state.defaults))
      state (registries.observed.run task state) := by
  obtain ⟨reenter, same⟩ := registries.observed.run_eq task state
  rw [same]
  split
  · exact spares_of_noted _ rfl
  · exact spares_runText staysOut reenter task _ state

/-- The key under which the result of a task may be kept that is carried out in a state. -/
def ownKey (task : Task) (state : EngineState Memory) : CacheKey :=
  .ofVariables (trimmed task.source) (task.mergedVariables state.defaults).entries

/-- A task came to a value, which is kept in the state afterwards and was not before: it had
variables given with it and no cast, results are to be kept, and no function was invoked whose
results may not be. -/
structure KeepsOwn (registries : Registries Memory) (task : Task) (state after : EngineState Memory)
    (value : Value) : Prop where
  given : task.given.isSome = true
  uncast : task.castType = none
  caching : state.configuration.cacheEvaluations = true
  result : (registries.run task state).1 = .ok value
  uninvoked : registries.invocations task state = []
  missing : state.results.get? (ownKey task state) = none
  kept : after.results = state.results.insert (ownKey task state) ⟨value, state.generation⟩

theorem conditions_of_key?_eq_some {task : Task} {configuration : Configuration} {text : String}
    {merged : Dictionary String Value} {own : CacheKey}
    (is : task.key? configuration text merged = some own) :
    task.given.isSome = true ∧ task.castType = none ∧ configuration.cacheEvaluations = true ∧
      own = .ofVariables text merged.entries := by
  unfold Task.key? at is
  split at is
  next conditions =>
    rw [Bool.and_eq_true, Bool.and_eq_true, Option.isNone_iff_eq_none] at conditions
    exact ⟨conditions.1.1, conditions.1.2, conditions.2, (Option.some.inj is).symm⟩
  next => cases is

/-- Work on a task changes nothing but what is kept, the host memory, the journal and the number of
evaluations begun. It adds at most the tree of its text and its own result to what is kept. -/
theorem run_spares (staysOut : registries.functions.StaysOut) (task : Task)
    (state : EngineState Memory) :
    state.WorkedFrom (registries.run task state).2 ∧
      state.GainsTree (trimmed task.source) (registries.run task state).2 ∧
      ((registries.run task state).2.results = state.results ∨
        ∃ value, registries.KeepsOwn task state (registries.run task state).2 value) := by
  have spares := spares_run staysOut task (state.extend [])
  have same : forgetting (registries.observed.run task (state.extend [])) =
      registries.run task state := run_observed registries.observes_observed task (state.extend [])
  have written : registries.invocations task state =
      (registries.observed.run task (state.extend [])).2.memory.1 := rfl
  generalize registries.observed.run task (state.extend []) = work at spares same written
  obtain ⟨answer, after⟩ := work
  have result : answer = (registries.run task state).1 := congrArg Prod.fst same
  have left : after.forget = (registries.run task state).2 := congrArg Prod.snd same
  rw [← left]
  refine ⟨congrArg EngineState.forget spares.worked, spares.trees, ?_⟩
  rcases spares.results with unchanged | ⟨own, value, is, outcome, ledger, missing, kept⟩
  · exact .inl unchanged
  · obtain ⟨given, uncast, caching, rfl⟩ := conditions_of_key?_eq_some is
    exact .inr ⟨value, given, uncast, caching, result.symm.trans outcome, written.trans ledger,
      missing, kept⟩

end Registries

/-! ### Calls -/

namespace Call

/-- The text that a call works on. -/
def source? : Call Memory → Option String
  | .evaluate source _ | .evaluateAs _ _ source | .evaluateAsWith _ _ source _
  | .evaluateNamed source _ | .compile source | .validate source | .format source _ => some source
  | _ => none

end Call

namespace Engine

open EngineState

/-- An engine that is after a call as it was before, but for the kept results, the host memory, the
journal and the number of evaluations begun. It may keep one more tree, which is that of the text of
the call. -/
structure Unchanged (source? : Option String) (engine after : Engine Memory) : Prop where
  registries : after.registries = engine.registries
  configuration : after.state.configuration = engine.state.configuration
  context : after.state.context = engine.state.context
  defaults : after.state.defaults = engine.state.defaults
  generation : after.state.generation = engine.state.generation
  hasLogger : after.state.hasLogger = engine.state.hasLogger
  hasErrorHandler : after.state.hasErrorHandler = engine.state.hasErrorHandler
  trees : after.state.trees = engine.state.trees ∨
    ∃ source tree, source? = some source ∧ engine.state.trees.get? (trimmed source) = none ∧
      Expression.parse (trimmed source) = .ok tree ∧
      after.state.trees = engine.state.trees.insert (trimmed source) tree

variable {engine : Engine Memory} {source : String}

theorem unchanged_of_worked {after : Engine Memory} {state : EngineState Memory}
    (registries : after.registries = engine.registries) (worked : engine.state.WorkedFrom state)
    (trees : engine.state.GainsTree (trimmed source) state) (noted : state.NotedFrom after.state) :
    engine.Unchanged (some source) after := by
  have left := worked.trans noted.follows.worked
  refine ⟨registries, left.configuration, left.context, left.defaults, left.generation,
    left.hasLogger, left.hasErrorHandler, ?_⟩
  rw [noted.follows.trees]
  rcases trees with same | ⟨missing, tree, parsed, gained⟩
  · exact .inl same
  · exact .inr ⟨source, tree, rfl, missing, parsed, gained⟩

theorem unchanged_of_noted {source? : Option String} {after : Engine Memory}
    (registries : after.registries = engine.registries)
    (noted : engine.state.NotedFrom after.state) : engine.Unchanged source? after :=
  have worked := noted.follows.worked
  ⟨registries, worked.configuration, worked.context, worked.defaults, worked.generation,
    worked.hasLogger, worked.hasErrorHandler, .inl noted.follows.trees⟩

theorem unchanged_compile (engine : Engine Memory) (source : String) :
    engine.Unchanged (some source) (engine.compile source).2 := by
  unfold Engine.compile
  dsimp only
  split
  · exact unchanged_of_noted (registries_reporting _ _) (notedFrom_reporting engine _)
  · obtain ⟨trees, searched⟩ :=
      engine.state.notedFrom_treeOf engine.state.configuration (trimmed source)
    refine unchanged_of_worked (registries_reporting _ _) ?_
      (engine.state.gainsTree_treeOf engine.state.configuration _) (notedFrom_reporting engine _)
    rw [searched]
    rfl

end Engine

namespace Call

open Engine

theorem registries_perform (engine : Engine Memory) {call : Call Memory} {task : Task}
    (is : call.task? = some task) : (call.perform engine).2.registries = engine.registries := by
  cases call with
  | evaluate | evaluateAs | evaluateAsWith | evaluateNamed =>
    dsimp only [perform, Answer.ofOutcome, Engine.evaluate, Engine.evaluateAs,
      Engine.evaluateAsWith, Engine.evaluateNamed]
    exact registries_reporting _ _
  | _ => cases is

theorem source?_of_task? {call : Call Memory} {task : Task} (is : call.task? = some task) :
    call.source? = some task.source := by
  cases call with
  | evaluate | evaluateAs | evaluateAsWith | evaluateNamed => cases is; rfl
  | _ => cases is

/-- After a call that has a task carried out an engine keeps at most one more result, that of the
task. -/
theorem results_perform_task (engine : Engine Memory)
    (staysOut : engine.registries.functions.StaysOut) {call : Call Memory} {task : Task}
    (is : call.task? = some task) :
    (call.perform engine).2.state.results = engine.state.results ∨
      ∃ value,
        engine.registries.KeepsOwn task engine.state (call.perform engine).2.state value := by
  obtain ⟨-, -, results⟩ := Registries.run_spares staysOut task engine.state
  have noted := (notedFrom_perform engine is).follows.results
  rcases results with same | ⟨value, keeps⟩
  · exact .inl (noted.trans same)
  · exact .inr ⟨value, keeps.given, keeps.uncast, keeps.caching, keeps.result, keeps.uninvoked,
      keeps.missing, noted.trans keeps.kept⟩

/-- A call that works on a text leaves everything but the kept results as it was. -/
theorem unchanged_perform_of_source (engine : Engine Memory)
    (staysOut : engine.registries.functions.StaysOut) {call : Call Memory} {source : String}
    (works : call.source? = some source) :
    engine.Unchanged (some source) (call.perform engine).2 := by
  cases is : call.task? with
  | some task =>
    obtain ⟨worked, trees, -⟩ := Registries.run_spares staysOut task engine.state
    obtain rfl : source = task.source := Option.some.inj (works.symm.trans (source?_of_task? is))
    exact unchanged_of_worked (registries_perform engine is) worked trees
      (notedFrom_perform engine is)
  | none =>
    cases call with
    | compile =>
      cases works
      simp only [perform, Answer.ofOutcome]
      exact engine.unchanged_compile source
    | validate =>
      cases works
      simp only [perform, Answer.ofOutcome, validate_eq]
      exact engine.unchanged_compile source
    | format =>
      cases works
      simp only [perform, Answer.ofOutcome, format_eq]
      exact engine.unchanged_compile source
    | evaluate | evaluateAs | evaluateAsWith | evaluateNamed => cases is
    | _ => cases works

/-- A call that fails leaves everything but the kept results as it was. -/
theorem unchanged_perform_of_failed (engine : Engine Memory)
    (staysOut : engine.registries.functions.StaysOut) {call : Call Memory} {error : EngineError}
    (failed : (call.perform engine).1.error? = some error) :
    engine.Unchanged call.source? (call.perform engine).2 := by
  cases works : call.source? with
  | some source => exact unchanged_perform_of_source engine staysOut works
  | none =>
    cases call with
    | defineFunction definition =>
      dsimp only [perform, Answer.ofOutcome] at failed ⊢
      unfold Engine.defineFunction at failed ⊢
      cases parsed : FunctionDefinition.parse definition with
      | error cause => exact unchanged_of_noted (registries_reporting _ _) (notedFrom_reporting _ _)
      | ok read =>
        rw [parsed] at failed
        cases failed
    | evaluate | evaluateAs | evaluateAsWith | evaluateNamed | compile | validate | format =>
      cases works
    | _ => cases failed

/-- A call that fails drops no result. -/
theorem invalidates_of_failed (engine : Engine Memory) {call : Call Memory} {error : EngineError}
    (failed : (call.perform engine).1.error? = some error) : call.invalidates engine = false := by
  cases call with
  | defineFunction definition =>
    dsimp only [perform, Answer.ofOutcome, invalidates] at failed ⊢
    unfold Engine.defineFunction at failed
    cases parsed : FunctionDefinition.parse definition with
    | error cause => rfl
    | ok read =>
      rw [parsed] at failed
      cases failed
  | evaluate | evaluateAs | evaluateAsWith | evaluateNamed | compile | validate | format => rfl
  | _ => cases failed

/-- A call that fails although its task came to a value reads the value as another type. -/
theorem conversion_of_failed (engine : Engine Memory) {call : Call Memory} {task : Task}
    {error : EngineError} {value : Value} (is : call.task? = some task)
    (provided : task.given.isSome = true)
    (result : (engine.registries.run task engine.state).1 = .ok value)
    (failed : (call.perform engine).1.error? = some error) :
    ∃ Result extractable source given cause,
      call = .evaluateAsWith Result extractable source given ∧ task = ⟨source, some given, none⟩ ∧
        extractable.coerceFrom value = .error cause ∧ error = .evaluation (.cast cause) := by
  cases call with
  | evaluate source given =>
    cases is
    dsimp only [perform, Answer.ofOutcome, Engine.evaluate] at failed
    rw [fst_reporting, result] at failed
    cases failed
  | evaluateAs => cases is; cases provided
  | evaluateNamed => cases is; cases provided
  | evaluateAsWith Result extractable source given =>
    cases is
    dsimp only [perform, Answer.ofOutcome, Engine.evaluateAsWith] at failed
    rw [fst_reporting, extracted_eq, result] at failed
    unfold readAs at failed
    dsimp only at failed
    cases coerced : extractable.coerceFrom value with
    | error cause =>
      rw [coerced] at failed
      cases failed
      exact ⟨Result, extractable, source, given, cause, rfl, rfl, coerced, rfl⟩
    | ok read =>
      rw [coerced] at failed
      cases failed
  | _ => cases is

end Call

namespace Engine

open Call

/-- A call that ends in an error changes nothing, as long as no host function calls back into the
engine. One more tree may be kept, that of the text of the call. One more result is kept only where
an evaluation came to a value that could not be read as the type asked for. After any evaluation at
most its own result is kept in addition, and no function was invoked then whose results may not
be. -/
theorem failure_changes_nothing (engine : Engine Memory)
    (staysOut : engine.registries.functions.StaysOut) (call : Call Memory) :
    let after := (call.perform engine).2
    (∀ error, (call.perform engine).1.error? = some error →
      engine.Unchanged call.source? after ∧
        (after.state.results = engine.state.results ∨
          ∃ Result extractable source given value cause,
            call = .evaluateAsWith Result extractable source given ∧
              extractable.coerceFrom value = .error cause ∧ error = .evaluation (.cast cause) ∧
              engine.registries.KeepsOwn ⟨source, some given, none⟩ engine.state after.state
                value)) ∧
      ∀ task, call.task? = some task →
        after.state.results = engine.state.results ∨
          ∃ value, engine.registries.KeepsOwn task engine.state after.state value := by
  intro after
  refine ⟨fun error failed => ⟨unchanged_perform_of_failed engine staysOut failed, ?_⟩,
    fun task is => results_perform_task engine staysOut is⟩
  cases is : call.task? with
  | none =>
    rcases results_perform engine is with ⟨invalidates, -⟩ | ⟨-, same, -⟩
    · rw [invalidates_of_failed engine failed] at invalidates
      cases invalidates
    · exact .inl same
  | some task =>
    rcases results_perform_task engine staysOut is with same | ⟨value, keeps⟩
    · exact .inl same
    · obtain ⟨Result, extractable, source, given, cause, called, rfl, coerced, converted⟩ :=
        conversion_of_failed engine is keeps.given keeps.result failed
      exact .inr ⟨Result, extractable, source, given, value, cause, called, coerced, converted,
        keeps⟩

/-- An engine that knows a function which counts its calls, on a platform where time is up at
once. -/
def counting : Engine Nat :=
  (Engine.new ⟨fun _ _ => .reached, 0⟩ {} 0).registerFunction "tick" ⟨none, .any, none, false⟩ tick

theorem staysOut_counting : counting.registries.functions.StaysOut :=
  FunctionRegistry.StaysOut.register (fun _ _ found => by cases found)
    fun _ _ => ⟨id, fun _ => ⟨id, fun _ => trivial⟩⟩

/-- Where only the conversion fails, the value that a variable has is kept. The invocation of a
function whose results may not be kept is written down, and nothing is kept. A call that runs into a
timeout keeps the tree of its text at most. -/
theorem failure_changes_nothing_counting :
    let conversion : Call Nat := .evaluateAsWith Int64 inferInstance "x" (oneVariable "a")
    let counted : Call Nat := .evaluate "tick()" (oneVariable "a")
    let late : Call Nat := .evaluate "1 + 1" .empty
    let hurried :=
      counting.configure ({ · with evaluationTimeout := 10, timeoutCheckInterval := 1 })
    counting.registries.functions.StaysOut ∧
      (conversion.perform counting).1.error? =
        some (.evaluation (.cast ⟨"string", "a", "integer"⟩)) ∧
      counting.Unchanged (some "x") (conversion.perform counting).2 ∧
      (∃ value, counting.registries.KeepsOwn ⟨"x", some (oneVariable "a"), none⟩ counting.state
        (conversion.perform counting).2.state value) ∧
      (counted.perform counting).1.error? = none ∧
      counting.registries.invocations ⟨"tick()", some (oneVariable "a"), none⟩ counting.state ≠ [] ∧
      (counted.perform counting).2.state.results = counting.state.results ∧
      (late.perform hurried).1.error? = some (.evaluation (.timedOut 10)) ∧
      hurried.Unchanged (some "1 + 1") (late.perform hurried).2 := by
  intro conversion counted late hurried
  have failed : (conversion.perform counting).1.error? =
      some (.evaluation (.cast ⟨"string", "a", "integer"⟩)) := by decide +kernel
  have more : (conversion.perform counting).2.state.results.size ≠
      counting.state.results.size := by decide +kernel
  have invoked : (counting.registries.invocations ⟨"tick()", some (oneVariable "a"), none⟩
      counting.state).length = 1 := by decide +kernel
  obtain ⟨unchanged, -⟩ :=
    (failure_changes_nothing counting staysOut_counting conversion).1 _ failed
  have kept := (failure_changes_nothing counting staysOut_counting conversion).2 _ rfl
  have dropped := (failure_changes_nothing counting staysOut_counting counted).2 _ rfl
  have timedOut : (late.perform hurried).1.error? = some (.evaluation (.timedOut 10)) := by
    decide +kernel
  have spared := (failure_changes_nothing hurried staysOut_counting late).1 _ timedOut
  refine ⟨staysOut_counting, failed, unchanged, ?_, by decide +kernel, ?_, ?_, timedOut, spared.1⟩
  · exact kept.resolve_left fun same => more (congrArg Dictionary.size same)
  · intro none
    rw [none] at invoked
    cases invoked
  · refine dropped.resolve_right fun ⟨value, keeps⟩ => ?_
    rw [keeps.uninvoked] at invoked
    cases invoked

end Engine

end Reckon
