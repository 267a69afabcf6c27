/-
This file shows that no call of an engine is answered with the error of a
look-up: neither does a conditional run out of branches, nor is the operation
behind an operator unknown. It is so whatever the engine has been through, as
long as no function of the host and no operation raises these errors itself.

An engine holds no tree of which that could not be said. Those it keeps are
trees of texts, the bodies of its functions were read from definitions, and
operations are replaced but never removed. A function of the host may have the
engine evaluate further texts, and they are no exception.
-/

import Reckon.Proofs.Engine.KeptTrees
import Reckon.Proofs.Evaluation.LookUps

namespace Reckon

variable {Memory : Type}

namespace Registries

open Coupling Evaluation EngineState

variable {registries : Registries Memory} {reenter : Reenter Memory} {state : EngineState Memory}

/-! ### Ways back into the engine -/

open Classical in
/-- A way back into the engine that is closed to states with a wrong tree. -/
noncomputable def guarded (reenter : Reenter Memory) : Reenter Memory :=
  fun source given state =>
    if state.KeepsRightTrees then reenter source given state else (.error .emptyExpression, state)

theorem guarded_of_rightTrees (right : state.KeepsRightTrees) (source : String)
    (given : Dictionary String Value) :
    guarded reenter source given state = reenter source given state :=
  if_pos right

/-- One state, which keeps right trees only. -/
def SameRightTrees (state state' : EngineState Memory) : Prop :=
  state = state' ∧ state.KeepsRightTrees

theorem survivesNotes_sameRightTrees :
    SurvivesNotes (SameRightTrees : EngineState Memory → EngineState Memory → Prop) where
  note _ _ event := fun ⟨same, right⟩ =>
    ⟨congrArg (note · event) same, right.congr rfl⟩

section Guarded

variable {begun : Nat} {configuration : Configuration}
  {interpret interpret' : Nat → Expression → Evaluation Memory Value}
  {likeness : Environment.Likeness}

/-- As long as all kept trees are right, it makes no difference that the way back is guarded. -/
theorem simulates_respond_guarded (back : KeepsTreesRight reenter)
    (interprets : (alike .identity SameRightTrees False).InterpretsAlike
      ((registries.setting begun reenter configuration).answering interpret)
      ((registries.setting begun (guarded reenter) configuration).answering interpret'))
    (level : Nat) (request : Request Memory) :
    (alike likeness SameRightTrees False).Simulates level
      (respond ((registries.setting begun reenter configuration).answering interpret) request)
      (respond ((registries.setting begun (guarded reenter) configuration).answering interpret')
        request) := by
  cases request with
  | interpret tree environment depth => exact interpret_alike interprets tree environment depth
  | evaluate source given =>
    refine evaluateText_alike (fun source given state state' ⟨same, right⟩ => ?_) source given
    subst same
    show (reenter source given state).1 = (guarded reenter source given state).1 ∧
      SameRightTrees (reenter source given state).2 (guarded reenter source given state).2
    rw [guarded_of_rightTrees right]
    exact ⟨rfl, rfl, back source given state right⟩
  | _ =>
    refine ⟨fun machine machine' together => Or.inl ?_, fun _ _ _ parted => parted.1.elim⟩
    obtain ⟨environment, visits, callDepth, cacheable, engine⟩ := machine
    obtain ⟨environment', visits', callDepth', cacheable', engine'⟩ := machine'
    obtain ⟨environments, rfl, rfl, rfl, rfl, right⟩ := together
    exact ⟨.same _, environments, rfl, rfl, rfl, rfl, right⟩

theorem nestings_guarded (registries : Registries Memory) (back : KeepsTreesRight reenter)
    (begun : Nat) (configuration : Configuration) (likeness : Environment.Likeness) :
    NestingsAlike likeness SameRightTrees False (registries.setting begun reenter configuration)
      (registries.setting begun (guarded reenter) configuration) := by
  intro interpret interpret' interprets
  refine ⟨rfl, rfl, rfl, rfl, fun _ unknown => unknown, fun name function found => ?_⟩
  refine ⟨function, found, rfl, ?_⟩
  cases function.callable with
  | defined parameters body => exact .defined parameters body
  | host host =>
    refine .host (fun _ _ _ _ _ parted => parted.1.elim) fun _ level arguments hint => ?_
    induction host arguments hint with
    | done result => exact simulates_ofExcept result
    | ask request next inductionHypothesis =>
      exact (simulates_respond_guarded back interprets level request).bind inductionHypothesis

end Guarded

theorem evaluation_guarded (registries : Registries Memory) (back : KeepsTreesRight reenter)
    (configuration : Configuration) (given : Dictionary String Value) (tree : Expression)
    (right : state.KeepsRightTrees) :
    (registries.evaluation reenter configuration given tree state).1 =
      (registries.evaluation (guarded reenter) configuration given tree state).1 := by
  have simulates : Simulates (alike .identity _ False) 0 _ _ :=
    evaluate_alike survivesNotes_sameRightTrees (by rfl)
      (nestings_guarded registries back state.begun configuration) 0 tree
  rcases (simulates.1 (.start (.ofVariables given) state) (.start (.ofVariables given) state)
    ⟨rfl, rfl, rfl, rfl, rfl, right⟩).equal fun _ _ => id with same | parted
  · exact same.1
  · exact parted.1.elim

/-! ### Work on a task -/

/-- Whether nothing that an engine knows by name raises an error of a look-up itself. -/
structure LeavesLookUps (registries : Registries Memory) : Prop where
  operations : registries.operations.LeavesLookUps
  functions : registries.functions.LeavesLookUps

/-- A way back into the engine that answers with no error of a look-up where all kept trees are
right. -/
def BackLeavesLookUps (reenter : Reenter Memory) : Prop :=
  ∀ source given state, state.KeepsRightTrees →
    ∀ error, (reenter source given state).1 = .error error → error.isOfLookUp = false

theorem evaluateTree_leavesLookUps (leaves : registries.LeavesLookUps)
    (back : KeepsTreesRight reenter) (backLeaves : BackLeavesLookUps reenter)
    (configuration : Configuration) (generation : Nat) (key : Option CacheKey)
    (merged : Dictionary String Value) {tree : Expression} (always : tree.AlwaysMatches)
    (right : state.KeepsRightTrees) {error : EngineError}
    (failed : (registries.evaluateTree reenter configuration generation key merged tree state).1 =
      .error error) : error.isOfLookUp = false := by
  have guardedLeaves : ∀ source given state error,
      (guarded reenter source given state).1 = .error error → error.isOfLookUp = false := by
    intro source given state error failed
    by_cases right : state.KeepsRightTrees
    · rw [guarded_of_rightTrees right] at failed
      exact backLeaves source given state right error failed
    · rw [guarded, if_neg right] at failed
      cases failed
      rfl
  have raises := @raisesOnly_evaluate _
    (registries.setting state.begun (guarded reenter) configuration)
    leaves.operations leaves.functions guardedLeaves 0 tree always
    (.start (.ofVariables merged) state)
  have same := evaluation_guarded registries back configuration merged tree right
  rw [evaluateTree_eq] at failed
  generalize registries.evaluation reenter configuration merged tree state = run at same failed
  rcases run with ⟨cause | result, machine⟩
  · cases failed
    exact raises cause same.symm
  · cases failed

theorem alwaysMatches_wrap (task : Task) {tree : Expression} (always : tree.AlwaysMatches) :
    (task.wrap tree).AlwaysMatches := by
  unfold Task.wrap
  split
  · exact Expression.alwaysMatches_cast _ always
  · exact always

theorem workAfresh_leavesLookUps (leaves : registries.LeavesLookUps)
    (back : KeepsTreesRight reenter) (backLeaves : BackLeavesLookUps reenter) (task : Task)
    (text : String) (configuration : Configuration) (generation : Nat) (key : Option CacheKey)
    (merged : Dictionary String Value) (right : state.KeepsRightTrees) {error : EngineError}
    (failed : (registries.workAfresh reenter task text configuration generation key merged
      state).1 = .error error) : error.isOfLookUp = false := by
  obtain ⟨found, searched⟩ := right.treeOf configuration text
  unfold workAfresh at failed
  generalize state.treeOf configuration text = search at found searched failed
  rcases search with ⟨outcome, after⟩
  obtain rfl : outcome = _ := found
  cases parsed : Expression.parse text with
  | error fault =>
    rw [parsed] at failed
    cases failed
    rfl
  | ok tree =>
    rw [parsed] at failed
    exact evaluateTree_leavesLookUps leaves back backLeaves configuration generation key merged
      (alwaysMatches_wrap task (Expression.alwaysMatches_of_parse parsed)) searched failed

theorem runText_leavesLookUps (leaves : registries.LeavesLookUps) (back : KeepsTreesRight reenter)
    (backLeaves : BackLeavesLookUps reenter) (task : Task) (text : String)
    (right : state.KeepsRightTrees) {error : EngineError}
    (failed : (registries.runText reenter task text state).1 = .error error) :
    error.isOfLookUp = false := by
  have begins : state.begin.KeepsRightTrees := right
  have logged := begins.noted (notedFrom_log state.begin state.configuration
    "Evaluating expression: \x7b\x7d" [.text text])
  rw [runText_eq] at failed
  dsimp only at failed
  generalize state.begin.log state.configuration "Evaluating expression: \x7b\x7d" [.text text] =
    begun at logged failed
  generalize task.key? state.configuration text (task.mergedVariables begun.defaults) = key
    at failed
  cases key with
  | none => exact workAfresh_leavesLookUps leaves back backLeaves _ _ _ _ _ _ logged failed
  | some key =>
    have asked := logged.noted (keptResult_eq begun state.configuration text key).2
    dsimp only at failed
    generalize begun.keptResult state.configuration text key = lookup at asked failed
    rcases lookup with ⟨_ | result, after⟩
    · exact workAfresh_leavesLookUps leaves back backLeaves _ _ _ _ _ _ asked failed
    · cases failed

theorem backLeavesLookUps_backThrough
    {work : Task → EngineState Memory → Except EngineError Value × EngineState Memory}
    (leaves : ∀ task state, state.KeepsRightTrees → ∀ error, (work task state).1 = .error error →
      error.isOfLookUp = false) : BackLeavesLookUps (backThrough work) := by
  intro source given state right error failed
  have worked := leaves ⟨source, some given, none⟩ state right
  unfold backThrough at failed
  generalize work ⟨source, some given, none⟩ state = answered at worked failed
  rcases answered with ⟨cause | result, after⟩
  · exact worked error failed
  · cases failed

/-- However evaluations are nested, none of them ends in an error of a look-up. -/
theorem runWithin_leavesLookUps (leaves : registries.LeavesLookUps) (reentries : Nat)
    (task : Task) (state : EngineState Memory) (right : state.KeepsRightTrees)
    (error : EngineError) (failed : (registries.runWithin reentries task state).1 = .error error) :
    error.isOfLookUp = false := by
  induction reentries generalizing task state error with
  | zero =>
    cases failed
    rfl
  | succ reentries inductionHypothesis =>
    unfold runWithin at failed
    dsimp only at failed
    split at failed
    · cases failed
      rfl
    · exact runText_leavesLookUps leaves
        (keepsTreesRight_backThrough (registries.runWithin_rightTrees reentries))
        (backLeavesLookUps_backThrough inductionHypothesis) task _ right failed

end Registries

/-! ### Calls -/

namespace Engine

variable {engine : Engine Memory}

/-- An engine that knows nothing by name that raises an error of a look-up itself, and keeps right
trees only. -/
structure LeavesLookUps (engine : Engine Memory) : Prop where
  registries : engine.registries.LeavesLookUps
  trees : engine.state.KeepsRightTrees

theorem LeavesLookUps.run (leaves : engine.LeavesLookUps) (task : Task) {error : EngineError}
    (failed : (engine.registries.run task engine.state).1 = .error error) :
    error.isOfLookUp = false :=
  Registries.runWithin_leavesLookUps leaves.registries _ task _ leaves.trees error failed

theorem LeavesLookUps.evaluate (leaves : engine.LeavesLookUps) {source : String}
    {given : Dictionary String Value} {error : EngineError}
    (failed : (engine.evaluate source given).1 = .error error) : error.isOfLookUp = false := by
  unfold Engine.evaluate at failed
  rw [fst_reporting] at failed
  exact leaves.run _ failed

theorem LeavesLookUps.evaluateNamed (leaves : engine.LeavesLookUps) {source typeName : String}
    {error : EngineError} (failed : (engine.evaluateNamed source typeName).1 = .error error) :
    error.isOfLookUp = false := by
  unfold Engine.evaluateNamed at failed
  rw [fst_reporting] at failed
  exact leaves.run _ failed

/-- Reading the result as another type adds only the errors of casts. -/
theorem LeavesLookUps.extracted (leaves : engine.LeavesLookUps) {Result : Type}
    [Extractable Result] {task : Task} {error : EngineError}
    (failed : (engine.reporting (extracted (engine.registries.run task engine.state) :
      Except EngineError Result × EngineState Memory)).1 = .error error) :
    error.isOfLookUp = false := by
  rw [fst_reporting, extracted_eq] at failed
  cases outcome : (engine.registries.run task engine.state).1 with
  | error cause =>
    rw [outcome] at failed
    cases failed
    exact leaves.run task outcome
  | ok value =>
    rw [outcome] at failed
    unfold readAs at failed
    dsimp only at failed
    cases cast : (Extractable.coerceFrom value : Except CastError Result) with
    | error cause =>
      rw [cast] at failed
      cases failed
      rfl
    | ok result =>
      rw [cast] at failed
      cases failed

end Engine

namespace Call

open Engine

/-- Whether a call adds no function of the host and no operation that raises an error of a look-up
itself. -/
def LeavesLookUps : Call Memory → Prop
  | .registerFunction _ _ function =>
    ∀ arguments hint, (function arguments hint).LeavesLookUps
  | .registerOperation operation | .registerOperationUnnoticed operation =>
    operation.LeavesLookUps
  | _ => True

/-- What an engine knows by name after a call raises no error of a look-up either. -/
theorem registries_leavesLookUps {engine : Engine Memory}
    (leaves : engine.registries.LeavesLookUps) {call : Call Memory}
    (leavesToo : call.LeavesLookUps) : (call.perform engine).2.registries.LeavesLookUps := by
  cases call with
  | registerFunction name signature function =>
    exact ⟨leaves.operations, leaves.functions.register leavesToo⟩
  | registerOperation operation | registerOperationUnnoticed operation =>
    exact ⟨leaves.operations.register leavesToo, leaves.functions⟩
  | unregisterFunction name =>
    dsimp only [perform]
    unfold Engine.unregisterFunction
    split
    · exact ⟨leaves.operations, leaves.functions.unregister name⟩
    · exact leaves
  | defineFunction definition =>
    dsimp only [perform, Answer.ofOutcome]
    unfold Engine.defineFunction
    cases parsed : FunctionDefinition.parse definition with
    | error cause => exact leaves
    | ok read =>
      have body : (read.toFunction : RegisteredFunction Memory).callable.LeavesLookUps :=
        FunctionDefinition.alwaysMatches_of_parse parsed
      exact ⟨leaves.operations, leaves.functions.register body⟩
  | registerType table name resolver => exact ⟨leaves.operations, leaves.functions⟩
  | evaluate | evaluateAs | evaluateAsWith | evaluateNamed | compile =>
    dsimp only [perform, Answer.ofOutcome, Engine.evaluate, Engine.evaluateAs,
      Engine.evaluateAsWith, Engine.evaluateNamed, Engine.compile]
    rw [registries_reporting]
    exact leaves
  | validate source =>
    dsimp only [perform, Answer.ofOutcome]
    rw [validate_eq]
    dsimp only [Engine.compile]
    rw [registries_reporting]
    exact leaves
  | format source layout =>
    dsimp only [perform, Answer.ofOutcome]
    rw [format_eq]
    dsimp only [Engine.compile]
    rw [registries_reporting]
    exact leaves
  | removeContext name =>
    dsimp only [perform]
    unfold Engine.removeContext
    split <;> exact leaves
  | _ => exact leaves

theorem perform_leavesLookUps {engine : Engine Memory} (leaves : engine.LeavesLookUps)
    {call : Call Memory} (leavesToo : call.LeavesLookUps) :
    (call.perform engine).2.LeavesLookUps :=
  ⟨registries_leavesLookUps leaves.registries leavesToo, call.perform_rightTrees leaves.trees⟩

end Call

namespace Engine

theorem answerAll_leavesLookUps {calls : List (Call Memory)}
    (leavesToo : ∀ call ∈ calls, call.LeavesLookUps) {engine : Engine Memory}
    (leaves : engine.LeavesLookUps) : (engine.answerAll id calls).2.LeavesLookUps := by
  induction calls generalizing engine with
  | nil => exact leaves
  | cons call rest inductionHypothesis =>
    obtain ⟨first, later⟩ := List.forall_mem_cons.1 leavesToo
    rw [answerAll_cons]
    exact inductionHypothesis later (Call.perform_leavesLookUps leaves first)

theorem leavesLookUps_new (platform : Platform) (configuration : Configuration)
    (memory : Memory) : (Engine.new platform configuration memory).LeavesLookUps where
  registries := ⟨OperationRegistry.leavesLookUps_builtIn, nofun⟩
  trees := nofun

/-- Whatever a new engine has been through, it finishes no evaluation for want of a branch or of an
operation, as long as no function of the host and no operation raises these errors itself. -/
theorem looks_nothing_up_in_vain (platform : Platform) (configuration : Configuration)
    (memory : Memory) (calls : List (Call Memory)) (leaves : ∀ call ∈ calls, call.LeavesLookUps)
    (error : EngineError) :
    let engine := ((Engine.new platform configuration memory).answerAll id calls).2
    (∀ source given, (engine.evaluate source given).1 = .error error →
      error.isOfLookUp = false) ∧
    (∀ (Result : Type) [Extractable Result] source,
      (engine.evaluateAs Result source).1 = .error error → error.isOfLookUp = false) ∧
    (∀ (Result : Type) [Extractable Result] source given,
      (engine.evaluateAsWith Result source given).1 = .error error → error.isOfLookUp = false) ∧
    ∀ source typeName, (engine.evaluateNamed source typeName).1 = .error error →
      error.isOfLookUp = false := by
  have reached := answerAll_leavesLookUps leaves (leavesLookUps_new platform configuration memory)
  exact ⟨fun _ _ => reached.evaluate, fun _ _ _ => reached.extracted,
    fun _ _ _ _ => reached.extracted, fun _ _ => reached.evaluateNamed⟩

/-- The outcome of an evaluation inside a function, handed on as the outcome of the function. -/
def handOn : Except EngineError Value → Except EvaluationError Value
  | .ok value => .ok value
  | .error (.evaluation cause) => .error cause
  | .error other => .error (.hostFunction other.message)

/-- Calls that add a function which has the engine evaluate a conditional and hands on what comes
of it, put another operation in the place of addition, and define a function by a conditional. -/
def relaying : List (Call Unit) := [
  .registerFunction "relay" .any fun _ _ =>
    .ask (.evaluate "if 1 > 2: 1 else: 1 / 0" .empty) fun answer => .done (handOn answer),
  .registerOperation ⟨"Addition", fun first _ => .ok first⟩,
  .defineFunction "choose(x) => if x: x + 1 else: 2"]

theorem leavesLookUps_relaying : ∀ call ∈ relaying, call.LeavesLookUps := by
  refine List.forall_mem_cons.2 ⟨fun arguments hint answer leaves error failed => ?_,
    List.forall_mem_cons.2 ⟨fun first second error failed => ?_,
      List.forall_mem_singleton.2 trivial⟩⟩
  · cases answer with
    | ok value => cases failed
    | error cause =>
      cases cause with
      | evaluation cause =>
        cases failed
        exact leaves _ rfl
      | _ =>
        cases failed
        rfl
  · cases failed

theorem looks_nothing_up_in_vain_relaying :
    let platform : Platform := ⟨fun _ _ => .distant, 1⟩
    let engine := ((Engine.new platform {} ()).answerAll id relaying).2
    (∀ call ∈ relaying, call.LeavesLookUps) ∧
      (engine.evaluate "choose(relay())" .empty).1 = .error (.evaluation .divisionByZero) ∧
      EngineError.isOfLookUp (.evaluation .divisionByZero) = false := by
  intro platform engine
  have outcome : (engine.evaluate "choose(relay())" .empty).1 =
      .error (.evaluation .divisionByZero) := by
    have failed : (match (engine.evaluate "choose(relay())" .empty).1 with
      | .ok _ => none
      | .error cause => some cause) = some (EngineError.evaluation .divisionByZero) := by
      decide +kernel
    split at failed
    · cases failed
    next is => rw [is, Option.some.inj failed]
  exact ⟨leavesLookUps_relaying, outcome,
    (looks_nothing_up_in_vain platform {} () relaying leavesLookUps_relaying _).1 _ _ outcome⟩

end Engine

end Reckon
