/-
This file shows that an engine keeps no tree under a text that it is not the
tree of. Nothing is asked of the host functions for that. They may call back
into the engine as they like, and nested evaluations keep trees of their own;
but all that ever puts a tree into the cache is the search for one, and that
reads the text.

So whatever calls an engine has been through, the search for the tree of a text
ends as the reading of the text does.
-/

import Reckon.Proofs.Engine.Staleness

namespace Reckon

variable {Memory : Type}

namespace Registries

open Evaluation EngineState

/-! ### Evaluations -/

/-- A way back into the engine that keeps right trees only. -/
def KeepsTreesRight (reenter : Reenter Memory) : Prop :=
  ∀ source given state, state.KeepsRightTrees → (reenter source given state).2.KeepsRightTrees

variable {registries : Registries Memory} {reenter : Reenter Memory} {state : EngineState Memory}

/-- Whatever a host function asks for, the kept trees stay right. -/
theorem maintains_rightTrees_runProgram (registries : Registries Memory) (begun : Nat)
    (back : KeepsTreesRight reenter) (configuration : Configuration)
    {interpret : Nat → Expression → Evaluation Memory Value}
    (interprets : ∀ depth tree, (interpret depth tree).Maintains fun machine =>
      machine.engine.KeepsRightTrees) (program : HostProgram Memory) :
    (runProgram ((registries.setting begun reenter configuration).answering interpret)
      program).Maintains fun machine => machine.engine.KeepsRightTrees := by
  induction program with
  | done result => exact fun _ right => right
  | ask request next inductionHypothesis =>
    refine Maintains.bind (fun machine right => ?_) inductionHypothesis
    cases request with
    | evaluate source given => exact back source given machine.engine right
    | interpret tree environment depth =>
      exact maintains_interpret KeepsRightTrees interprets tree environment depth machine right
    | _ => exact right

theorem evaluation_rightTrees (registries : Registries Memory) (back : KeepsTreesRight reenter)
    (configuration : Configuration) (given : Dictionary String Value) (tree : Expression)
    (right : state.KeepsRightTrees) :
    (registries.evaluation reenter configuration given tree
      state).2.engine.KeepsRightTrees :=
  maintains_evaluate (registries.setting state.begun reenter configuration) KeepsRightTrees
    (fun _ _ _ right => right)
    (fun _ interprets _ _ program _ _ arguments hint =>
      maintains_rightTrees_runProgram registries state.begun back configuration interprets
        (program arguments hint))
    0 tree (.start (.ofVariables given) state) right

/-! ### Work on a task -/

theorem trees_afterResult (generation : Nat) (key : Option CacheKey) (result : Value)
    (machine : Machine Memory) :
    (afterResult generation key result machine).trees = machine.engine.trees := by
  unfold afterResult EngineState.keepResult
  cases key with
  | none => rfl
  | some key =>
    dsimp only
    split
    · split <;> rfl
    · rfl

theorem evaluateTree_rightTrees (registries : Registries Memory) (back : KeepsTreesRight reenter)
    (configuration : Configuration) (generation : Nat) (key : Option CacheKey)
    (merged : Dictionary String Value) (tree : Expression) (right : state.KeepsRightTrees) :
    (registries.evaluateTree reenter configuration generation key merged tree
      state).2.KeepsRightTrees := by
  have evaluated := evaluation_rightTrees registries back configuration merged tree right
  rw [evaluateTree_eq]
  generalize registries.evaluation reenter configuration merged tree state = run at evaluated ⊢
  rcases run with ⟨error | result, machine⟩
  · exact evaluated
  · have kept := evaluated.congr (trees_afterResult generation key result machine)
    exact kept.noted (notedFrom_note_log _ _ _ _ _)

theorem workAfresh_rightTrees (registries : Registries Memory) (back : KeepsTreesRight reenter)
    (task : Task) (text : String) (configuration : Configuration) (generation : Nat)
    (key : Option CacheKey) (merged : Dictionary String Value) (right : state.KeepsRightTrees) :
    (registries.workAfresh reenter task text configuration generation key merged
      state).2.KeepsRightTrees := by
  have searched := (right.treeOf configuration text).2
  unfold workAfresh
  generalize state.treeOf configuration text = search at searched ⊢
  rcases search with ⟨error | tree, after⟩
  · exact searched
  · exact evaluateTree_rightTrees registries back configuration generation key merged _ searched

theorem runText_rightTrees (registries : Registries Memory) (back : KeepsTreesRight reenter)
    (task : Task) (text : String) (right : state.KeepsRightTrees) :
    (registries.runText reenter task text state).2.KeepsRightTrees := by
  have begins : state.begin.KeepsRightTrees := right
  have logged := begins.noted (notedFrom_log state.begin state.configuration
    "Evaluating expression: \x7b\x7d" [.text text])
  rw [runText_eq]
  dsimp only
  generalize state.begin.log state.configuration "Evaluating expression: \x7b\x7d" [.text text] =
    begun at logged ⊢
  cases task.key? state.configuration text (task.mergedVariables begun.defaults) with
  | none => exact workAfresh_rightTrees registries back _ _ _ _ _ _ logged
  | some key =>
    have asked := logged.noted (keptResult_eq begun state.configuration text key).2
    dsimp only
    generalize begun.keptResult state.configuration text key = lookup at asked ⊢
    rcases lookup with ⟨_ | result, after⟩
    · exact workAfresh_rightTrees registries back _ _ _ _ _ _ asked
    · exact asked

theorem keepsTreesRight_backThrough
    {work : Task → EngineState Memory → Except EngineError Value × EngineState Memory}
    (right : ∀ task state, state.KeepsRightTrees → (work task state).2.KeepsRightTrees) :
    KeepsTreesRight (backThrough work) := by
  intro source given state before
  have worked := right ⟨source, some given, none⟩ state before
  unfold backThrough
  generalize work ⟨source, some given, none⟩ state = answered at worked ⊢
  rcases answered with ⟨error | result, after⟩
  · exact worked.noted (notedFrom_report after error)
  · exact worked

theorem runWithin_rightTrees (registries : Registries Memory) (reentries : Nat) (task : Task)
    (state : EngineState Memory) (right : state.KeepsRightTrees) :
    (registries.runWithin reentries task state).2.KeepsRightTrees := by
  induction reentries generalizing task state with
  | zero => exact right
  | succ reentries inductionHypothesis =>
    unfold runWithin
    dsimp only
    split
    · exact right
    · exact runText_rightTrees registries (keepsTreesRight_backThrough inductionHypothesis) task _
        right

/-- Work on a task leaves the kept trees right. -/
theorem run_rightTrees (registries : Registries Memory) (task : Task)
    (right : state.KeepsRightTrees) : (registries.run task state).2.KeepsRightTrees :=
  runWithin_rightTrees registries _ task state right

end Registries

/-! ### Calls -/

namespace Engine

open EngineState

variable {engine : Engine Memory}

theorem rightTrees_compile (right : engine.state.KeepsRightTrees) (source : String) :
    (engine.compile source).2.state.KeepsRightTrees := by
  unfold compile
  dsimp only
  split
  · exact right.noted (notedFrom_reporting engine (_, engine.state))
  · exact (right.treeOf _ _).2.noted (notedFrom_reporting engine _)

end Engine

namespace Call

open Engine EngineState

/-- A call leaves the kept trees right. -/
theorem perform_rightTrees {engine : Engine Memory} (right : engine.state.KeepsRightTrees)
    (call : Call Memory) : (call.perform engine).2.state.KeepsRightTrees := by
  cases is : call.task? with
  | some task =>
    exact (engine.registries.run_rightTrees task right).noted (notedFrom_perform engine is)
  | none =>
    cases call with
    | evaluate | evaluateAs | evaluateAsWith | evaluateNamed => cases is
    | compile source =>
      dsimp only [perform, Answer.ofOutcome]
      exact rightTrees_compile right source
    | validate source =>
      simp only [perform, Answer.ofOutcome, validate_eq]
      exact rightTrees_compile right source
    | format source layout =>
      simp only [perform, Answer.ofOutcome, format_eq]
      exact rightTrees_compile right source
    | defineFunction definition =>
      dsimp only [perform, Answer.ofOutcome]
      unfold Engine.defineFunction
      cases FunctionDefinition.parse definition with
      | error cause => exact right.noted (notedFrom_reporting engine (_, engine.state))
      | ok definition => exact right
    | unregisterFunction name =>
      dsimp only [perform]
      unfold Engine.unregisterFunction
      split <;> exact right
    | removeContext name =>
      dsimp only [perform]
      unfold Engine.removeContext
      split <;> exact right
    | clearCaches => exact fun text tree found => by cases found
    | _ => exact right

end Call

namespace Engine

open EngineState

theorem answerAll_rightTrees (calls : List (Call Memory)) {engine : Engine Memory}
    (right : engine.state.KeepsRightTrees) :
    (engine.answerAll id calls).2.state.KeepsRightTrees := by
  induction calls generalizing engine with
  | nil => exact right
  | cons call rest inductionHypothesis =>
    rw [answerAll_cons]
    exact inductionHypothesis (call.perform_rightTrees right)

/-- Whatever calls an engine has been through, it keeps right trees only. -/
theorem rightTrees_of_calls (platform : Platform) (configuration : Configuration)
    (memory : Memory) (calls : List (Call Memory)) :
    ((Engine.new platform configuration memory).answerAll id calls).2.state.KeepsRightTrees :=
  answerAll_rightTrees calls fun _ _ found => by cases found

end Engine

end Reckon
