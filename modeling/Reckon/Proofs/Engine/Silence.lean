/-
This file shows that an engine takes no notice of its journal: from two states
that differ in the journal only, work on a task gives the same answer, and
leaves two such states. A host function that calls back into the engine learns
nothing about the journal either.

So evaluations may be compared that leave different entries there, because they
visit other nodes or the same nodes at other depths. What such a comparison
needs of the two machines while a host function runs is stated for all couplings
at once.
-/

import Reckon.Proofs.Engine.Erasure

namespace Reckon

variable {Memory Result : Type}

/-! ### States without their journals -/

namespace EngineState

/-- The state with an empty journal. -/
def silent (state : EngineState Memory) : EngineState Memory :=
  { state with journal := [] }

/-- States that differ in the journal only. -/
def SameButJournal (state state' : EngineState Memory) : Prop :=
  state.silent = state'.silent

theorem SameButJournal.refl (state : EngineState Memory) : state.SameButJournal state := rfl

theorem silent_log (state : EngineState Memory) (configuration : Configuration)
    (message : String) (arguments : List Value) :
    (state.log configuration message arguments).silent = state.silent := by
  unfold EngineState.log
  split <;> rfl

theorem silent_report (state : EngineState Memory) (error : EngineError) :
    (state.report error).silent = state.silent := by
  unfold EngineState.report
  dsimp only
  split <;> rfl

theorem silent_keepResult (state : EngineState Memory) (generation : Nat) (key : CacheKey)
    (result : Value) :
    (state.keepResult generation key result).silent =
      state.silent.keepResult generation key result :=
  apply_ite EngineState.silent _ _ _

/-- A question that is not about the journal has one answer in both states. -/
theorem SameButJournal.ask {Answer : Type} {state state' : EngineState Memory}
    (same : state.SameButJournal state') (question : EngineState Memory → Answer)
    (elsewhere : ∀ state, question state.silent = question state) :
    question state = question state' := by
  rw [← elsewhere state, ← elsewhere state', show state.silent = state'.silent from same]

/-- A change that does not depend on the journal leaves two such states. -/
theorem SameButJournal.change {state state' : EngineState Memory}
    (same : state.SameButJournal state') (change : EngineState Memory → EngineState Memory)
    (elsewhere : ∀ state, (change state.silent).silent = (change state).silent) :
    (change state).SameButJournal (change state') :=
  same.ask (fun state => (change state).silent) elsewhere

theorem survivesNotes_sameButJournal :
    Coupling.SurvivesNotes (SameButJournal : EngineState Memory → EngineState Memory → Prop) :=
  ⟨fun _ _ _ same => same⟩

end EngineState

/-- What is left of an answer and a state without the journal. -/
def silencing (pair : Result × EngineState Memory) : Result × EngineState Memory :=
  (pair.1, pair.2.silent)

namespace EngineState

variable {state state' : EngineState Memory}

theorem silencing_treeOf (state : EngineState Memory) (configuration : Configuration)
    (text : String) :
    silencing (state.silent.treeOf configuration text) =
      silencing (state.treeOf configuration text) := by
  unfold EngineState.treeOf silencing
  rw [show state.silent.trees = state.trees from rfl]
  cases state.trees.get? text with
  | some tree =>
    dsimp only
    rw [silent_log, silent_log]
    rfl
  | none =>
    have missed : ∀ state : EngineState Memory,
        ((state.note (.treeLookup false text)).log configuration
          "Cache miss for parse: \x7b\x7d" [.text text]).silent = state.silent :=
      fun _ => silent_log _ _ _ _
    have keeps : ∀ (state : EngineState Memory) tree,
        silent { state with trees := state.trees.insert text tree } =
          { state.silent with trees := state.silent.trees.insert text tree } := fun _ _ => rfl
    cases Expression.parse text with
    | error cause =>
      dsimp only
      rw [missed, missed]
      rfl
    | ok tree =>
      dsimp only
      rw [keeps, keeps, missed, missed]
      rfl

theorem silencing_keptResult (state : EngineState Memory) (configuration : Configuration)
    (text : String) (key : CacheKey) :
    silencing (state.silent.keptResult configuration text key) =
      silencing (state.keptResult configuration text key) := by
  unfold EngineState.keptResult silencing
  rw [show state.silent.results = state.results from rfl]
  cases state.results.get? key with
  | some kept =>
    dsimp only
    rw [silent_log, silent_log]
    rfl
  | none =>
    dsimp only
    rw [silent_log, silent_log]
    rfl

end EngineState

/-! ### Host functions -/

namespace Request

/-- Whether a request asks where in the course of an evaluation it is made: how many nodes have
been visited, or how deep the call is. -/
def AsksWhere : Request Memory → Prop
  | .callDepth => True
  | .visits => True
  | _ => False

end Request

namespace Registries

/-- A way back into the engine that takes no notice of the journal. -/
def IgnoresJournal (reenter : Reenter Memory) : Prop :=
  ∀ source given state,
    silencing (reenter source given state.silent) = silencing (reenter source given state)

end Registries

namespace Coupling

/-- A coupling of evaluations in engines that are the same but for their journals, where it does
not matter what the first one does after the two have parted. -/
structure Quiet (coupling : Coupling Memory Memory) : Prop where
  cacheable : ∀ {level machine machine'}, coupling.together level machine machine' →
    machine.cacheable = machine'.cacheable
  engine : ∀ {level machine machine'}, coupling.together level machine machine' →
    machine.engine.SameButJournal machine'.engine
  forbid : ∀ {level machine machine'}, coupling.together level machine machine' →
    coupling.together level { machine with cacheable := false } { machine' with cacheable := false }
  renew : ∀ {level machine machine'} {engine engine' : EngineState Memory},
    coupling.together level machine machine' → engine.SameButJournal engine' →
      coupling.together level { machine with engine } { machine' with engine := engine' }
  parted : ∀ {machine failure machine'} (other : Machine Memory),
    coupling.parted machine failure machine' → coupling.parted other failure machine'

variable {coupling : Coupling Memory Memory} {setting : NestedSetting Memory} {level : Nat}

theorem Quiet.keeps (quiet : coupling.Quiet) (action : Evaluation Memory Result) :
    coupling.Keeps action :=
  fun _ _ _ parted => quiet.parted _ parted

/-- A request that does not ask where it is made is answered alike, if it is not for the evaluation
of a tree. The two settings may evaluate trees for host functions in different ways. -/
theorem Quiet.respond (quiet : coupling.Quiet) {setting : Setting Memory}
    (ignores : Registries.IgnoresJournal setting.reenter)
    (interpret interpret' : Nat → Expression → Evaluation Memory Value) (request : Request Memory)
    (elsewhere : ¬ request.AsksWhere) (plain : ¬ request.IsForTree) :
    coupling.Simulates level (Evaluation.respond (setting.answering interpret) request)
      (Evaluation.respond (setting.answering interpret') request) := by
  refine ⟨fun machine machine' together => Or.inl ?_, quiet.keeps _⟩
  have cacheable := quiet.cacheable together
  have engine := quiet.engine together
  cases request with
  | context name =>
    refine ⟨.of_eq (congrArg Except.ok ?_), together⟩
    exact engine.ask (fun state => state.context.get? name) fun _ => rfl
  | callDepth => exact absurd trivial elsewhere
  | visits => exact absurd trivial elsewhere
  | configuration => exact ⟨.same _, together⟩
  | isCacheable => exact ⟨.of_eq (congrArg Except.ok cacheable), together⟩
  | hasDeadline => exact ⟨.same _, together⟩
  | forbidCaching => exact ⟨.same _, quiet.forbid together⟩
  | coerce value typeName => exact ⟨.same _, together⟩
  | «recall» =>
    exact ⟨.of_eq (congrArg Except.ok (engine.ask EngineState.memory fun _ => rfl)), together⟩
  | store memory =>
    exact ⟨.same _, quiet.renew together (engine.change ({ · with memory }) fun _ => rfl)⟩
  | putContext name value =>
    exact ⟨.same _, quiet.renew together (engine.change (·.putContext name value) fun _ => rfl)⟩
  | setStrictMode on =>
    exact ⟨.same _, quiet.renew together (engine.change (·.setStrictMode on) fun _ => rfl)⟩
  | interpret tree environment depth => exact absurd trivial plain
  | evaluate source given =>
    have back := engine.ask (fun state => silencing (setting.reenter source given state))
      (ignores source given)
    obtain ⟨answer, left⟩ := Prod.mk.inj back
    unfold Evaluation.respond
    dsimp only [Setting.answering]
    rw [show (setting.reenter source given machine.engine).1 = _ from answer]
    exact ⟨.same _, quiet.renew together left⟩

theorem quiet_alike (likeness : Environment.Likeness) :
    (alike likeness EngineState.SameButJournal False : Coupling Memory Memory).Quiet where
  cacheable together := together.cacheable
  engine together := together.engine
  forbid together := { together with cacheable := rfl }
  renew together engine := { together with engine }
  parted _ parted := parted.1.elim

end Coupling

/-! ### Work on a task -/

namespace Registries

open Coupling EngineState

variable {registries : Registries Memory} {reenter : Reenter Memory}

/-- Evaluations in engines that differ in the journal come out alike, if those do that host
functions ask for. -/
theorem nestings_sameButJournal (registries : Registries Memory) (ignores : IgnoresJournal reenter)
    (begun : Nat) (configuration : Configuration) (likeness : Environment.Likeness) :
    NestingsAlike likeness SameButJournal False (registries.setting begun reenter configuration)
      (registries.setting begun reenter configuration) := by
  intro interpret interpret' interprets
  have trees : (alike .identity SameButJournal False).InterpretsAlike
    ((registries.setting begun reenter configuration).answering interpret)
    ((registries.setting begun reenter configuration).answering interpret') := interprets
  refine ⟨rfl, rfl, rfl, rfl, fun _ unknown => unknown, fun name function found => ?_⟩
  refine ⟨function, found, rfl, ?_⟩
  cases function.callable with
  | defined parameters body => exact .defined parameters body
  | host host =>
    refine .host (fun _ _ => (quiet_alike likeness).keeps _) fun _ level arguments hint => ?_
    induction host arguments hint with
    | done result => exact simulates_ofExcept result
    | ask request next inductionHypothesis =>
      refine Simulates.bind ?_ inductionHypothesis
      -- Both runs have visited as many nodes, and are at one call depth.
      cases request with
      | callDepth => exact simulates_inspect fun _ _ together => together.callDepth
      | visits => exact simulates_inspect fun _ _ together => together.visits
      | interpret tree environment depth => exact interpret_alike trees tree environment depth
      | _ => exact (quiet_alike likeness).respond ignores interpret interpret' _ id id

theorem evaluation_silent (registries : Registries Memory) (ignores : IgnoresJournal reenter)
    (configuration : Configuration) (given : Dictionary String Value) (tree : Expression)
    (state : EngineState Memory) :
    (registries.evaluation reenter configuration given tree state.silent).1 =
        (registries.evaluation reenter configuration given tree state).1 ∧
      Machine.Alike .identity SameButJournal
        (registries.evaluation reenter configuration given tree state.silent).2
        (registries.evaluation reenter configuration given tree state).2 := by
  have simulates : Simulates (alike .identity _ False) 0 _ _ :=
    evaluate_alike survivesNotes_sameButJournal rfl
      (nestings_sameButJournal registries ignores state.begun configuration) 0 tree
  rcases (simulates.1 (.start (.ofVariables given) state.silent)
    (.start (.ofVariables given) state) ⟨rfl, rfl, rfl, rfl, rfl⟩).equal
      fun _ _ => id with same | parted
  · exact same
  · exact parted.1.elim

theorem evaluateTree_silent (ignores : IgnoresJournal reenter) (configuration : Configuration)
    (generation : Nat) (key : Option CacheKey) (merged : Dictionary String Value)
    (tree : Expression) (state : EngineState Memory) :
    silencing
        (registries.evaluateTree reenter configuration generation key merged tree state.silent) =
      silencing
        (registries.evaluateTree reenter configuration generation key merged tree state) := by
  have same := evaluation_silent registries ignores configuration merged tree state
  rw [evaluateTree_eq, evaluateTree_eq]
  generalize registries.evaluation reenter configuration merged tree state.silent = run at same ⊢
  generalize registries.evaluation reenter configuration merged tree state = run' at same ⊢
  rcases run with ⟨result, machine⟩
  rcases run' with ⟨result', machine'⟩
  obtain ⟨rfl, alike⟩ := same
  cases result with
  | error cause => exact Prod.ext rfl alike.engine
  | ok value =>
    have after : (afterResult generation key value machine).silent =
        (afterResult generation key value machine').silent := by
      unfold afterResult
      rw [show machine.cacheable = machine'.cacheable from alike.cacheable]
      cases key with
      | none => exact alike.engine
      | some key =>
        dsimp only
        split
        · rw [silent_keepResult, silent_keepResult]
          exact congrArg (EngineState.keepResult · generation key value) alike.engine
        · exact alike.engine
    refine Prod.ext rfl ?_
    show EngineState.silent (EngineState.log _ _ _ _) = EngineState.silent (EngineState.log _ _ _ _)
    rw [silent_log, silent_log]
    exact after

theorem workAfresh_silent (ignores : IgnoresJournal reenter) (task : Task) (text : String)
    (configuration : Configuration) (generation : Nat) (key : Option CacheKey)
    (merged : Dictionary String Value) (state : EngineState Memory) :
    silencing
        (registries.workAfresh reenter task text configuration generation key merged state.silent) =
      silencing
        (registries.workAfresh reenter task text configuration generation key merged state) := by
  have found := silencing_treeOf state configuration text
  unfold workAfresh
  generalize state.silent.treeOf configuration text = searched at found ⊢
  generalize state.treeOf configuration text = searched' at found ⊢
  rcases searched with ⟨tree?, after⟩
  rcases searched' with ⟨tree?', after'⟩
  obtain ⟨rfl, left⟩ := Prod.mk.inj found
  cases tree? with
  | error error => exact Prod.ext rfl left
  | ok tree =>
    exact SameButJournal.ask left
      (fun state => silencing (registries.evaluateTree reenter configuration generation key merged
        (task.wrap tree) state))
      (evaluateTree_silent ignores configuration generation key merged (task.wrap tree))

theorem runText_silent (ignores : IgnoresJournal reenter) (task : Task) (text : String)
    (state : EngineState Memory) :
    silencing (registries.runText reenter task text state.silent) =
      silencing (registries.runText reenter task text state) := by
  have afresh : ∀ configuration generation key merged {begun begun' : EngineState Memory},
      begun.SameButJournal begun' →
        silencing (registries.workAfresh reenter task text configuration generation key merged
          begun) =
        silencing (registries.workAfresh reenter task text configuration generation key merged
          begun') :=
    fun configuration generation key merged _ _ same => same.ask
      (fun begun => silencing (registries.workAfresh reenter task text configuration generation key
        merged begun))
      (workAfresh_silent ignores task text configuration generation key merged)
  have logged : (state.silent.begin.log state.configuration "Evaluating expression: \x7b\x7d"
      [.text text]).SameButJournal
        (state.begin.log state.configuration "Evaluating expression: \x7b\x7d" [.text text]) := by
    unfold SameButJournal
    rw [silent_log, silent_log]
    rfl
  rw [runText_eq, runText_eq]
  dsimp only
  rw [show state.silent.configuration = state.configuration from rfl,
    show state.silent.generation = state.generation from rfl]
  generalize state.silent.begin.log state.configuration "Evaluating expression: \x7b\x7d"
    [.text text] = begun at logged ⊢
  generalize state.begin.log state.configuration "Evaluating expression: \x7b\x7d" [.text text] =
    begun' at logged ⊢
  rw [logged.ask EngineState.defaults fun _ => rfl]
  cases task.key? state.configuration text (task.mergedVariables begun'.defaults) with
  | none => exact afresh _ _ _ _ logged
  | some key =>
    have kept := logged.ask (fun state' => silencing
      (state'.keptResult state.configuration text key)) fun state' =>
        silencing_keptResult state' state.configuration text key
    dsimp only at kept ⊢
    generalize begun.keptResult state.configuration text key = search at kept ⊢
    generalize begun'.keptResult state.configuration text key = search' at kept ⊢
    rcases search with ⟨result?, after⟩
    rcases search' with ⟨result?', after'⟩
    obtain ⟨rfl, left⟩ := Prod.mk.inj kept
    cases result? with
    | none => exact afresh _ _ _ _ left
    | some result => exact Prod.ext rfl left

theorem ignoresJournal_backThrough
    {work : Task → EngineState Memory → Except EngineError Value × EngineState Memory}
    (ignores : ∀ task state, silencing (work task state.silent) = silencing (work task state)) :
    IgnoresJournal (backThrough work) := by
  intro source given state
  have same := ignores ⟨source, some given, none⟩ state
  unfold backThrough
  generalize work ⟨source, some given, none⟩ state.silent = worked at same ⊢
  generalize work ⟨source, some given, none⟩ state = worked' at same ⊢
  rcases worked with ⟨result, after⟩
  rcases worked' with ⟨result', after'⟩
  obtain ⟨rfl, left⟩ := Prod.mk.inj same
  cases result with
  | ok value => exact same
  | error error =>
    refine Prod.ext rfl ?_
    show EngineState.silent (EngineState.report _ _) = EngineState.silent (EngineState.report _ _)
    rw [silent_report, silent_report]
    exact left

/-- Work on a task takes no notice of the journal. -/
theorem runWithin_silent (registries : Registries Memory) (reentries : Nat) (task : Task)
    (state : EngineState Memory) :
    silencing (registries.runWithin reentries task state.silent) =
      silencing (registries.runWithin reentries task state) := by
  induction reentries generalizing task state with
  | zero => rfl
  | succ reentries inductionHypothesis =>
    unfold runWithin
    dsimp only
    split
    · rfl
    · exact runText_silent (ignoresJournal_backThrough inductionHypothesis) task _ state

end Registries

end Reckon
