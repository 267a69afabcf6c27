/-
This file shows that an engine with an extended memory works on a task as it
does without the extension, if evaluations do. The caches, the journal and the
generation of an engine take no part in the host memory.
-/

import Reckon.Proofs.Engine.Kept
import Reckon.Proofs.Evaluation.Extended

namespace Reckon

variable {Extra Memory : Type}

/-! ### States -/

/-- What is left of an answer and a state if the extension of the memory is forgotten. -/
def forgetting {Result : Type} (pair : Result × EngineState (Extra × Memory)) :
    Result × EngineState Memory :=
  (pair.1, pair.2.forget)

namespace EngineState

theorem forget_log (state : EngineState (Extra × Memory)) (configuration : Configuration)
    (message : String) (arguments : List Value) :
    (state.log configuration message arguments).forget =
      state.forget.log configuration message arguments :=
  apply_ite EngineState.forget _ _ _

theorem forget_report (state : EngineState (Extra × Memory)) (error : EngineError) :
    (state.report error).forget = state.forget.report error :=
  apply_ite EngineState.forget _ _ _

theorem forget_keepResult (state : EngineState (Extra × Memory)) (generation : Nat)
    (key : CacheKey) (result : Value) :
    (state.keepResult generation key result).forget =
      state.forget.keepResult generation key result :=
  apply_ite EngineState.forget _ _ _

theorem forget_treeOf (state : EngineState (Extra × Memory)) (configuration : Configuration)
    (text : String) :
    forgetting (state.treeOf configuration text) = state.forget.treeOf configuration text := by
  unfold EngineState.treeOf forgetting
  rw [show state.forget.trees = state.trees from rfl]
  cases state.trees.get? text with
  | some tree =>
    dsimp only
    rw [forget_log]
    rfl
  | none =>
    dsimp only
    cases Expression.parse text with
    | error cause =>
      dsimp only
      rw [forget_log]
      rfl
    | ok tree =>
      have logged := forget_log (state.note (.treeLookup false text)) configuration
        "Cache miss for parse: \x7b\x7d" [.text text]
      generalize EngineState.log (state.note (.treeLookup false text)) configuration
        "Cache miss for parse: \x7b\x7d" [.text text] = missed at logged ⊢
      show (Except.ok tree,
        { missed.forget with trees := missed.forget.trees.insert text tree }) = _
      rw [logged]
      rfl

theorem forget_keptResult (state : EngineState (Extra × Memory)) (configuration : Configuration)
    (text : String) (key : CacheKey) :
    forgetting (state.keptResult configuration text key) =
      state.forget.keptResult configuration text key := by
  unfold EngineState.keptResult forgetting
  rw [show state.forget.results = state.results from rfl]
  cases state.results.get? key with
  | some kept =>
    dsimp only
    rw [forget_log]
    rfl
  | none =>
    dsimp only
    rw [forget_log]
    rfl

end EngineState

/-! ### Work on a task -/

namespace Registries

/-- Two ways back into the engine that differ in the extension only. -/
def ReenterAlike (reenter : Reenter (Extra × Memory)) (reenter' : Reenter Memory) : Prop :=
  ∀ source given state, forgetting (reenter source given state) = reenter' source given state.forget

theorem ReenterAlike.extends {reenter : Reenter (Extra × Memory)} {reenter' : Reenter Memory}
    (back : ReenterAlike reenter reenter') (source : String) (given : Dictionary String Value)
    {state : EngineState (Extra × Memory)} {state' : EngineState Memory}
    (extends_ : EngineState.Extends (fun _ => True) state state') :
    (reenter source given state).1 = (reenter' source given state').1 ∧
      EngineState.Extends (fun _ => True) (reenter source given state).2
        (reenter' source given state').2 := by
  obtain ⟨rfl, -⟩ := extends_
  have same := back source given state
  exact ⟨congrArg Prod.fst same, congrArg Prod.snd same, trivial⟩

/-- The way back into an engine for a text with variables, by a way of working on tasks. An error is
reported. -/
def backThrough (work : Task → EngineState Memory → Except EngineError Value × EngineState Memory) :
    Reenter Memory :=
  fun source given state =>
    match work ⟨source, some given, none⟩ state with
    | (.ok result, state) => (.ok result, state)
    | (.error error, state) => (.error error, state.report error)

theorem reenterAlike_backThrough
    {work : Task → EngineState (Extra × Memory) →
      Except EngineError Value × EngineState (Extra × Memory)}
    {work' : Task → EngineState Memory → Except EngineError Value × EngineState Memory}
    (same : ∀ task state, forgetting (work task state) = work' task state.forget) :
    ReenterAlike (backThrough work) (backThrough work') := by
  intro source given state
  unfold backThrough
  rw [← same]
  rcases work ⟨source, some given, none⟩ state with ⟨error | result, after⟩
  · show (_, EngineState.forget _) = (_, EngineState.report after.forget error)
    rw [EngineState.forget_report]
  · rfl

open Coupling

/-- Evaluations with an extended memory come out as they do without the extension, if those do that
host functions ask for. -/
structure Erases (extended : Registries (Extra × Memory)) (reenter : Reenter (Extra × Memory))
    (registries : Registries Memory) (reenter' : Reenter Memory) : Prop where
  platform : registries.platform = extended.platform
  nestings : ∀ begun configuration likeness,
    NestingsAlike likeness (EngineState.Extends fun _ => True) False
      (extended.setting begun reenter configuration)
      (registries.setting begun reenter' configuration)

variable {extended : Registries (Extra × Memory)} {registries : Registries Memory}
  {reenter : Reenter (Extra × Memory)} {reenter' : Reenter Memory}

theorem evaluation_forget (erases : extended.Erases reenter registries reenter')
    (configuration : Configuration) (given : Dictionary String Value) (tree : Expression)
    (state : EngineState (Extra × Memory)) :
    (extended.evaluation reenter configuration given tree state).1 =
        (registries.evaluation reenter' configuration given tree state.forget).1 ∧
      Machine.Alike .identity (EngineState.Extends fun _ => True)
        (extended.evaluation reenter configuration given tree state).2
        (registries.evaluation reenter' configuration given tree state.forget).2 := by
  have simulates : Simulates (alike .identity _ False) 0 _ _ :=
    evaluate_alike (EngineState.survivesNotes_extends _)
      (congrArg Platform.nestings erases.platform) (erases.nestings state.begun configuration) 0
      tree
  rcases (simulates.1 (.start (.ofVariables given) state)
    (.start (.ofVariables given) state.forget) ⟨rfl, rfl, rfl, rfl, rfl, trivial⟩).equal
      fun _ _ => id with same | parted
  · exact same
  · exact parted.1.elim

theorem evaluateTree_forget (erases : extended.Erases reenter registries reenter')
    (configuration : Configuration) (generation : Nat) (key : Option CacheKey)
    (merged : Dictionary String Value) (tree : Expression)
    (state : EngineState (Extra × Memory)) :
    forgetting (extended.evaluateTree reenter configuration generation key merged tree state) =
      registries.evaluateTree reenter' configuration generation key merged tree state.forget := by
  have same := evaluation_forget erases configuration merged tree state
  rw [evaluateTree_eq, evaluateTree_eq]
  generalize extended.evaluation reenter configuration merged tree state = run at same ⊢
  generalize registries.evaluation reenter' configuration merged tree state.forget = plain
    at same ⊢
  rcases run with ⟨result, machine⟩
  rcases plain with ⟨result', machine'⟩
  obtain ⟨rfl, alike⟩ := same
  have engine : machine.engine.forget = machine'.engine := alike.engine.forget
  cases result with
  | error cause =>
    show (_, machine.engine.forget) = (_, machine'.engine)
    rw [engine]
  | ok value =>
    have after : (afterResult generation key value machine).forget =
        afterResult generation key value machine' := by
      unfold afterResult
      rw [← show machine.cacheable = machine'.cacheable from alike.cacheable, ← engine]
      cases key with
      | none => rfl
      | some key =>
        dsimp only
        rw [apply_ite EngineState.forget, EngineState.forget_keepResult]
    show (_, EngineState.forget (EngineState.log _ _ _ _)) = _
    rw [EngineState.forget_log]
    show (_, ((afterResult generation key value machine).forget.note _).log _ _ _) = _
    rw [after, show machine.visits = machine'.visits from alike.visits]

theorem workAfresh_forget (erases : extended.Erases reenter registries reenter')
    (task : Task) (text : String) (configuration : Configuration) (generation : Nat)
    (key : Option CacheKey) (merged : Dictionary String Value)
    (state : EngineState (Extra × Memory)) :
    forgetting (extended.workAfresh reenter task text configuration generation key merged state) =
      registries.workAfresh reenter' task text configuration generation key merged
        state.forget := by
  unfold workAfresh
  rw [← EngineState.forget_treeOf]
  rcases state.treeOf configuration text with ⟨error | tree, after⟩
  · rfl
  · exact evaluateTree_forget erases configuration generation key merged _ after

theorem runText_forget (erases : extended.Erases reenter registries reenter')
    (task : Task) (text : String) (state : EngineState (Extra × Memory)) :
    forgetting (extended.runText reenter task text state) =
      registries.runText reenter' task text state.forget := by
  rw [runText_eq, runText_eq]
  dsimp only
  rw [show state.forget.configuration = state.configuration from rfl,
    show state.forget.generation = state.generation from rfl,
    show state.forget.begin = state.begin.forget from rfl, ← EngineState.forget_log]
  generalize
    state.begin.log state.configuration "Evaluating expression: \x7b\x7d" [.text text] = begun
  rw [show begun.forget.defaults = begun.defaults from rfl]
  cases task.key? state.configuration text (task.mergedVariables begun.defaults) with
  | none => exact workAfresh_forget erases task text _ _ _ _ begun
  | some key =>
    dsimp only
    rw [← EngineState.forget_keptResult]
    rcases begun.keptResult state.configuration text key with ⟨_ | result, after⟩
    · exact workAfresh_forget erases task text _ _ _ _ after
    · rfl

end Registries

end Reckon
