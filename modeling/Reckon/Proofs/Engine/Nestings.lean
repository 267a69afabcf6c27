/-
This file shows that the number of evaluations that may nest is nothing but
room. An evaluation that has enough of it comes to what it comes to with more of
it, and leaves the same behind. With too little it is not finished, and nobody
takes that for an answer: a host function cannot go on from there, so it reaches
the caller, whatever the functions on the way do with errors.

The evaluation with more room is the first of the two that are compared. They are
one and the same until the second one has no room left.
-/

import Reckon.Engine.Run
import Reckon.Proofs.Evaluation.Pace

namespace Reckon

variable {Memory : Type}

/-! ### Evaluations -/

/-- Two evaluations that are one and the same until the second one is not finished. -/
def Pace.unlessUnfinished : Pace Memory Memory where
  linked machine machine' := machine.visits = machine'.visits ∧
    machine.cacheable = machine'.cacheable ∧ machine.engine = machine'.engine
  parted _ failure _ := failure = some .unfinished
  linked_restore _ _ linked := linked
  linked_forbid may linked := ⟨linked.1, congrArg (· && may) linked.2.1, linked.2.2⟩
  linked_note event linked :=
    ⟨linked.1, linked.2.1, congrArg (EngineState.note · event) linked.2.2⟩
  parted_restore _ _ _ _ parted := parted
  parted_forbid _ parted := parted
  parted_note _ parted := parted
  parted_failure := nofun

/-- The setting with other room for evaluations inside each other. -/
def Setting.withRoom (setting : Setting Memory) (reenter : Registries.Reenter Memory)
    (nestings : Nat) : Setting Memory :=
  { setting with reenter, nestings }

/-- Whether a way back into the engine answers all that another one answers. -/
def Registries.AnswersAllOf (reenter less : Reenter Memory) : Prop :=
  ∀ source given state, Evaluation.isAnswered (less source given state).1 = true →
    reenter source given state = less source given state

namespace Pace

open Coupling Evaluation

variable {setting : Setting Memory} {reenter : Registries.Reenter Memory} {nestings level : Nat}

theorem eq_of_unlessUnfinished {machine machine' : Machine Memory}
    (together : unlessUnfinished.Together machine machine') : machine = machine' := by
  obtain ⟨visits, cacheable, engine⟩ := together.linked
  exact Machine.eq_of_fields together.environment visits together.callDepth cacheable engine

/-- Computations go together if and only if they are the same wherever the second one is
finished. -/
theorem simulates_unlessUnfinished_iff {Result : Type} {first second : Evaluation Memory Result} :
    unlessUnfinished.coupling.Simulates level first second ↔
      ∀ machine, first machine = second machine ∨ (second machine).1 = .error .unfinished := by
  refine ⟨fun simulates machine => ?_, fun same => ⟨fun machine machine' together => ?_,
    fun _ _ _ parted => parted⟩⟩
  · rcases (simulates.1 machine machine ⟨rfl, rfl, rfl, rfl, rfl⟩).equal fun _ _ => id with
      ⟨outcome, together⟩ | goesOn
    · exact Or.inl (Prod.ext outcome (eq_of_unlessUnfinished together))
    · exact Or.inr (eq_error_of_failure? goesOn)
  · obtain rfl := eq_of_unlessUnfinished together
    rcases same machine with same | goesOn
    · rw [same]
      exact Or.inl ⟨.same _, rfl, rfl, rfl, rfl, rfl⟩
    · exact Or.inr (congrArg failure? goesOn)

/-- What a host function asks for is answered in the same way, if there is an answer. -/
theorem simulates_respond_withRoom
    (answers : Registries.AnswersAllOf reenter setting.reenter)
    {interpret interpret' : Nat → Expression → Evaluation Memory Value}
    (interprets : ∀ depth tree, unlessUnfinished.coupling.Simulates 0 (interpret depth tree)
      (interpret' depth tree)) (request : Request Memory) :
    unlessUnfinished.coupling.Simulates level
      (respond ((setting.withRoom reenter nestings).answering interpret) request)
      (respond (setting.answering interpret') request) := by
  refine simulates_unlessUnfinished_iff.2 fun machine => ?_
  cases request with
  | interpret tree environment depth =>
    rcases outcome : interpret' depth tree { machine with environment } with ⟨answer, after⟩
    have plain : (setting.answering interpret').interpret depth tree { machine with environment } =
      (answer, after) := outcome
    rw [respond_interpret plain]
    rcases simulates_unlessUnfinished_iff.1 (interprets depth tree) { machine with environment }
      with same | goesOn
    · exact Or.inl (respond_interpret (same.trans outcome))
    · rw [outcome] at goesOn
      obtain rfl : answer = _ := goesOn
      exact Or.inr rfl
  | evaluate source given =>
    rcases outcome : setting.reenter source given machine.engine with ⟨answer, engine⟩
    have plain : (setting.answering interpret').reenter source given machine.engine =
      (answer, engine) := outcome
    rw [respond_evaluate plain]
    cases answered : isAnswered answer with
    | true =>
      have same := answers source given machine.engine (by rw [outcome]; exact answered)
      exact Or.inl ((respond_evaluate (same.trans outcome)).trans (by rw [answered]))
    | false => exact Or.inr rfl
  | _ => exact Or.inl rfl

/-- An evaluation comes to the same with more room, if those do that host functions ask for. -/
theorem simulates_evaluateAt_withRoom
    (answers : Registries.AnswersAllOf reenter setting.reenter)
    {interpret interpret' : Nat → Expression → Evaluation Memory Value}
    (interprets : ∀ depth tree, unlessUnfinished.coupling.Simulates 0 (interpret depth tree)
      (interpret' depth tree)) (depth : Nat) (expression : Expression) :
    unlessUnfinished.coupling.Simulates level
      (evaluateAt ((setting.withRoom reenter nestings).answering interpret) depth expression)
      (evaluateAt (setting.answering interpret') depth expression) := by
  have records : (unlessUnfinished : Pace Memory Memory).coupling.Records :=
    Pace.records (fun linked => linked.1) (fun linked => ⟨congrArg (· + 1) linked.1, linked.2⟩) id
  have fits : unlessUnfinished.coupling.Fits
      ((setting.withRoom reenter nestings).answering interpret) (setting.answering interpret') :=
    Pace.fits records rfl rfl rfl rfl
  refine simulates_evaluateWithin fits sees (fun _ => simulates_readVariable rfl rfl rfl)
    (fun callDepth body body' bodies => ⟨fun _ => id, fun name function found => ⟨function, found,
      fun level => simulates_callFunction_of_callable encloses (by rfl) (by rfl) (by rfl) ?_ bodies
        callDepth name⟩⟩) _ level expression
  cases function.callable with
  | defined parameters body => exact .defined parameters body
  | host host =>
    refine .host (fun _ _ _ _ _ parted => parted) fun _ level arguments hint => ?_
    rw [runProgram_eq_runWith, runProgram_eq_runWith]
    exact Coupling.simulates_runWith (simulates_respond_withRoom answers interprets) _

theorem simulates_interpretWithin_withRoom
    (answers : Registries.AnswersAllOf reenter setting.reenter) {room room' : Nat}
    (enough : room' ≤ room) (depth : Nat) (tree : Expression) :
    unlessUnfinished.coupling.Simulates 0
      (interpretWithin (setting.withRoom reenter nestings) room depth tree)
      (interpretWithin setting room' depth tree) := by
  induction room' generalizing room depth tree with
  | zero => exact simulates_unlessUnfinished_iff.2 fun _ => Or.inr rfl
  | succ room' inductionHypothesis =>
    obtain ⟨more, rfl⟩ := Nat.exists_eq_add_of_lt enough
    exact simulates_evaluateAt_withRoom answers
      (inductionHypothesis (Nat.le_add_right room' more)) depth tree

end Pace

/-- An evaluation that is finished comes to the same with more room, and leaves the same
machine. -/
theorem Evaluation.evaluate_withRoom {setting : Setting Memory}
    {reenter : Registries.Reenter Memory} {nestings : Nat}
    (answers : Registries.AnswersAllOf reenter setting.reenter)
    (enough : setting.nestings ≤ nestings) {depth : Nat} {expression : Expression}
    {machine : Machine Memory}
    (finished : (evaluate setting depth expression machine).1 ≠ .error .unfinished) :
    evaluate (setting.withRoom reenter nestings) depth expression machine =
      evaluate setting depth expression machine :=
  have simulates : Pace.unlessUnfinished.coupling.Simulates 0
      (evaluate (setting.withRoom reenter nestings) depth expression)
      (evaluate setting depth expression) :=
    Pace.simulates_evaluateAt_withRoom answers
      (Pace.simulates_interpretWithin_withRoom answers enough) depth expression
  (Pace.simulates_unlessUnfinished_iff.1 simulates machine).resolve_right finished

/-! ### Work on tasks -/

namespace Registries

variable {registries : Registries Memory} {nestings : Nat}

/-- The same operations, functions and types, on a platform with other room. -/
def withNestings (registries : Registries Memory) (nestings : Nat) : Registries Memory :=
  { registries with platform := { registries.platform with nestings } }

theorem evaluateTree_withNestings {reenter less : Reenter Memory}
    (answers : AnswersAllOf reenter less) (enough : registries.platform.nestings ≤ nestings)
    {configuration : Configuration} {generation : Nat} {key : Option CacheKey}
    {merged : Dictionary String Value} {tree : Expression} {state : EngineState Memory}
    (answered : Evaluation.isAnswered
      (registries.evaluateTree less configuration generation key merged tree state).1 = true) :
    (registries.withNestings nestings).evaluateTree reenter configuration generation key merged
        tree state =
      registries.evaluateTree less configuration generation key merged tree state := by
  have finished : (Evaluation.evaluate (registries.setting state.begun less configuration) 0 tree
      (.start (.ofVariables merged) state)).1 ≠ .error .unfinished := by
    intro goesOn
    unfold evaluateTree at answered
    dsimp only at answered
    rw [goesOn] at answered
    cases answered
  have same := Evaluation.evaluate_withRoom answers enough finished
  unfold evaluateTree
  dsimp only
  rw [← same]
  rfl

theorem runText_withNestings {reenter less : Reenter Memory}
    (answers : AnswersAllOf reenter less) (enough : registries.platform.nestings ≤ nestings)
    {task : Task} {text : String} {state : EngineState Memory}
    (answered : Evaluation.isAnswered (registries.runText less task text state).1 = true) :
    (registries.withNestings nestings).runText reenter task text state =
      registries.runText less task text state := by
  unfold runText at answered ⊢
  dsimp only at answered ⊢
  split
  · rfl
  next missed =>
    rw [missed] at answered
    dsimp only at answered
    split
    · rfl
    next read =>
      rw [read] at answered
      exact evaluateTree_withNestings answers enough answered

/-- Work that ends in an answer comes to the same with more room. -/
theorem runWithin_withNestings (enough : registries.platform.nestings ≤ nestings)
    {reentries more : Nat} (room : reentries ≤ more) {task : Task} {state : EngineState Memory}
    (answered : Evaluation.isAnswered (registries.runWithin reentries task state).1 = true) :
    (registries.withNestings nestings).runWithin more task state =
      registries.runWithin reentries task state := by
  induction reentries generalizing more task state with
  | zero => cases answered
  | succ reentries inductionHypothesis =>
    obtain ⟨more, rfl⟩ := Nat.exists_eq_add_of_lt room
    unfold runWithin at answered ⊢
    dsimp only at answered ⊢
    split
    · rfl
    next notBlank =>
      rw [if_neg notBlank] at answered
      refine runText_withNestings (fun source given state inside => ?_) enough answered
      have same := @inductionHypothesis (reentries + more) (Nat.le_add_right reentries more)
        ⟨source, some given, none⟩ state
      rcases outcome : registries.runWithin reentries ⟨source, some given, none⟩ state with
        ⟨error | result, after⟩
      · rw [outcome] at inside same
        rw [same inside]
      · rw [outcome] at same
        rw [same rfl]

/-- A platform with more room gives the answers of one with less, and leaves the same engine. -/
theorem run_withNestings (enough : registries.platform.nestings ≤ nestings) {task : Task}
    {state : EngineState Memory}
    (answered : Evaluation.isAnswered (registries.run task state).1 = true) :
    (registries.withNestings nestings).run task state = registries.run task state :=
  runWithin_withNestings enough (Nat.succ_le_succ enough) answered

end Registries

end Reckon
