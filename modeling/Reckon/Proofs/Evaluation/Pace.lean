/-
This file compares two evaluations that go on in the same environment, at the
same call depth, until one of them stops where the other one does not. Up to
there they keep pace: each scope and each call is entered and left by both, and
what is known of the rest of the two machines lasts.
-/

import Reckon.Proofs.Evaluation.Calling

namespace Reckon

variable {Memory Memory' : Type}

/-- What is known of two machines whose evaluations keep pace, besides that environment and call
depth are the same, and what is known once the evaluations have parted. -/
structure Pace (Memory Memory' : Type) where
  linked : Machine Memory → Machine Memory' → Prop
  parted : Machine Memory → Option EvaluationError → Machine Memory' → Prop
  linked_restore : ∀ {machine machine'} (environment : Environment) (depth : Nat),
    linked machine machine' → linked { machine with environment, callDepth := depth }
      { machine' with environment, callDepth := depth }
  linked_forbid : ∀ {machine machine'} (may : Bool), linked machine machine' →
    linked { machine with cacheable := machine.cacheable && may }
      { machine' with cacheable := machine'.cacheable && may }
  linked_note : ∀ {machine machine'} event, linked machine machine' →
    linked (machine.note event) (machine'.note event)
  parted_restore : ∀ {machine failure machine'} (environment environment' : Environment)
    (depth depth' : Nat), parted machine failure machine' →
      parted { machine with environment, callDepth := depth } failure
        { machine' with environment := environment', callDepth := depth' }
  parted_forbid : ∀ {machine failure machine'} (may : Bool), parted machine failure machine' →
    parted { machine with cacheable := machine.cacheable && may } failure machine'
  parted_note : ∀ {machine failure machine'} event, parted machine failure machine' →
    parted (machine.note event) failure machine'
  /-- The second evaluation is the one that stops. -/
  parted_failure : ∀ {machine machine'}, ¬ parted machine none machine'

namespace Pace

open Coupling

variable {pace : Pace Memory Memory'} {setting : NestedSetting Memory}
  {setting' : NestedSetting Memory'} {level : Nat}

/-- Two machines whose evaluations keep pace. -/
structure Together (pace : Pace Memory Memory') (machine : Machine Memory)
    (machine' : Machine Memory') : Prop where
  environment : machine.environment = machine'.environment
  callDepth : machine.callDepth = machine'.callDepth
  linked : pace.linked machine machine'

/-- The coupling of evaluations that keep pace. -/
def coupling (pace : Pace Memory Memory') : Coupling Memory Memory' where
  together _ := pace.Together
  parted := pace.parted
  parted_restore environment environment' depth depth' parted :=
    pace.parted_restore environment environment' depth depth' parted
  parted_onward parted := (pace.parted_failure parted).elim

/-- Environment and call depth may be replaced, by the same ones in both machines. -/
theorem Together.restore {machine : Machine Memory} {machine' : Machine Memory'}
    (linked : pace.linked machine machine') {environment environment' : Environment}
    {depth depth' : Nat} (sameEnvironment : environment = environment')
    (sameDepth : depth = depth') :
    pace.Together { machine with environment, callDepth := depth }
      { machine' with environment := environment', callDepth := depth' } := by
  subst sameEnvironment sameDepth
  exact ⟨rfl, rfl, pace.linked_restore environment depth linked⟩

theorem suits (operations : setting'.operations = setting.operations)
    (types : setting'.types = setting.types) : pace.coupling.Suits setting setting' where
  operations := operations
  types := types
  bind _ name value uses _ _ together := Together.restore together.linked
    (congrArg (fun environment => environment.push.define name value uses) together.environment)
    together.callDepth
  pop _ _ _ together := Together.restore together.linked
    (congrArg Environment.pop together.environment) together.callDepth

theorem sees (name : String) : pace.coupling.SeesAlike name :=
  fun _ _ _ together => congrArg (Environment.contains · name) together.environment

theorem encloses : pace.coupling.Encloses where
  forbid may together :=
    ⟨together.environment, together.callDepth, pace.linked_forbid may together.linked⟩
  note event together :=
    ⟨together.environment, together.callDepth, pace.linked_note event together.linked⟩
  environment _ together := Together.restore together.linked rfl together.callDepth
  environmentBack before after := Together.restore after.linked before.environment after.callDepth
  callDepth _ together := Together.restore together.linked together.environment rfl
  callDepthBack before after := Together.restore after.linked after.environment before.callDepth
  keepsForbid may parted := pace.parted_forbid may parted
  keepsNote event parted := pace.parted_note event parted

/-- Nodes are visited in pace if the machines have made as many visits and may both count one. -/
theorem records
    (visits : ∀ {machine machine'}, pace.linked machine machine' → machine.visits = machine'.visits)
    (count : ∀ {machine machine'}, pace.linked machine machine' →
      pace.linked { machine with visits := machine.visits + 1 }
        { machine' with visits := machine'.visits + 1 })
    (keepsCount : ∀ {machine failure machine'}, pace.parted machine failure machine' →
      pace.parted { machine with visits := machine.visits + 1 } failure machine') :
    pace.coupling.Records where
  visits together := visits together.linked
  count together := ⟨together.environment, together.callDepth, count together.linked⟩
  note event together :=
    ⟨together.environment, together.callDepth, pace.linked_note event together.linked⟩
  keepsCount := keepsCount
  keepsNote event parted := pace.parted_note event parted

theorem fits (records : pace.coupling.Records)
    (configuration : setting'.configuration = setting.configuration)
    (operations : setting'.operations = setting.operations)
    (types : setting'.types = setting.types) (deadline : setting'.deadline = setting.deadline) :
    pace.coupling.Fits setting setting' where
  configuration := configuration
  operations := operations
  types := types
  deadline := deadline
  records := records
  bind := (suits operations types).bind
  pop := (suits operations types).pop

/-- Variables are read in pace if the settings allow and replace the same ones. -/
theorem simulates_readVariable {setting : Setting Memory} {setting' : Setting Memory'}
    (allowed : setting'.configuration.isVariableAllowed = setting.configuration.isVariableAllowed)
    (strictMode : setting'.configuration.strictMode = setting.configuration.strictMode)
    (undefined : setting'.configuration.undefinedValue = setting.configuration.undefinedValue)
    (name : String) :
    pace.coupling.Simulates level (Evaluation.readVariable setting name)
      (Evaluation.readVariable setting' name) := by
  constructor
  · intro machine machine' together
    refine Or.inl ?_
    unfold Evaluation.readVariable
    rw [allowed, strictMode, undefined, together.environment]
    split
    · exact ⟨.same _, together⟩
    · split
      · exact ⟨.same _, Together.restore together.linked rfl together.callDepth⟩
      · split <;> exact ⟨.same _, together⟩
  · intro machine failure machine' parted
    unfold Evaluation.readVariable
    split
    · exact parted
    · split
      · exact pace.parted_restore _ machine'.environment machine.callDepth machine'.callDepth parted
      · split <;> exact parted

end Pace

end Reckon
