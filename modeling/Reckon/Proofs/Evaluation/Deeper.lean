/-
This file compares evaluations of one expression at different depths. The deeper
one comes to the same, unless it is too deep, if no host function asks where it
is called: how many nodes have been visited and how deep the call is. The two
leave the same machine but for these two and the journal.

An evaluation that a host function asks for has a depth that the function names.
It is the same in both, so there the two do not part at all.

The deeper evaluation may also take place in an environment with further scopes,
as long as they bind no name that is free in the expression.
-/

import Reckon.Proofs.Engine.Silence
import Reckon.Proofs.Evaluation.Overlooked
import Reckon.Proofs.Evaluation.Translation

namespace Reckon

variable {Memory Result : Type} {errors : EvaluationError → EvaluationError → Prop}

/-! ### Evaluations at two depths -/

/-- Machines that agree in all but the number of visits, the depth of the call and the journal. -/
structure Machine.SameButPlace (machine machine' : Machine Memory) : Prop where
  environment : machine.environment = machine'.environment
  cacheable : machine.cacheable = machine'.cacheable
  engine : machine.engine.SameButJournal machine'.engine

namespace Machine.SameButPlace

variable {machine machine' machine'' : Machine Memory}

theorem symm (same : machine.SameButPlace machine') : machine'.SameButPlace machine :=
  ⟨same.environment.symm, same.cacheable.symm, same.engine.symm⟩

theorem trans (same : machine.SameButPlace machine') (same' : machine'.SameButPlace machine'') :
    machine.SameButPlace machine'' :=
  ⟨same.environment.trans same'.environment, same.cacheable.trans same'.cacheable,
    same.engine.trans same'.engine⟩

end Machine.SameButPlace

namespace Coupling

open Evaluation

variable {setting : Setting Memory} {level : Nat} {mayPart : Prop}

/-- The coupling of evaluations at two places. They may part where the second one is too deep. -/
def placeless (mayPart : Prop) : Coupling Memory Memory where
  together _ := Machine.SameButPlace
  parted _ failure _ := mayPart ∧ ∃ limit, failure = some (.depthExceeded limit)
  parted_restore _ _ _ _ parted := parted
  parted_onward parted := by
    obtain ⟨-, limit, failed⟩ := parted
    cases failed

/-- The coupling of an evaluation with one that may be deeper. They part where the second one is
too deep. -/
abbrev shallower : Coupling Memory Memory :=
  placeless True

theorem quiet_placeless : (placeless mayPart : Coupling Memory Memory).Quiet where
  cacheable together := together.cacheable
  engine together := together.engine
  forbid together := { together with cacheable := rfl }
  renew together engine := { together with engine }
  parted _ parted := parted

theorem encloses_placeless : (placeless mayPart : Coupling Memory Memory).Encloses where
  forbid may together := { together with cacheable := congrArg (· && may) together.cacheable }
  note _ together := { together with engine := together.engine }
  environment _ together := { together with environment := rfl }
  environmentBack before after := { after with environment := before.environment }
  callDepth _ together := ⟨together.environment, together.cacheable, together.engine⟩
  callDepthBack _ after := ⟨after.environment, after.cacheable, after.engine⟩
  keepsForbid _ parted := parted
  keepsNote _ parted := parted

theorem suits_placeless (setting : NestedSetting Memory) :
    (placeless mayPart).Suits setting setting where
  operations := rfl
  types := rfl
  bind _ name value uses _ _ together :=
    { together with
      environment := congrArg (·.push.define name value uses) together.environment }
  pop _ _ _ together :=
    { together with environment := congrArg Environment.pop together.environment }

/-- Evaluations that do not part do not where they may. -/
theorem Simulates.allowParting {first second : Evaluation Memory Result}
    (simulates : (placeless False).Simulates level first second) (mayPart : Prop) :
    (placeless mayPart).Simulates level first second := by
  refine ⟨fun machine machine' together => ?_, quiet_placeless.keeps first⟩
  rcases simulates.1 machine machine' together with after | ⟨never, -⟩
  · exact Or.inl after
  · exact never.elim

/-- A visit changes nothing but the number of visits and the journal, if there is no deadline. -/
theorem visit_eq (noDeadline : setting.deadline = none) (depth : Nat) (expression : Expression)
    (machine : Machine Memory) :
    ∃ after, visit setting depth expression machine = (.ok (), after) ∧
      machine.SameButPlace after := by
  unfold visit isTimeUp
  rw [noDeadline]
  dsimp only
  split
  next reached => cases reached
  · split
    · exact ⟨_, rfl, rfl, rfl, rfl⟩
    · exact ⟨_, rfl, rfl, rfl, rfl⟩

theorem simulates_visit_placeless (noDeadline : setting.deadline = none) (depth depth' : Nat)
    (expression expression' : Expression) :
    (placeless mayPart).Simulates level (visit setting depth expression)
      (visit setting depth' expression') := by
  refine ⟨fun machine machine' together => Or.inl ?_, quiet_placeless.keeps _⟩
  obtain ⟨after, visited, same⟩ := visit_eq noDeadline depth expression machine
  obtain ⟨after', visited', same'⟩ := visit_eq noDeadline depth' expression' machine'
  rw [visited, visited']
  exact ⟨.same _, same.symm.trans (Machine.SameButPlace.trans together same')⟩

/-- A coupling that takes no notice of the place of the evaluations: of the number of visits, the
depth of the call and the journal. -/
structure IgnoresPlace (coupling : Coupling Memory Memory) : Prop where
  first : ∀ {level machine machine' after}, coupling.together level machine machine' →
    machine.SameButPlace after → coupling.together level after machine'
  second : ∀ {level machine machine' after'}, coupling.together level machine machine' →
    machine'.SameButPlace after' → coupling.together level machine after'

theorem ignoresPlace_placeless : (placeless mayPart : Coupling Memory Memory).IgnoresPlace where
  first together same := same.symm.trans together
  second together same := Machine.SameButPlace.trans together same

/-- The second evaluation may visit a node that the first one does not have. -/
theorem Simulates.before_visit {coupling : Coupling Memory Memory}
    (ignoresPlace : coupling.IgnoresPlace) (noDeadline : setting.deadline = none) (depth : Nat)
    (expression : Expression) {first second : Evaluation Memory Value}
    (simulates : coupling.Simulates level first second) :
    coupling.Simulates level first
      (do
        visit setting depth expression
        second) := by
  refine ⟨fun machine machine' together => ?_, simulates.2⟩
  obtain ⟨after, visited, same⟩ := visit_eq noDeadline depth expression machine'
  show coupling.Agree level (first machine)
    (andThen (visit setting depth expression) (fun _ => second) machine')
  unfold andThen
  rw [visited]
  exact simulates.1 machine after (ignoresPlace.second together same)

/-- The first evaluation may visit a node that the second one does not have. -/
theorem Simulates.after_visit {coupling : Coupling Memory Memory}
    (ignoresPlace : coupling.IgnoresPlace) (noDeadline : setting.deadline = none) {depth : Nat}
    {expression : Expression} {first second : Evaluation Memory Value}
    (keeps : coupling.Keeps (visit setting depth expression))
    (simulates : coupling.Simulates level first second) :
    coupling.Simulates level
      (do
        visit setting depth expression
        first) second := by
  refine ⟨fun machine machine' together => ?_, keeps.bind fun _ => simulates.2⟩
  obtain ⟨after, visited, same⟩ := visit_eq noDeadline depth expression machine
  show coupling.Agree level (andThen (visit setting depth expression) (fun _ => first) machine)
    (second machine')
  unfold andThen
  rw [visited]
  exact simulates.1 after machine' (ignoresPlace.first together same)

theorem readVariable_placeless (name : String) :
    (placeless mayPart).Simulates level (readVariable setting name)
      (readVariable setting name) := by
  refine ⟨fun machine machine' together => Or.inl ?_, quiet_placeless.keeps _⟩
  unfold readVariable
  rw [together.environment]
  split
  · exact ⟨.same _, together⟩
  · split
    · exact ⟨.same _, { together with environment := rfl }⟩
    · split <;> exact ⟨.same _, together⟩

/-- Where the second evaluation is too deep, the two have parted. -/
theorem simulates_of_tooDeep (first : Evaluation Memory Value) (limit : Nat) :
    shallower.Simulates level first (fail (.depthExceeded limit)) :=
  ⟨fun _ _ _ => Or.inr ⟨trivial, limit, rfl⟩, quiet_placeless.keeps _⟩

end Coupling

/-- Functions of which those of the host do not ask how many nodes have been visited or how deep a
call is. -/
def FunctionRegistry.IgnoresPlace (registry : FunctionRegistry Memory) : Prop :=
  ∀ name function host, registry.get? name = some function → function.callable = .host host →
    ∀ arguments hint, (host arguments hint).AsksOnly fun request => ¬ request.AsksWhere

theorem FunctionRegistry.ignoresPlace_empty :
    (empty : FunctionRegistry Memory).IgnoresPlace :=
  fun _ _ _ found => nomatch found

/-- A function written in the language asks for nothing. -/
theorem FunctionRegistry.IgnoresPlace.register {registry : FunctionRegistry Memory}
    (ignores : registry.IgnoresPlace) (definition : FunctionDefinition) :
    (registry.register definition.toFunction).IgnoresPlace :=
  fun name function host known =>
    forall_register (fun name function known host => ignores name function host known)
      (fun _ callable => by cases callable) name function known host

/-- A setting in which evaluations come to the same wherever they take place: there is no
deadline, host functions do not ask for the place, and the way back into the engine takes no notice
of the journal. -/
structure Setting.IgnoresPlace (setting : Setting Memory) : Prop where
  noDeadline : setting.deadline = none
  functions : setting.functions.IgnoresPlace
  reenter : Registries.IgnoresJournal setting.reenter

/-- A setting in which evaluations for host functions do not depend on the place either. -/
structure NestedSetting.IgnoresPlace (setting : NestedSetting Memory) : Prop
    extends setting.toSetting.IgnoresPlace where
  interpret : (Coupling.placeless False).InterpretsAlike setting setting

namespace Coupling

open Evaluation

variable {setting : NestedSetting Memory} {level : Nat} {mayPart : Prop}
  {body body' : Expression → Evaluation Memory Value}

/-- A request that does not ask for the place is answered alike at two places. -/
theorem simulates_respond_placeless (ignores : setting.IgnoresPlace) (request : Request Memory)
    (elsewhere : ¬ request.AsksWhere) :
    (placeless mayPart).Simulates level (respond setting request) (respond setting request) := by
  cases request with
  | interpret tree environment depth =>
    have simulates : (placeless False).Simulates level _ _ := simulates_interpret
      ignores.interpret (fun _ _ => id) (fun _ _ together => together.environment)
      (fun _ _ _ parted => parted.1.elim) rfl rfl
      (fun _ _ _ together => { together with environment := rfl })
      (fun _ _ _ _ before after => { after with environment := before.environment }) tree
      environment depth
    exact simulates.allowParting mayPart
  | _ =>
    exact quiet_placeless.respond ignores.reenter setting.interpret setting.interpret _ elsewhere
      id

theorem callablesAlike_placeless (ignores : setting.IgnoresPlace) {name : String}
    {function : RegisteredFunction Memory} (found : setting.functions.get? name = some function) :
    CallablesAlike (placeless mayPart) setting setting True function.callable
      function.callable := by
  cases callable : function.callable with
  | defined parameters body => exact .defined parameters body
  | host host =>
    exact .host (fun _ _ => quiet_placeless.keeps _) fun _ level arguments hint =>
      simulates_runProgram (simulates_respond_placeless ignores) _
        (ignores.functions name function host found callable arguments hint)

/-- Calls go together at any two depths if the bodies of functions do. -/
theorem simulates_dispatch_placeless (ignores : setting.IgnoresPlace)
    (bodies : ∀ level expression,
      (placeless mayPart).Simulates level (body expression) (body' expression))
    (depth depth' : Nat) (name : String) (hint : Option String) (values : List Value) :
    (placeless mayPart).Simulates level (dispatch setting depth body name hint values)
      (dispatch setting depth' body' name hint values) := by
  unfold dispatch
  split
  · exact simulates_fail _
  · cases found : setting.functions.get? name with
    | some function =>
      exact simulates_callFunction_of_enters encloses_placeless rfl rfl rfl
        (callablesAlike_placeless ignores found) bodies
        (fun _ _ together => ⟨together.environment, together.cacheable, together.engine⟩) name hint
        values
    | none =>
      dsimp only
      split
      · exact simulates_fail _
      · exact simulates_pure _

/-- An evaluation goes together with one of the same tree that has at most as many levels left. They
do not part if it has as many. -/
theorem simulates_levels (ignores : setting.IgnoresPlace) {levels left : Nat}
    (fewer : left ≤ levels) (parts : left < levels → mayPart) (level : Nat)
    (expression : Expression) :
    (placeless mayPart).Simulates level (evaluateWithin setting levels expression)
      (evaluateWithin setting left expression) := by
  -- The body of a function lies two levels deeper, so the induction reaches further back.
  induction left using Nat.strongRecOn generalizing levels level expression with
  | ind left inductionHypothesis =>
    cases left with
    | zero =>
      cases levels with
      | zero => exact simulates_fail _
      | succ levels =>
        exact ⟨fun _ _ _ => Or.inr ⟨parts (by omega), _, rfl⟩, quiet_placeless.keeps _⟩
    | succ left =>
      cases levels with
      | zero => exact absurd fewer (by omega)
      | succ levels =>
        rw [evaluateWithin_succ, evaluateWithin_succ, step_eq, step_eq]
        refine (simulates_visit_placeless ignores.noDeadline _ _ _ _).bind fun _ => ?_
        refine simulates_stepWith (suits_placeless setting) level expression
          (fun level part _ => inductionHypothesis left (by omega) (by omega)
            (fun less => parts (by omega)) level part)
          (fun name _ _ _ _ together => congrArg (·.contains name) together.environment)
          (fun name _ => readVariable_placeless name)
          (simulates_dispatch_placeless ignores (fun level body => ?_) _ _)
        rw [bodyWithin_eq, bodyWithin_eq]
        exact inductionHypothesis (left - 1) (by omega) (by omega) (fun less => parts (by omega))
          level body

theorem simulates_fewerLevels (ignores : setting.IgnoresPlace) {levels left : Nat}
    (fewer : left ≤ levels) (level : Nat) (expression : Expression) :
    shallower.Simulates level (evaluateWithin setting levels expression)
      (evaluateWithin setting left expression) :=
  simulates_levels ignores fewer (fun _ => trivial) level expression

/-- An evaluation goes together with one of the same tree that is deeper. -/
theorem simulates_deeper (ignores : setting.IgnoresPlace) {depth depth' : Nat}
    (deeper : depth ≤ depth') (level : Nat) (expression : Expression) :
    shallower.Simulates level (evaluateAt setting depth expression)
      (evaluateAt setting depth' expression) :=
  simulates_fewerLevels ignores (by omega) level expression

/-- Unless it is too deep, the second evaluation comes to what the first one comes to, and leaves
the same machine but for the place. -/
theorem Simulates.same_unless_tooDeep {first second : Evaluation Memory Value}
    (simulates : shallower.Simulates level first second) {machine : Machine Memory}
    (notTooDeep : ∀ limit, (second machine).1 ≠ .error (.depthExceeded limit)) :
    (first machine).1 = (second machine).1 ∧
      (first machine).2.SameButPlace (second machine).2 := by
  rcases (simulates.1 machine machine ⟨rfl, rfl, rfl⟩).equal fun _ _ => id with same | parted
  · exact same
  · obtain ⟨-, limit, failed⟩ := parted
    exact absurd (eq_error_of_failure? failed) (notTooDeep limit)

end Coupling

/-- However deep host functions nest evaluations, none of them depends on the place. -/
theorem Setting.IgnoresPlace.nested {setting : Setting Memory} (ignores : setting.IgnoresPlace)
    (nestings : Nat) : (setting.nested nestings).IgnoresPlace := by
  refine ⟨ignores, fun depth tree => ?_⟩
  show (Coupling.placeless False).Simulates 0
    (Evaluation.interpretWithin setting nestings depth tree)
    (Evaluation.interpretWithin setting nestings depth tree)
  induction nestings generalizing depth tree with
  | zero => exact Coupling.simulates_fail _
  | succ nestings inductionHypothesis =>
    have ignoresInside : (setting.nested nestings).IgnoresPlace := ⟨ignores, inductionHypothesis⟩
    exact Coupling.simulates_levels ignoresInside (Nat.le_refl _)
      (fun less => absurd less (Nat.lt_irrefl _)) 0 tree

/-- The evaluations of an engine come to the same wherever they take place: its way back into
itself takes no notice of the journal. -/
theorem Registries.ignoresPlace_setting {registries : Registries Memory}
    {configuration : Configuration} (functions : registries.functions.IgnoresPlace)
    (noDeadline : configuration.timeout? = none) (begun reentries : Nat) :
    (registries.setting begun (backThrough (registries.runWithin reentries))
      configuration).IgnoresPlace where
  noDeadline := by
    show Option.map _ configuration.timeout? = none
    rw [noDeadline]
    rfl
  functions := functions
  reenter := ignoresJournal_backThrough (registries.runWithin_silent reentries)

/-! ### Evaluations inside further scopes -/

namespace Environment

/-- Scopes opened in an environment make no difference to the names that they do not bind. -/
def Translation.inside (errors : EvaluationError → EvaluationError → Prop) (opened : List Scope) :
    Translation errors where
  Alike first second := second = within opened first
  names name := opened.findSome? (fun scope => scope.get? name) = none
  rename := id
  contains := by
    rintro first _ name rfl unbound
    rw [id, contains_within, unbound, Option.isSome_none, Bool.false_or]
  bound _ _ changed := absurd rfl changed
  read := by
    rintro first _ name rfl unbound
    rw [id, read_within_of_unbound ((readInner?_eq_none_iff opened).2 unbound)]
    exact ⟨.same _, rfl⟩

end Environment

namespace Coupling

open Evaluation Environment

variable {setting : NestedSetting Memory}

/-- A comparison with deeper evaluations can be rested on. -/
theorem carries_shallower (ignores : setting.IgnoresPlace) :
    shallower.Carries setting fun levels left => left ≤ levels where
  same _ _ := id
  parted _ := id
  environment _ together := { together with environment := rfl }
  tooDeep _ := Or.inr fun _ _ => ⟨trivial, _, rfl⟩
  more {levels left} fewer := by
    cases levels with
    | zero => exact absurd fewer (by omega)
    | succ more =>
      refine ⟨more, rfl, by omega, fun expression expression' _ =>
        simulates_visit_placeless ignores.noDeadline _ _ _ _, fun name hint values => ?_⟩
      refine simulates_dispatch_placeless ignores (fun level body => ?_) _ _ name hint values
      rw [bodyWithin_eq, bodyWithin_eq]
      exact simulates_fewerLevels ignores (by omega) level body

theorem IgnoresPlace.translated {base : Coupling Memory Memory} (ignores : base.IgnoresPlace)
    (translation : Environment.Translation errors) :
    (base.translated translation).IgnoresPlace where
  first {level machine machine' after} together same := by
    refine ⟨same.environment ▸ together.1, ?_⟩
    rw [← same.environment]
    exact ignores.first together.2 same
  second together same :=
    ⟨same.environment ▸ together.1, ignores.second together.2 ⟨rfl, same.cacheable, same.engine⟩⟩

/-- The coupling of an evaluation with one that may be deeper, and that takes place inside scopes
opened in the environment of the first. -/
def shallowerInside (opened : List Scope) : Coupling Memory Memory :=
  shallower.translated (.inside (fun _ _ => False) opened)

variable {opened : List Scope} {level : Nat} {first second : Evaluation Memory Value}

theorem keeps_shallowerInside (action : Evaluation Memory Result) :
    (shallowerInside opened).Keeps action :=
  fun _ _ _ parted => parted

theorem ignoresPlace_shallowerInside :
    (shallowerInside opened : Coupling Memory Memory).IgnoresPlace :=
  ignoresPlace_placeless.translated _

/-- Where no level is left, the second evaluation is too deep. -/
theorem simulates_shallowerInside_zero (first : Evaluation Memory Value)
    (expression : Expression) :
    (shallowerInside opened).Simulates level first (evaluateWithin setting 0 expression) :=
  ⟨fun _ _ _ => Or.inr ⟨trivial, _, rfl⟩, keeps_shallowerInside first⟩

/-- An evaluation goes together with a deeper one inside scopes that bind no free name. -/
theorem simulates_shallowerInside (ignores : setting.IgnoresPlace) {levels left : Nat}
    (fewer : left ≤ levels) {expression : Expression}
    (unbound : ∀ name, expression.HasFree name →
      opened.findSome? (fun scope => scope.get? name) = none) :
    (shallowerInside opened).Simulates 0 (evaluateWithin setting levels expression)
      (evaluateWithin setting left expression) :=
  (carries_shallower ignores).evaluateWithin_of_unchanged (.inside _ opened) rfl fewer unbound

/-- What goes together inside the scope of a `let` goes together where the second evaluation opens
that scope and drops it. -/
theorem Simulates.inside_binding {name : String} {value : Value}
    (simulates : (shallowerInside (bindingScope name value .unlimited :: opened)).Simulates 0 first
      second) :
    (shallowerInside opened).Simulates level first (inScope do
      update fun machine =>
        { machine with environment := machine.environment.define name value .unlimited }
      second) := by
  rw [eq_bracketed first, inScope_define_eq_bracketed]
  refine simulates.bracketed_into rfl rfl (fun machine machine' together => ?_)
    fun _ _ after after' _ together => ?_
  · refine ⟨?_, together.2⟩
    rw [show machine'.environment = _ from together.1]
    rfl
  · refine ⟨?_, together.2⟩
    rw [show after'.environment = _ from together.1]
    rfl

/-- Inside no further scopes the coupling is that of a deeper evaluation. -/
theorem simulates_of_inside_nil (simulates : (shallowerInside []).Simulates level first second) :
    shallower.Simulates level first second := by
  refine ⟨fun machine machine' together => ?_, simulates.2⟩
  have inside : (shallowerInside []).together level machine machine' :=
    ⟨together.environment.symm, rfl, together.cacheable, together.engine⟩
  rcases simulates.1 machine machine' inside with ⟨corresponds, environment, after⟩ | parted
  · exact Or.inl ⟨corresponds, Eq.symm environment, after.cacheable, after.engine⟩
  · exact Or.inr parted

end Coupling

end Reckon
