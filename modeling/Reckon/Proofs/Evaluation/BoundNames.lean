/-
This file shows that the name of a `let` does not matter. Another name may be
put in its place, and in the place of its free occurrences in the body, as long
as the other name is nowhere in the body. The evaluation then visits the same
nodes, does the same, and leaves the same machine. Only the error of a binding
whose uses are exhausted tells the name.

In the body the two scopes of the `let` stand for each other: what the one name
means in the first, the other one means in the second, and all other names mean
the same in both. The other name itself is not asked for there.
-/

import Reckon.Proofs.Evaluation.Invariant
import Reckon.Proofs.Evaluation.Overlooked
import Reckon.Proofs.Evaluation.Translation

namespace Reckon

/-- The errors of two names whose uses are exhausted. -/
def EvaluationError.ExceedsUsesOf (name other : String) (error error' : EvaluationError) :
    Prop :=
  ∃ allowed, error = .usesExceeded name allowed ∧ error' = .usesExceeded other allowed

/-- A binding gives the same under two names, up to the name in the error. -/
theorem Binding.answer_corresponds (binding : Binding) (name other : String) :
    Corresponds (EvaluationError.ExceedsUsesOf name other) (binding.answer name)
      (binding.answer other) := by
  unfold Binding.answer
  split
  next allowed _ => exact .errors ⟨allowed, rfl, rfl⟩
  · exact .same _

namespace Environment

/-- The environments inside two `let`s that differ in the name. The second name means in the first
environment what it means outside, so it is left out. -/
def Translation.rebound (bound other : String) :
    Translation (EvaluationError.ExceedsUsesOf bound other) where
  Alike first second := ∃ value allowance outer,
    first = within [bindingScope bound value allowance] outer ∧
      second = within [bindingScope other value allowance] outer
  names name := name ≠ other
  rename name := if name = bound then other else name
  contains := by
    rintro first second name ⟨value, allowance, outer, rfl, rfl⟩ different
    rw [contains_bindingScope, contains_bindingScope]
    by_cases same : name = bound
    · rw [if_pos same, decide_eq_true same, decide_eq_true rfl, Bool.true_or, Bool.true_or]
    · rw [if_neg same, decide_eq_false same, decide_eq_false different]
  bound := by
    rintro first second name ⟨value, allowance, outer, rfl, rfl⟩ _ changed
    have same : name = bound := Classical.byContradiction fun different =>
      changed (if_neg different)
    rw [contains_bindingScope, decide_eq_true same, Bool.true_or]
  read := by
    rintro first second name ⟨value, allowance, outer, rfl, rfl⟩ different
    by_cases same : name = bound
    · rw [if_pos same, same, read_bindingScope_self, read_bindingScope_self]
      exact ⟨Binding.answer_corresponds _ bound other, value, allowance.afterUse, outer, rfl, rfl⟩
    · rw [if_neg same, read_within_of_unbound (readInner?_bindingScope_of_ne same),
        read_within_of_unbound (readInner?_bindingScope_of_ne different)]
      exact ⟨.same _, value, allowance, _, rfl, rfl⟩

/-- An expression in which the new name does not occur is evaluated alike in both. -/
theorem Translation.admits_rebound {configuration : Configuration} {bound other : String}
    {body : Expression} (unmentioned : ¬ body.Mentions other) (unbound : ¬ body.Binds other)
    (allowed : configuration.isVariableAllowed bound = true)
    (otherAllowed : configuration.isVariableAllowed other = true) :
    (rebound bound other).Admits configuration body where
  free name free same := unmentioned (same ▸ free.mentions)
  apart inner binds name _ different := by
    show (if name = bound then other else name) ≠ inner
    split
    · exact fun same => unbound (same ▸ binds)
    · exact different
  allowed name _ changed := by
    have same : name = bound := Classical.byContradiction fun different =>
      changed (if_neg different)
    show _ ∧ configuration.isVariableAllowed (if name = bound then other else name) = true
    rw [if_pos same, same]
    exact ⟨allowed, otherAllowed⟩

end Environment

variable {Memory : Type}

namespace Coupling

open Evaluation

/-- Evaluations that are one and the same carry the comparison. -/
theorem carries_itself (setting : NestedSetting Memory) :
    (itself fun _ _ => True : Coupling Memory Memory).Carries setting Eq where
  same _ _ := id
  parted _ := False.elim
  environment _ together := by
    obtain ⟨rfl, _⟩ := together
    exact ⟨rfl, trivial⟩
  tooDeep fit := Or.inl fit
  more {levels left} fit := by
    refine ⟨left, fit, rfl, fun expression expression' sort => ?_, fun name hint values => ?_⟩
    · have same : visit setting.toSetting (setting.depthLimit - left) expression =
          visit setting.toSetting (setting.depthLimit - left) expression' := by
        unfold visit
        rw [sort]
      rw [same]
      exact simulates_itself_iff.2 fun _ _ => trivial
    · exact simulates_itself_iff.2 fun _ _ => trivial

end Coupling

open Coupling Environment in
/-- Let-bound names can be renamed. Another name that is nowhere in the body may stand for the
name of a `let`, at the `let` and where its name is free in the body, if the filter of variables
lets both names through. The evaluation comes to the same, or to the error of the other name where
the uses of the binding are exhausted, and leaves the same machine: visits, cacheability,
environment and all. -/
theorem Evaluation.evaluate_rebound (setting : Setting Memory) (depth : Nat)
    {name other : String} (value : Expression) (uses : UseLimit) {body : Expression}
    (unmentioned : ¬ body.Mentions other) (unbound : ¬ body.Binds other)
    (allowed : setting.configuration.isVariableAllowed name = true)
    (otherAllowed : setting.configuration.isVariableAllowed other = true)
    (machine : Machine Memory) :
    let outcome := evaluate setting depth (.binding name value uses body) machine
    let outcome' :=
      evaluate setting depth (.binding other value uses (body.replacing name other)) machine
    Corresponds (EvaluationError.ExceedsUsesOf name other) outcome.1 outcome'.1 ∧
      outcome'.2 = outcome.2 := by
  have carries := carries_itself (setting.nested setting.nestings)
  have admits := Translation.admits_rebound unmentioned unbound allowed otherAllowed
  have agrees : ∀ {Result : Type} (action : Evaluation Memory Result),
      ((itself fun _ _ => True).translated
        (.identity (EvaluationError.ExceedsUsesOf name other))).Simulates 0 action action := by
    intro Result action
    refine ⟨fun machine machine' together => Or.inl ?_, carries.keeps action⟩
    obtain ⟨same, rest, -⟩ := together
    obtain rfl : machine = machine' := by
      rw [rest, same]
    exact ⟨.same _, rfl, rfl, trivial⟩
  have simulates : ((itself fun _ _ => True).translated
      (.identity (EvaluationError.ExceedsUsesOf name other))).Simulates 0
        (evaluate setting depth (.binding name value uses body))
        (evaluate setting depth (.binding other value uses (body.replacing name other))) := by
    unfold evaluate evaluateAt
    cases (setting.nested setting.nestings).depthLimit + 1 - depth with
    | zero => exact agrees _
    | succ levels =>
      rw [evaluateWithin_succ, evaluateWithin_succ]
      refine (agrees (visit setting (setting.depthLimit - levels)
        (.binding name value uses body))).bind fun _ => ?_
      refine (agrees (evaluateWithin (setting.nested setting.nestings) levels
        value)).bind fun bound => ?_
      rw [inScope_define_eq_bracketed, inScope_define_eq_bracketed]
      refine (carries.evaluateWithin rfl (.rebound name other) body admits).bracketed_into rfl rfl
        (fun machine machine' together => ?_) fun machine machine' after after' _ together => ?_
      · have entered :=
          carries.environment (machine.environment.push.define name bound uses) together.2
        have same : machine.environment = machine'.environment := together.1
        exact ⟨⟨bound, .ofLimit uses, machine.environment, rfl, by rw [same]; rfl⟩, entered⟩
      · have left := carries.environment after.environment.pop together.2
        obtain ⟨value, allowance, outer, inside, inside'⟩ := together.1
        refine ⟨?_, left⟩
        show after.environment.pop = after'.environment.pop
        rw [inside, inside']
        rfl
  rcases simulates.1 machine machine ⟨rfl, rfl, trivial⟩ with ⟨corresponds, same, rest, -⟩ | parted
  · refine ⟨corresponds, ?_⟩
    have environments :
        (evaluate setting depth (.binding name value uses body) machine).2.environment = _ := same
    rw [rest, environments]
  · exact parted.elim

/-- A `let` of `x` with one use, whose body binds `x` anew with that use, casts the new `x`, and
then reads the old one once too often. -/
theorem Evaluation.evaluate_rebound_shadowed :
    let setting := Setting.few {}
    let machine := Machine.start .empty (.initial {} ())
    let body (bound outer : String) : Expression :=
      .binary .and (.binding bound (.variable outer) .unlimited (.cast "bool" (.variable bound)))
        (.variable outer)
    let written : Expression := .binding "x" (.boolean true) (.limited 1) (body "x" "x")
    let rebound : Expression := .binding "y" (.boolean true) (.limited 1) (body "x" "y")
    (body "x" "x").replacing "x" "y" = body "x" "y" ∧
      failure? (evaluate setting 0 written machine).1 = some (.usesExceeded "x" 1) ∧
      Corresponds (EvaluationError.ExceedsUsesOf "x" "y")
        (evaluate setting 0 written machine).1 (evaluate setting 0 rebound machine).1 ∧
      (evaluate setting 0 rebound machine).2 = (evaluate setting 0 written machine).2 ∧
      (evaluate setting 0 written machine).2.visits = 8 := by
  intro setting machine body written rebound
  have unmentioned : ∀ {name other : String}, name ≠ other →
      ¬ (body name name).Mentions other := by
    intro name other different mentions
    cases mentions with
    | left _ _ mentions =>
      cases mentions with
      | value _ _ _ mentions => cases mentions; exact different rfl
      | body _ _ _ mentions =>
        cases mentions with
        | inner _ mentions => cases mentions; exact different rfl
    | right _ _ mentions => cases mentions; exact different rfl
  have unbound : ∀ {name other : String}, name ≠ other → ¬ (body name name).Binds other := by
    rintro name other different ⟨value, uses, bound, inside⟩
    cases inside with
    | left _ _ inside =>
      cases inside with
      | itself => exact different rfl
      | value _ _ _ inside => nomatch inside
      | body _ _ _ inside =>
        cases inside with
        | inner _ inside => nomatch inside
    | right _ _ inside => nomatch inside
  have different : "x" ≠ "y" := by decide
  have allowed : setting.configuration.isVariableAllowed "x" = true := rfl
  have same := evaluate_rebound setting 0 (.boolean true) (.limited 1) (unmentioned different)
    (unbound different) allowed rfl machine
  exact ⟨rfl, by decide +kernel, same.1, same.2, by decide +kernel⟩

end Reckon
