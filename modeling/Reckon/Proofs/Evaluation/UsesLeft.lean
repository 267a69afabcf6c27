/-
This file shows what of a binding can influence an evaluation: its value and
the uses it has left. Two environments may have counted down to these from
different limits. An evaluation then comes to the same in both, and uses as
many of the uses left, but the error of a name whose uses are exhausted tells
the limit.
-/

import Reckon.Proofs.Evaluation.Mentions
import Reckon.Proofs.Evaluation.Overlooked

namespace Reckon

/-- The limit from which an allowance counts down, if there is one. -/
def Allowance.allowed? : Allowance → Option Nat
  | .unlimited => none
  | .limited allowed _ => some allowed

/-- The errors of a name of a kind whose uses are exhausted, each with the limit that the name
has. -/
def EvaluationError.ExceedsLimits (names : String → Prop) (limits limits' : String → Option Nat)
    (error error' : EvaluationError) : Prop :=
  ∃ name allowed allowed', names name ∧
    limits name = some allowed ∧ error = .usesExceeded name allowed ∧
    limits' name = some allowed' ∧ error' = .usesExceeded name allowed'

/-- Bindings with the same value and the same number of uses left, of names of a kind that have
given limits. -/
def Binding.Likeness.usesLeft (names : String → Prop) (limits limits' : String → Option Nat) :
    Binding.Likeness where
  Alike name binding binding' := names name ∧ binding.value = binding'.value ∧
    binding.allowance.left? = binding'.allowance.left? ∧
    binding.allowance.allowed? = limits name ∧ binding'.allowance.allowed? = limits' name
  errors := EvaluationError.ExceedsLimits names limits limits'
  afterRead := by
    rintro name ⟨value, allowance⟩ ⟨value', allowance'⟩ ⟨among, rfl, left, allowed, allowed'⟩
    refine ⟨among, rfl, ?_⟩
    cases allowance with
    | unlimited =>
      cases allowance' with
      | unlimited => exact ⟨rfl, allowed, allowed'⟩
      | limited => cases left
    | limited =>
      cases allowance' with
      | unlimited => cases left
      | limited =>
        obtain rfl := Option.some.inj left
        exact ⟨rfl, allowed, allowed'⟩
  answer := by
    rintro name ⟨value, allowance⟩ ⟨value', allowance'⟩ ⟨among, rfl, left, allowed, allowed'⟩
    cases allowance with
    | unlimited =>
      cases allowance' with
      | unlimited => exact .same _
      | limited => cases left
    | limited limit count =>
      cases allowance' with
      | unlimited => cases left
      | limited limit' =>
        obtain rfl := Option.some.inj left
        cases count with
        | zero => exact .errors ⟨name, limit, limit', among, allowed.symm, rfl, allowed'.symm, rfl⟩
        | succ more => exact .same _

namespace Environment

/-- The limit from which the uses of a name count down; nothing for one without a limit or a
binding. -/
def useLimit? (environment : Environment) (name : String) : Option Nat :=
  (environment.find? name).bind fun binding => binding.allowance.allowed?

/-- Two environments in which each name of a kind is undefined in both, or has the same value and
as many uses left. -/
def SameUsesLeft (names : String → Prop) (first second : Environment) : Prop :=
  ∀ name, names name → first.peek? name = second.peek? name ∧
    first.usesLeft? name = second.usesLeft? name

variable {names : String → Prop} {limits limits' : String → Option Nat}
  {first second : Environment}

theorem useLimit?_of_find? {environment : Environment} {name : String} {binding : Binding}
    (found : environment.find? name = some binding) :
    environment.useLimit? name = binding.allowance.allowed? := by
  unfold useLimit?
  rw [found]
  rfl

theorem agreeBy_of_sameUsesLeft (same : first.SameUsesLeft names second) :
    first.AgreeBy (.usesLeft names first.useLimit? second.useLimit?) names second := by
  intro name among
  obtain ⟨values, left⟩ := same name among
  unfold peek? at values
  unfold usesLeft? at left
  cases found : first.find? name with
  | none =>
    cases found' : second.find? name with
    | none => exact .none
    | some binding' =>
      rw [found, found'] at values
      cases values
  | some binding =>
    cases found' : second.find? name with
    | none =>
      rw [found, found'] at values
      cases values
    | some binding' =>
      rw [found, found'] at values left
      exact .some ⟨among, Option.some.inj values, left, (useLimit?_of_find? found).symm,
        (useLimit?_of_find? found').symm⟩

theorem SameUsesLeft.of_agreeBy
    (agree : first.AgreeBy (.usesLeft names limits limits') names second) :
    first.SameUsesLeft names second := by
  intro name among
  have related := agree name among
  unfold peek? usesLeft?
  generalize first.find? name = found at related
  generalize second.find? name = found' at related
  cases related with
  | none => exact ⟨rfl, rfl⟩
  | some alike => exact ⟨congrArg some alike.2.1, alike.2.2.1⟩

/-! ### An exhausted name -/

/-- The environment in which a name has a value, after as many reads as its limit allows. -/
def exhausted (name : String) (value : Value) (limit : Nat) : Environment :=
  Nat.repeat (fun environment : Environment => (environment.read name).2) limit
    (Environment.empty.define name value (.limited limit))

/-- With one limit or another, the name has the same value and no uses left. -/
theorem sameUsesLeft_exhausted :
    (exhausted "x" (.integer 7) 1).SameUsesLeft (Expression.variable "x").Mentions
      (exhausted "x" (.integer 7) 2) := by
  intro name mentions
  cases mentions
  exact ⟨by decide +kernel, by decide +kernel⟩

end Environment

/-! ### Evaluations -/

variable {Memory : Type}

/-- Only the names an expression mentions can influence it. In two environments in which each of
these is undefined in both, or has the same value and as many uses left, an evaluation comes to the
same, leaves the same machine, and leaves as many uses of each of the names; only the error of
a name whose uses are exhausted tells in each environment the limit of the name there. So it comes
to the same for two callers whose variables of these names are the same. -/
theorem Evaluation.evaluate_of_sameUsesLeft (setting : Setting Memory) (depth : Nat)
    (expression : Expression) :
    (∀ (machine : Machine Memory) (environment : Environment),
      machine.environment.SameUsesLeft expression.Mentions environment →
      let outcome := evaluate setting depth expression machine
      let outcome' := evaluate setting depth expression { machine with environment }
      Corresponds (EvaluationError.ExceedsLimits expression.Mentions
          machine.environment.useLimit? environment.useLimit?) outcome.1 outcome'.1 ∧
        outcome'.2 = { outcome.2 with environment := outcome'.2.environment } ∧
        outcome.2.environment.SameUsesLeft expression.Mentions outcome'.2.environment) ∧
    (∀ (given given' : Dictionary String Value) (engine : EngineState Memory),
      (∀ name, expression.Mentions name → given.get? name = given'.get? name) →
      (evaluate setting depth expression (.start (.ofVariables given) engine)).1 =
        (evaluate setting depth expression (.start (.ofVariables given') engine)).1) := by
  refine ⟨fun machine environment same => ?_, fun given given' engine same => ?_⟩
  · obtain ⟨corresponds, others, agree⟩ :=
      evaluate_alike setting depth expression machine (Environment.agreeBy_of_sameUsesLeft same)
    exact ⟨corresponds, others, .of_agreeBy agree⟩
  · exact (evaluate_congr setting depth expression (.start (.ofVariables given) engine)
      (Environment.agreeOn_ofVariables same)).1.symm

/-- A name without uses left is refused whatever its limit was, and a variable that is not
mentioned changes nothing. -/
theorem Evaluation.evaluate_of_sameUsesLeft_exhausted :
    (Environment.exhausted "x" (.integer 7) 1).SameUsesLeft (Expression.variable "x").Mentions
        (.exhausted "x" (.integer 7) 2) ∧
      Corresponds (EvaluationError.ExceedsLimits (Expression.variable "x").Mentions
          (Environment.exhausted "x" (.integer 7) 1).useLimit?
          (Environment.exhausted "x" (.integer 7) 2).useLimit?)
        (evaluate (Setting.few {}) 0 (.variable "x")
          (.start (.exhausted "x" (.integer 7) 1) (.initial {} ()))).1
        (evaluate (Setting.few {}) 0 (.variable "x")
          (.start (.exhausted "x" (.integer 7) 2) (.initial {} ()))).1 ∧
      (evaluate (Setting.few {}) 0 (.variable "x")
          (.start (.ofVariables (Dictionary.empty.insert "x" (.integer 7))) (.initial {} ()))).1 =
        (evaluate (Setting.few {}) 0 (.variable "x")
          (.start (.ofVariables
            ((Dictionary.empty.insert "x" (.integer 7)).insert "unused" (.integer 999)))
            (.initial {} ()))).1 := by
  obtain ⟨environments, callers⟩ := evaluate_of_sameUsesLeft (Setting.few {}) 0 (.variable "x")
  refine ⟨Environment.sameUsesLeft_exhausted,
    (environments (.start (.exhausted "x" (.integer 7) 1) (.initial {} ())) _
      Environment.sameUsesLeft_exhausted).1, callers _ _ _ fun name mentions => ?_⟩
  cases mentions
  rfl

/-- The error of a name whose uses are exhausted is told apart by its limit. -/
theorem Evaluation.evaluate_differs_with_sameUsesLeft :
    (Environment.exhausted "x" (.integer 7) 1).SameUsesLeft (Expression.variable "x").Mentions
        (.exhausted "x" (.integer 7) 2) ∧
      (evaluate (Setting.few {}) 0 (.variable "x")
          (.start (.exhausted "x" (.integer 7) 1) (.initial {} ()))).1 =
        .error (.usesExceeded "x" 1) ∧
      (evaluate (Setting.few {}) 0 (.variable "x")
          (.start (.exhausted "x" (.integer 7) 2) (.initial {} ()))).1 =
        .error (.usesExceeded "x" 2) :=
  ⟨Environment.sameUsesLeft_exhausted, by rfl, by rfl⟩

end Reckon
