/-
This file shows that an evaluation looks nothing up in vain. Of an expression
whose conditionals all have an `else` some branch is always taken, and the
operation behind an operator is always known, since operations are replaced but
never taken away.

Functions of the host and operations may raise the errors of such look-ups
themselves, and then the evaluation ends in them. Nothing else is asked of the
host than that it does not: a function may ask whatever it likes, and may hand
on any error that it was answered with. Only if it has put a tree together with
a conditional without `else`, it has to expect the error for that itself.
-/

import Reckon.Proofs.Evaluation.Errors
import Reckon.Proofs.Grammar.Branches

namespace Reckon

variable {Memory : Type}

/-! ### The errors of look-ups -/

/-- Whether an error says that a conditional has no branch to take, or that an operation is
unknown. -/
def EvaluationError.isOfLookUp : EvaluationError → Bool
  | .noBranchMatched | .unknownOperation _ => true
  | _ => false

/-- Whether an engine answers with such an error of an evaluation. -/
def EngineError.isOfLookUp : EngineError → Bool
  | .evaluation cause => cause.isOfLookUp
  | _ => false

theorem EvaluationError.isOfLookUp_of_isOfRules {error : EvaluationError}
    (ofRules : error.isOfRules = true) : error.isOfLookUp = false := by
  cases error with
  | noBranchMatched | unknownOperation => cases ofRules
  | _ => rfl

/-! ### Functions of the host and operations that leave these errors alone -/

/-- Whether an answer to a request is no error of a look-up. A tree in which a branch may be missing
can be answered with one. -/
def Request.LeavesLookUps : (request : Request Memory) → request.Answer → Prop
  | .coerce _ _, (answer : Except EvaluationError Value) =>
    ∀ error, answer = .error error → error.isOfLookUp = false
  | .interpret tree _ _, (answer : Except EvaluationError Value × Environment) =>
    tree.AlwaysMatches → ∀ error, answer.1 = .error error → error.isOfLookUp = false
  | .evaluate _ _, (answer : Except EngineError Value) =>
    ∀ error, answer = .error error → error.isOfLookUp = false
  | _, _ => True

/-- Whether a program ends in no error of a look-up, unless it was answered with one. -/
def HostProgram.LeavesLookUps : HostProgram Memory → Prop
  | .done result => ∀ error, result = .error error → error.isOfLookUp = false
  | .ask request next =>
    ∀ answer, request.LeavesLookUps answer → LeavesLookUps (next answer)

/-- Whether a function of the host raises no error of a look-up itself, or the body of a function
has a branch for every case. -/
def Callable.LeavesLookUps : Callable Memory → Prop
  | .host function => ∀ arguments hint, (function arguments hint).LeavesLookUps
  | .defined _ body => body.AlwaysMatches

/-- Whether no function raises an error of a look-up itself. -/
def FunctionRegistry.LeavesLookUps (functions : FunctionRegistry Memory) : Prop :=
  ∀ name function, functions.get? name = some function → function.callable.LeavesLookUps

/-- Whether an operation raises no error of a look-up. -/
def Operation.LeavesLookUps (operation : Operation) : Prop :=
  ∀ first second error, operation.apply first second = .error error → error.isOfLookUp = false

/-- Whether the operation behind every operator is known, and none raises an error of a
look-up. -/
structure OperationRegistry.LeavesLookUps (operations : OperationRegistry) : Prop where
  known : ∀ {operator : BinaryOperator} {name}, operator.operationName? = some name →
    ∃ operation, operations.get? name = some operation
  leaves : ∀ name operation, operations.get? name = some operation → operation.LeavesLookUps

/-! ### Registries -/

namespace FunctionRegistry

variable {functions : FunctionRegistry Memory}

theorem LeavesLookUps.register (leaves : functions.LeavesLookUps)
    {function : RegisteredFunction Memory} (leavesToo : function.callable.LeavesLookUps) :
    (functions.register function).LeavesLookUps :=
  forall_register leaves leavesToo

theorem LeavesLookUps.unregister (leaves : functions.LeavesLookUps) (removed : String) :
    (functions.unregister removed).LeavesLookUps :=
  forall_unregister leaves removed

end FunctionRegistry

namespace OperationRegistry

variable {operations : OperationRegistry}

theorem get?_register (operations : OperationRegistry) (operation : Operation) (name : String) :
    (operations.register operation).get? name =
      if lowercase name = lowercase operation.name then some operation
      else operations.get? name :=
  Dictionary.get?_insert _ _ _ _

/-- An operation that is replaced stays known. -/
theorem exists_get?_register {name : String}
    (known : ∃ operation, operations.get? name = some operation) (added : Operation) :
    ∃ operation, (operations.register added).get? name = some operation := by
  rw [get?_register]
  split
  · exact ⟨added, rfl⟩
  · exact known

theorem leaves_register {added : Operation}
    (leaves : ∀ name operation, operations.get? name = some operation → operation.LeavesLookUps)
    (leavesToo : added.LeavesLookUps) (name : String) (operation : Operation)
    (found : (operations.register added).get? name = some operation) :
    operation.LeavesLookUps := by
  rw [get?_register] at found
  split at found
  · cases found
    exact leavesToo
  · exact leaves name operation found

theorem LeavesLookUps.register (leaves : operations.LeavesLookUps) {added : Operation}
    (leavesToo : added.LeavesLookUps) : (operations.register added).LeavesLookUps where
  known named := exists_get?_register (leaves.known named) added
  leaves := leaves_register leaves.leaves leavesToo

theorem leavesLookUps_builtIn : OperationRegistry.builtIn.LeavesLookUps where
  known := by
    intro operator name named
    cases operator <;> cases named <;> exact ⟨_, rfl⟩
  leaves := by
    have total : ∀ (name : String) (apply : Binary64 → Binary64 → Binary64),
        Operation.LeavesLookUps ⟨name, fun first second => .ok (apply first second)⟩ :=
      fun _ _ _ _ _ failed => nomatch failed
    have partly : ∀ (name : String) (apply : Binary64 → Binary64 → Binary64) {cause},
        EvaluationError.isOfLookUp cause = false → Operation.LeavesLookUps ⟨name,
          fun first second =>
            if second.isZero then .error cause else .ok (apply first second)⟩ := by
      intro name apply cause other first second error failed
      dsimp only at failed
      split at failed
      · obtain rfl := Except.error.inj failed
        exact other
      · cases failed
    refine leaves_register (leaves_register (leaves_register (leaves_register (leaves_register
      (leaves_register nofun ?_) ?_) ?_) ?_) ?_) ?_
    · exact total _ _
    · exact total _ _
    · exact total _ _
    · exact partly _ _ rfl
    · exact partly _ _ rfl
    · exact total _ _

end OperationRegistry

/-! ### Evaluations -/

namespace Evaluation

/-- What is expected of an error here: it is none of a look-up. -/
abbrev NotOfLookUp (error : EvaluationError) (_ : Machine Memory) : Prop :=
  error.isOfLookUp = false

variable {setting : NestedSetting Memory}

theorem foresees_notOfLookUp (operations : setting.operations.LeavesLookUps) :
    Foresees setting NotOfLookUp where
  restore _ _ expected := expected
  rules _ ofRules := EvaluationError.isOfLookUp_of_isOfRules ofRules
  operations _ named performed := by
    obtain ⟨operation, found⟩ := operations.known named
    unfold OperationRegistry.perform at performed
    rw [found] at performed
    exact operations.leaves _ operation found _ _ _ performed

/-- A request is answered with no error of a look-up if the engine around the evaluation answers
with none, and no evaluation of a tree ends in one; or the answer is not there. -/
theorem leavesLookUps_respond
    (interprets : ∀ depth (tree : Expression), tree.AlwaysMatches →
      (setting.interpret depth tree).RaisesOnly NotOfLookUp)
    (back : ∀ source given state error, (setting.reenter source given state).1 = .error error →
      error.isOfLookUp = false) (request : Request Memory) (machine : Machine Memory) :
    (∃ answer after, respond setting request machine = (.ok answer, after) ∧
      request.LeavesLookUps answer) ∨
      ∃ after, respond setting request machine = (.error .unfinished, after) := by
  cases request with
  | coerce value typeName =>
    exact Or.inl ⟨_, _, rfl, fun _ failed =>
      EvaluationError.isOfLookUp_of_isOfRules (TypeRegistry.isOfRules_of_coerce failed)⟩
  | interpret tree environment depth =>
    have raises := fun always =>
      interprets depth tree always { machine with environment }
    rcases evaluated : setting.interpret depth tree { machine with environment } with
      ⟨outcome, after⟩
    rw [evaluated] at raises
    rw [respond_interpret evaluated]
    cases isOver outcome with
    | true => exact Or.inl ⟨_, _, rfl, raises⟩
    | false => exact Or.inr ⟨_, rfl⟩
  | evaluate source given =>
    have raises := back source given machine.engine
    rcases evaluated : setting.reenter source given machine.engine with ⟨outcome, after⟩
    rw [evaluated] at raises
    rw [respond_evaluate evaluated]
    cases isAnswered outcome with
    | true => exact Or.inl ⟨_, _, rfl, raises⟩
    | false => exact Or.inr ⟨_, rfl⟩
  | _ => exact Or.inl ⟨_, _, rfl, trivial⟩

theorem raisesOnly_runProgram
    (interprets : ∀ depth (tree : Expression), tree.AlwaysMatches →
      (setting.interpret depth tree).RaisesOnly NotOfLookUp)
    (back : ∀ source given state error, (setting.reenter source given state).1 = .error error →
      error.isOfLookUp = false) {program : HostProgram Memory} (leaves : program.LeavesLookUps) :
    (runProgram setting program).RaisesOnly NotOfLookUp := by
  induction program with
  | done result => exact raisesOnly_ofExcept fun error failed _ => leaves error failed
  | ask request next inductionHypothesis =>
    intro machine error failed
    rcases leavesLookUps_respond interprets back request machine with
      ⟨answer, after, responds, other⟩ | ⟨after, goesOn⟩
    · rw [runProgram, andThen, responds] at failed
      exact inductionHypothesis answer (leaves answer other) after error failed
    · rw [runProgram, andThen, goesOn] at failed
      cases failed
      rfl

/-- An evaluation looks nothing up in vain, unless the host says so, if those do not that host
functions ask for. -/
theorem raisesOnly_evaluateAt
    (interprets : ∀ depth (tree : Expression), tree.AlwaysMatches →
      (setting.interpret depth tree).RaisesOnly NotOfLookUp)
    (operations : setting.operations.LeavesLookUps) (functions : setting.functions.LeavesLookUps)
    (back : ∀ source given state error, (setting.reenter source given state).1 = .error error →
      error.isOfLookUp = false) (depth : Nat) (expression : Expression)
    (always : expression.AlwaysMatches) :
    (evaluateAt setting depth expression).RaisesOnly NotOfLookUp := by
  have foresees := foresees_notOfLookUp operations
  induction depth using induction_on_depth setting.depthLimit generalizing expression with
  | tooDeep depth tooDeep =>
    rw [evaluateAt_of_lt tooDeep]
    intro machine error failed
    cases failed
    rfl
  | within depth within parts bodies =>
    rw [evaluateAt_of_le within, step_eq]
    refine (raisesOnly_visit (fun _ => rfl) depth expression).bind fun _ => ?_
    refine raisesOnly_stepWith foresees expression
      (fun part inside => parts part (always.of_within inside)) (raisesOnly_readVariable foresees)
      (raisesOnly_dispatch foresees (fun name function host found callable arguments hint => ?_)
        (fun name function parameters inner found callable => ?_) _) fun branches same => ?_
    · have leaves := functions name function found
      rw [callable] at leaves
      exact raisesOnly_runProgram interprets back (leaves arguments hint)
    · have leaves := functions name function found
      rw [callable] at leaves
      exact bodies inner leaves
    · subst same
      exact absurd .itself (always branches)

section Nested

variable {setting : Setting Memory}

theorem raisesOnly_interpretWithin (operations : setting.operations.LeavesLookUps)
    (functions : setting.functions.LeavesLookUps)
    (back : ∀ source given state error, (setting.reenter source given state).1 = .error error →
      error.isOfLookUp = false) (nestings depth : Nat) (tree : Expression)
    (always : tree.AlwaysMatches) :
    (interpretWithin setting nestings depth tree).RaisesOnly NotOfLookUp := by
  induction nestings generalizing depth tree with
  | zero =>
    intro machine error failed
    cases failed
    rfl
  | succ nestings inductionHypothesis =>
    exact raisesOnly_evaluateAt inductionHypothesis operations functions back depth tree always

/-- An evaluation looks nothing up in vain, unless the host says so. -/
theorem raisesOnly_evaluate (operations : setting.operations.LeavesLookUps)
    (functions : setting.functions.LeavesLookUps)
    (back : ∀ source given state error, (setting.reenter source given state).1 = .error error →
      error.isOfLookUp = false) (depth : Nat) (expression : Expression)
    (always : expression.AlwaysMatches) :
    (evaluate setting depth expression).RaisesOnly NotOfLookUp :=
  raisesOnly_evaluateAt (raisesOnly_interpretWithin operations functions back setting.nestings)
    operations functions back depth expression always

end Nested

end Evaluation

end Reckon
