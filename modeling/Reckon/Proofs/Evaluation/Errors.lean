/-
This file says which errors an evaluation may end in. What is expected of an
error may depend on the machine that the error leaves behind, but on nothing
that scopes and calls put back.

Most errors come from the rules of the nodes themselves. The others have one
source each: the limits of depth and time, the functions and operations of the
host, and a conditional none of whose branches is taken. That an evaluation is
not finished counts with the rules.
-/

import Reckon.Proofs.Evaluation.Calling

namespace Reckon

variable {Memory Result Other : Type}

/-- Whether the rules of the nodes and of calls raise an error themselves. -/
def EvaluationError.isOfRules : EvaluationError → Bool
  | .undefinedVariable _ | .usesExceeded _ _ | .variableNotAllowed _ => true
  | .typeMismatch _ | .unknownType _ | .cast _ => true
  | .undefinedFunction _ | .functionNotAllowed _ | .arityMismatch _ _ _
  | .argumentType _ _ _ | .unfinished => true
  | .divisionByZero | .moduloByZero | .unknownOperation _ | .hostFunction _
  | .depthExceeded _ | .timedOut _ | .noBranchMatched => false

/-! ### Errors of values -/

/-- One answer after another fails if the first does, or the second after it. -/
theorem error_of_bind {answer : Except EvaluationError Result}
    {next : Result → Except EvaluationError Other} {error : EvaluationError}
    (failed : answer >>= next = .error error) :
    answer = .error error ∨ ∃ result, answer = .ok result ∧ next result = .error error := by
  cases answer with
  | error cause => exact Or.inl (congrArg Except.error (Except.error.inj failed))
  | ok result => exact Or.inr ⟨result, rfl, failed⟩

theorem TypeRegistry.isOfRules_of_coerce {types : TypeRegistry} {table : TypeTable}
    {type : ValueType} {value : Value} {error : EvaluationError}
    (failed : types.coerce table type value = .error error) : error.isOfRules = true := by
  have builtIn : ∀ {outcome : Except CastError Value},
      outcome.mapError EvaluationError.cast = .error error → error.isOfRules = true := by
    intro outcome failed
    cases outcome with
    | ok value => cases failed
    | error cause =>
      obtain rfl := Except.error.inj failed
      rfl
  cases type with
  | named typeName =>
    unfold coerce coerceNamed at failed
    dsimp only at failed
    split at failed
    · cases failed
    · split at failed
      · obtain rfl := Except.error.inj failed
        rfl
      · split at failed
        · cases failed
        · obtain rfl := Except.error.inj failed
          rfl
  | _ =>
    unfold coerce at failed
    exact builtIn failed

theorem UnaryOperator.isOfRules_of_apply {operator : UnaryOperator} {value : Value}
    {error : EvaluationError} (failed : operator.apply value = .error error) :
    error.isOfRules = true := by
  cases operator with
  | not => cases failed
  | negate =>
    unfold apply negateValue at failed
    dsimp only at failed
    split at failed
    · split at failed <;> cases failed
    · cases failed
    · obtain rfl := Except.error.inj failed
      rfl

namespace BinaryOperator

theorem isOfRules_of_numericOperands {operator : BinaryOperator} {left right : Value}
    {error : EvaluationError} (failed : operator.numericOperands left right = .error error) :
    error.isOfRules = true := by
  unfold numericOperands at failed
  split at failed
  · cases failed
  · obtain rfl := Except.error.inj failed
    rfl

theorem isOfRules_of_compare {operator : BinaryOperator}
    {question : Binary64 → Binary64 → Bool} {left right : Value} {error : EvaluationError}
    (failed : operator.compare question left right = .error error) : error.isOfRules = true := by
  rcases error_of_bind failed with operands | ⟨pair, -, answered⟩
  · exact isOfRules_of_numericOperands operands
  · cases answered

/-- What an operator fails with that the rules do not raise comes from the operation behind
it. -/
theorem isOfRules_or_perform_of_calculate {operations : OperationRegistry}
    {operator : BinaryOperator} (arithmetic : operator.operationName?.isSome) {left right : Value}
    {error : EvaluationError} (failed : calculate operations operator left right = .error error) :
    error.isOfRules = true ∨ ∃ name first second, operator.operationName? = some name ∧
      operations.perform name first second = .error error := by
  obtain ⟨name, named⟩ := Option.isSome_iff_exists.1 arithmetic
  rcases error_of_bind failed with operands | ⟨⟨first, second⟩, -, calculated⟩
  · exact Or.inl (isOfRules_of_numericOperands operands)
  · rw [named] at calculated
    rcases error_of_bind calculated with performed | ⟨result, -, given⟩
    · exact Or.inr ⟨name, first, second, named, performed⟩
    · cases given

theorem isOfRules_or_perform_of_apply {operations : OperationRegistry} {operator : BinaryOperator}
    {left right : Value} {error : EvaluationError}
    (failed : operator.apply operations left right = .error error) :
    error.isOfRules = true ∨ ∃ name first second, operator.operationName? = some name ∧
      operations.perform name first second = .error error := by
  cases operator with
  | equal | notEqual | and | or => cases failed
  | less | greater | lessEqual | greaterEqual =>
    unfold apply at failed
    exact Or.inl (isOfRules_of_compare failed)
  | add =>
    unfold apply applyAdd at failed
    dsimp only at failed
    split at failed
    · cases failed
    · split at failed
      · exact isOfRules_or_perform_of_calculate rfl failed
      · obtain rfl := Except.error.inj failed
        exact Or.inl rfl
  | _ => exact isOfRules_or_perform_of_calculate rfl failed

end BinaryOperator

/-! ### Computations that raise only expected errors -/

namespace Evaluation

/-- A computation that ends in no error but an expected one. What is expected may depend on the
machine at the end. -/
def RaisesOnly (expected : EvaluationError → Machine Memory → Prop)
    (action : Evaluation Memory Result) : Prop :=
  ∀ machine error, (action machine).1 = .error error → expected error (action machine).2

variable {expected : EvaluationError → Machine Memory → Prop}

theorem raisesOnly_pure (result : Result) :
    (pure result : Evaluation Memory Result).RaisesOnly expected :=
  fun _ _ failed => nomatch failed

theorem raisesOnly_inspect (question : Machine Memory → Result) :
    (inspect question).RaisesOnly expected :=
  fun _ _ failed => nomatch failed

theorem raisesOnly_update (change : Machine Memory → Machine Memory) :
    (update change).RaisesOnly expected :=
  fun _ _ failed => nomatch failed

theorem raisesOnly_ofExcept {outcome : Except EvaluationError Result}
    (expects : ∀ error, outcome = .error error → ∀ machine, expected error machine) :
    (ofExcept outcome : Evaluation Memory Result).RaisesOnly expected :=
  fun machine error failed => expects error failed machine

theorem RaisesOnly.bind {action : Evaluation Memory Result}
    {next : Result → Evaluation Memory Other} (raises : action.RaisesOnly expected)
    (nextRaises : ∀ result, (next result).RaisesOnly expected) :
    (action >>= next).RaisesOnly expected := by
  intro machine error failed
  have first := raises machine
  change (andThen action next machine).1 = _ at failed
  show expected error (andThen action next machine).2
  unfold andThen at failed ⊢
  rcases outcome : action machine with ⟨cause | result, after⟩
  · rw [outcome] at failed first
    obtain rfl := Except.error.inj failed
    exact first _ rfl
  · rw [outcome] at failed
    exact nextRaises result after error failed

theorem raisesOnly_each {Item : Type} {action : Item → Evaluation Memory Result}
    (items : List Item) (raises : ∀ item ∈ items, (action item).RaisesOnly expected) :
    (each action items).RaisesOnly expected := by
  induction items with
  | nil => exact raisesOnly_pure []
  | cons item rest inductionHypothesis =>
    obtain ⟨first, others⟩ := List.forall_mem_cons.1 raises
    exact first.bind fun result =>
      (inductionHypothesis others).bind fun results => raisesOnly_pure (result :: results)

/-- What is asked of an expectation in a setting: scopes and calls make no difference to it, and
it covers what the rules and the operations raise. -/
structure Foresees (setting : NestedSetting Memory)
    (expected : EvaluationError → Machine Memory → Prop) : Prop where
  restore : ∀ {error machine} (environment : Environment) (depth : Nat), expected error machine →
    expected error { machine with environment, callDepth := depth }
  rules : ∀ {error} machine, error.isOfRules = true → expected error machine
  operations : ∀ {operator : BinaryOperator} {name first second error} machine,
    operator.operationName? = some name →
    setting.operations.perform name first second = .error error → expected error machine

variable {setting : NestedSetting Memory} {part body : Expression → Evaluation Memory Value}

theorem RaisesOnly.bracketed {action : Evaluation Memory Result}
    (raises : action.RaisesOnly expected) (foresees : Foresees setting expected)
    (enter : Machine Memory → Environment × Nat)
    (leave : Machine Memory → Machine Memory → Environment × Nat) :
    (bracketed enter leave action).RaisesOnly expected :=
  fun _ error failed => foresees.restore _ _ (raises _ error failed)

/-! ### The rules of the nodes -/

theorem raisesOnly_coerce (foresees : Foresees setting expected) (table : TypeTable)
    (type : ValueType) (value : Value) :
    (ofExcept (setting.types.coerce table type value)).RaisesOnly expected :=
  raisesOnly_ofExcept fun _ failed machine =>
    foresees.rules machine (TypeRegistry.isOfRules_of_coerce failed)

theorem raisesOnly_binary (foresees : Foresees setting expected) (operator : BinaryOperator)
    {left right : Expression} (first : (part left).RaisesOnly expected)
    (second : (part right).RaisesOnly expected) :
    (binary setting part operator left right).RaisesOnly expected := by
  refine first.bind fun first => ?_
  split
  · exact raisesOnly_pure _
  · exact raisesOnly_pure _
  · refine second.bind fun second => raisesOnly_ofExcept fun error failed machine => ?_
    rcases BinaryOperator.isOfRules_or_perform_of_apply failed with
      ofRules | ⟨name, x, y, named, performed⟩
    · exact foresees.rules machine ofRules
    · exact foresees.operations machine named performed

theorem raisesOnly_conditional {otherwise : Option Expression}
    {branches : List (Expression × Expression)}
    (conditions : ∀ branch ∈ branches, (part branch.1).RaisesOnly expected)
    (results : ∀ branch ∈ branches, (part branch.2).RaisesOnly expected)
    (last : ∀ result, otherwise = some result → (part result).RaisesOnly expected)
    (unmatched : otherwise = none → ∀ machine, expected .noBranchMatched machine) :
    (conditional part otherwise branches).RaisesOnly expected := by
  induction branches with
  | nil =>
    cases otherwise with
    | some result => exact last result rfl
    | none =>
      intro machine error failed
      obtain rfl := Except.error.inj failed
      exact unmatched rfl machine
  | cons branch rest inductionHypothesis =>
    obtain ⟨condition, others⟩ := List.forall_mem_cons.1 conditions
    obtain ⟨result, otherResults⟩ := List.forall_mem_cons.1 results
    refine condition.bind fun truth => ?_
    cases truth.isTruthy with
    | false => exact inductionHypothesis others otherResults
    | true => exact result

theorem isOfRules_of_read {environment : Environment} {name : String} {error : EvaluationError}
    (failed : (environment.read name).1 = .error error) : error.isOfRules = true := by
  unfold Environment.read at failed
  split at failed
  · unfold Binding.answer at failed
    dsimp only at failed
    split at failed
    · obtain rfl := Except.error.inj failed
      rfl
    · cases failed
  · obtain rfl := Except.error.inj failed
    rfl

theorem raisesOnly_readVariable (foresees : Foresees setting expected) (name : String) :
    (readVariable setting name).RaisesOnly expected := by
  intro machine error failed
  refine foresees.rules _ ?_
  unfold readVariable at failed
  split at failed
  · obtain rfl := Except.error.inj failed
    rfl
  · split at failed
    · exact isOfRules_of_read failed
    · split at failed
      · obtain rfl := Except.error.inj failed
        rfl
      · cases failed

variable {readName : String → Evaluation Memory Value}
  {carryOut : String → Option String → List Value → Evaluation Memory Value}

theorem raisesOnly_castOperandWith (typeName : String) {inner : Expression}
    (parts : ∀ expression, expression.Within inner → (part expression).RaisesOnly expected)
    (calls : ∀ name hint values, (carryOut name hint values).RaisesOnly expected) :
    (castOperandWith carryOut part typeName inner).RaisesOnly expected := by
  have inside := inner.withoutOuterGroups_within
  unfold castOperandWith
  split
  next name hint arguments isCall =>
    rw [isCall] at inside
    exact (raisesOnly_each arguments fun argument member =>
      parts argument (.trans (.argument name hint member .itself) inside)).bind fun values =>
        calls name _ values
  · refine (raisesOnly_inspect _).bind fun bound => ?_
    cases bound with
    | true => exact parts inner .itself
    | false => exact raisesOnly_pure _
  · exact parts inner .itself

/-- A node raises only what is expected if its parts do, and the calls, and unless it is a
conditional that may be left without a branch. -/
theorem raisesOnly_stepWith (foresees : Foresees setting expected) (expression : Expression)
    (parts : ∀ inner, inner.Within expression → (part inner).RaisesOnly expected)
    (reads : ∀ name, (readName name).RaisesOnly expected)
    (calls : ∀ name hint values, (carryOut name hint values).RaisesOnly expected)
    (unmatched : ∀ branches, expression = .conditional branches none →
      ∀ machine, expected .noBranchMatched machine) :
    (stepWith setting readName carryOut part expression).RaisesOnly expected := by
  cases expression with
  | integer number => exact raisesOnly_pure _
  | float number => exact raisesOnly_pure _
  | text content => exact raisesOnly_pure _
  | boolean truth => exact raisesOnly_pure _
  | null => exact raisesOnly_pure _
  | «variable» name => exact reads name
  | binary operator left right =>
    exact raisesOnly_binary foresees operator (parts left (.left operator right .itself))
      (parts right (.right operator left .itself))
  | unary operator operand =>
    exact (parts operand (.operand operator .itself)).bind fun value =>
      raisesOnly_ofExcept fun _ failed machine =>
        foresees.rules machine (UnaryOperator.isOfRules_of_apply failed)
  | ternary condition whenTrue whenFalse =>
    refine (parts condition (.condition _ _ .itself)).bind fun truth => ?_
    cases truth.isTruthy with
    | true => exact parts whenTrue (.whenTrue _ _ .itself)
    | false => exact parts whenFalse (.whenFalse _ _ .itself)
  | binding name value uses inner =>
    refine (parts value (.value name uses inner .itself)).bind fun bound => ?_
    rw [inScope_define_eq_bracketed]
    exact (parts inner (.body name value uses .itself)).bracketed foresees _ _
  | conditional branches otherwise =>
    refine raisesOnly_conditional (fun branch member => ?_) (fun branch member => ?_)
      (fun result isLast => ?_) fun isNone => ?_
    · exact parts _ (.branchCondition otherwise member .itself)
    · exact parts _ (.branchResult otherwise member .itself)
    · rw [isLast] at parts
      exact parts result (.otherwise branches .itself)
    · exact unmatched branches (by rw [isNone])
  | call name hint arguments =>
    exact (raisesOnly_each arguments fun argument member =>
      parts argument (.argument name hint member .itself)).bind fun values =>
        calls name hint values
  | cast typeName inner =>
    exact (raisesOnly_castOperandWith typeName
      (fun part within => parts part (.inner typeName within)) calls).bind fun value =>
        raisesOnly_coerce foresees _ _ value
  | grouping inner => exact parts inner (.grouped .itself)

theorem raisesOnly_visit {setting : Setting Memory}
    (timedOut : ∀ machine, expected (.timedOut setting.configuration.evaluationTimeout) machine)
    (depth : Nat) (expression : Expression) :
    (visit setting depth expression).RaisesOnly expected := by
  intro machine error failed
  unfold visit at failed ⊢
  dsimp only at failed ⊢
  split at failed
  · obtain rfl := Except.error.inj failed
    exact timedOut _
  · split at failed <;> cases failed

/-! ### Calls -/

theorem isOfRules_of_coerceArgumentsFrom {types : TypeRegistry} {function : String} {place : Nat}
    {parameters : List ValueType} {values : List Value} {error : EvaluationError}
    (failed : coerceArgumentsFrom types function place parameters values = .error error) :
    error.isOfRules = true := by
  induction parameters generalizing place values with
  | nil => cases failed
  | cons type rest inductionHypothesis =>
    cases values with
    | nil => cases failed
    | cons value others =>
      unfold coerceArgumentsFrom at failed
      split at failed
      · rcases error_of_bind failed with later | ⟨results, -, given⟩
        · exact inductionHypothesis later
        · cases given
      · obtain rfl := Except.error.inj failed
        rfl
      next cause _ coerced =>
        obtain rfl := Except.error.inj failed
        exact TypeRegistry.isOfRules_of_coerce coerced

theorem isOfRules_of_coerceArguments {types : TypeRegistry} {function : String}
    {signature : Signature} {values : List Value} {error : EvaluationError}
    (failed : coerceArguments types function signature values = .error error) :
    error.isOfRules = true := by
  unfold coerceArguments at failed
  split at failed
  · cases failed
  · split at failed
    · exact isOfRules_of_coerceArgumentsFrom failed
    · obtain rfl := Except.error.inj failed
      rfl

theorem raisesOnly_callFunction (foresees : Foresees setting expected)
    {function : RegisteredFunction Memory}
    (host : ∀ host, function.callable = .host host → ∀ arguments hint,
      (runProgram setting (host arguments hint)).RaisesOnly expected)
    (bodies : ∀ parameters inner, function.callable = .defined parameters inner →
      (body inner).RaisesOnly expected) (depth : Nat) (name : String)
    (hint : Option String) (values : List Value) :
    (callFunction setting depth body name function hint values).RaisesOnly expected := by
  have invoked : ∀ arguments hint,
      (invoke setting body function.callable arguments hint).RaisesOnly expected := by
    intro arguments hint
    unfold invoke
    split
    next program callable => exact host program callable arguments hint
    next parameters inner callable =>
      rw [inEnvironment_eq_bracketed]
      refine ((bodies parameters inner callable).bracketed foresees _ _).bind fun result => ?_
      cases hint with
      | none => exact raisesOnly_pure _
      | some typeName => exact raisesOnly_coerce foresees _ _ result
  refine RaisesOnly.bind (raisesOnly_ofExcept fun error failed machine =>
    foresees.rules machine (isOfRules_of_coerceArguments failed)) fun arguments => ?_
  refine (raisesOnly_update _).bind fun _ => (raisesOnly_update _).bind fun _ => ?_
  rw [atCallDepth_eq_bracketed]
  exact ((invoked arguments _).bracketed foresees _ _).bind fun result =>
    raisesOnly_coerce foresees _ _ result

theorem raisesOnly_dispatch (foresees : Foresees setting expected)
    (host : ∀ name function host, setting.functions.get? name = some function →
      function.callable = .host host → ∀ arguments hint,
        (runProgram setting (host arguments hint)).RaisesOnly expected)
    (bodies : ∀ name function parameters inner, setting.functions.get? name = some function →
      function.callable = .defined parameters inner → (body inner).RaisesOnly expected)
    (depth : Nat) (name : String) (hint : Option String) (values : List Value) :
    (dispatch setting depth body name hint values).RaisesOnly expected := by
  have refuses : ∀ error : EvaluationError, error.isOfRules = true →
      (fail error : Evaluation Memory Value).RaisesOnly expected := by
    intro error ofRules machine other failed
    obtain rfl := Except.error.inj failed
    exact foresees.rules machine ofRules
  unfold dispatch
  split
  · exact refuses _ rfl
  · split
    next function found =>
      exact raisesOnly_callFunction foresees (fun program => host name function program found)
        (fun parameters inner => bodies name function parameters inner found) depth name hint
        values
    · split
      · exact refuses _ rfl
      · exact raisesOnly_pure _

end Evaluation

end Reckon
