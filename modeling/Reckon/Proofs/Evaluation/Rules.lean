/-
This file writes the rules of the nodes once more, over the two things in which
evaluations under comparison may differ: how a variable is read, and how a call
is carried out once its arguments are evaluated. A node turns to the
environment in the one case and to the functions in the other; all else is the
same for every evaluation of the tree.

An evaluation that is watched, or that does something of its own at these two
places, is an instance of these rules, and so is the evaluation itself.
-/

import Reckon.Evaluation.Evaluate

namespace Reckon

variable {Memory : Type}

@[simp]
theorem Setting.toSetting_answering (setting : Setting Memory)
    (interpret : Nat → Expression → Evaluation Memory Value) :
    (setting.answering interpret).toSetting = setting := rfl

namespace Evaluation

/-- Doing nothing afterwards, and putting computations together one way or the other, make no
difference. -/
instance : LawfulMonad (Evaluation Memory) := by
  refine LawfulMonad.mk' (Evaluation Memory) (fun action => ?_) (fun _ _ => rfl)
    fun action next later => ?_
  · funext machine
    show andThen action (fun result => give (id result)) machine = action machine
    unfold andThen
    rcases action machine with ⟨error | result, after⟩ <;> rfl
  · funext machine
    show andThen (andThen action next) later machine =
      andThen action (fun result => andThen (next result) later) machine
    unfold andThen
    rcases action machine with ⟨error | result, after⟩ <;> rfl

/-! ### Evaluations for host functions -/

/-- A request for a tree is answered with what the evaluation of the tree comes to and the
environment it leaves, as soon as that is there. -/
theorem respond_interpret {setting : NestedSetting Memory} {tree : Expression}
    {environment : Environment} {depth : Nat} {machine after : Machine Memory}
    {outcome : Except EvaluationError Value}
    (evaluated : setting.interpret depth tree { machine with environment } = (outcome, after)) :
    respond setting (.interpret tree environment depth) machine =
      (if isOver outcome then .ok (outcome, after.environment) else .error .unfinished,
        { after with environment := machine.environment }) := by
  show inEnvironment environment (attempt (setting.interpret depth tree)) machine = _
  generalize setting.interpret depth tree = action at evaluated ⊢
  unfold inEnvironment attempt
  rw [evaluated]
  rfl

/-- A request for a text is answered with what the engine answers, as soon as that is there. -/
theorem respond_evaluate {setting : NestedSetting Memory} {source : String}
    {given : Dictionary String Value} {machine : Machine Memory} {engine : EngineState Memory}
    {outcome : Except EngineError Value}
    (evaluated : setting.reenter source given machine.engine = (outcome, engine)) :
    respond setting (.evaluate source given) machine =
      (if isAnswered outcome then .ok outcome else .error .unfinished,
        { machine with engine }) := by
  show (if isAnswered (setting.reenter source given machine.engine).1 then
      Except.ok (setting.reenter source given machine.engine).1
    else .error EvaluationError.unfinished,
    { machine with engine := (setting.reenter source given machine.engine).2 }) = _
  rw [evaluated]
  rfl

/-! ### Rules over reads and calls -/

/-- Carries out a call whose arguments are evaluated: calls the function, if it may be called and
is known. -/
def dispatch (setting : NestedSetting Memory) (depth : Nat)
    (evaluateBody : Expression → Evaluation Memory Value) (name : String) (hint : Option String)
    (values : List Value) : Evaluation Memory Value :=
  if !setting.configuration.isFunctionAllowed name then fail (.functionNotAllowed name)
  else
    match setting.functions.get? name with
    | some function => callFunction setting depth evaluateBody name function hint values
    | none =>
      if setting.configuration.strictMode then fail (.undefinedFunction name)
      else pure setting.configuration.undefinedValue

/-- Evaluates what a cast holds, with a way to carry out calls. -/
def castOperandWith (carryOut : String → Option String → List Value → Evaluation Memory Value)
    (evaluatePart : Expression → Evaluation Memory Value) (typeName : String)
    (inner : Expression) : Evaluation Memory Value :=
  match inner.withoutOuterGroups, ValueType.ofName typeName with
  | .call function hint arguments, _ => do
    carryOut function (hint <|> some typeName) (← each evaluatePart arguments)
  | .variable name, .named _ => do
    if ← inspect fun machine => machine.environment.contains name then evaluatePart inner
    else return .text name
  | _, _ => evaluatePart inner

/-- The rule for each sort of node, with a way to read variables and a way to carry out calls. -/
def stepWith (setting : NestedSetting Memory) (readName : String → Evaluation Memory Value)
    (carryOut : String → Option String → List Value → Evaluation Memory Value)
    (evaluatePart : Expression → Evaluation Memory Value) :
    Expression → Evaluation Memory Value
  | .variable name => readName name
  | .call function hint arguments => do
    carryOut function hint (← each evaluatePart arguments)
  | .cast typeName inner => do
    let value ← castOperandWith carryOut evaluatePart typeName inner
    ofExcept (setting.types.coerce .variable (.ofName typeName) value)
  -- No other node calls a function, so there is no body to evaluate and no depth to call at.
  | other => step setting 0 evaluatePart evaluatePart other

/-- Changing the members of a list and going through it is going through it with the change. -/
theorem each_map {Item Other Result : Type} (action : Other → Evaluation Memory Result)
    (change : Item → Other) (items : List Item) :
    each action (items.map change) = each (fun item => action (change item)) items := by
  induction items with
  | nil => rfl
  | cons item rest inductionHypothesis =>
    exact congrArg (fun later => do
      let result ← action (change item)
      return result :: (← later)) inductionHypothesis

/-- Changing all expressions of a conditional and taking a branch is taking it with the change. -/
theorem conditional_map (part : Expression → Evaluation Memory Value)
    (change : Expression → Expression) (otherwise : Option Expression)
    (branches : List (Expression × Expression)) :
    conditional part (otherwise.map change) (branches.map (Prod.map change change)) =
      conditional (fun tree => part (change tree)) otherwise branches := by
  induction branches with
  | nil => cases otherwise <;> rfl
  | cons branch rest inductionHypothesis =>
    obtain ⟨condition, result⟩ := branch
    exact congrArg (fun later => do
      if (← part (change condition)).isTruthy then part (change result)
      else later) inductionHypothesis

/-- The rules of evaluation are those over its own ways to read variables and to carry out
calls. -/
theorem step_eq (setting : NestedSetting Memory) (depth : Nat)
    (part body : Expression → Evaluation Memory Value) (expression : Expression) :
    step setting depth part body expression =
      stepWith setting (readVariable setting) (dispatch setting depth body) part expression := by
  cases expression <;> rfl

end Evaluation

end Reckon
