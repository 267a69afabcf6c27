/-
This file evaluates expressions. Each visit of a node counts, and every so many
visits the deadline is looked at. Evaluation nests at most as deep as the
settings allow: a node below that depth is an error, so evaluation ends however
the functions of an engine call each other.

The rule for each sort of node is written over two evaluators it is given: one
for the parts of the node, which lie one level deeper, and one for the body of a
function the node calls, which lies two levels deeper.

A host function may have a tree evaluated at a depth of its choice, and the
limit does not bring such evaluations to an end. They nest as often as the
setting says, and one that asks for more is not finished.
-/

import Reckon.Evaluation.Coercion
import Reckon.Evaluation.Machine
import Reckon.Evaluation.Operators

namespace Reckon

variable {Memory : Type}

namespace Setting

/-- How deep an evaluation may nest. -/
def depthLimit (setting : Setting Memory) : Nat :=
  setting.configuration.depthLimit

end Setting

namespace Evaluation

/-! ### Visits -/

/-- Whether the deadline stops an evaluation at a number of visits. -/
def isTimeUp (setting : Setting Memory) (visits : Nat) : Bool :=
  setting.deadline.any (Deadline.hasPassed visits) &&
    visits % max setting.configuration.timeoutCheckInterval.toNat 1 == 0

/-- Counts the visit of a node and looks at the deadline. -/
def visit (setting : Setting Memory) (depth : Nat) (expression : Expression) :
    Evaluation Memory Unit :=
  fun machine =>
    let counted := { machine with visits := machine.visits + 1 }
    if isTimeUp setting counted.visits then
      (.error (.timedOut setting.configuration.evaluationTimeout), counted)
    else if setting.configuration.debugMode then
      (.ok (), counted.note (.visited depth (.ofExpression expression)))
    else (.ok (), counted)

/-! ### Variables -/

/-- Reads a variable. -/
def readVariable (setting : Setting Memory) (name : String) : Evaluation Memory Value :=
  fun machine =>
    if !setting.configuration.isVariableAllowed name then
      (.error (.variableNotAllowed name), machine)
    else if machine.environment.contains name then
      let (result, environment) := machine.environment.read name
      (result, { machine with environment })
    else if setting.configuration.strictMode then (.error (.undefinedVariable name), machine)
    else (.ok setting.configuration.undefinedValue, machine)

/-! ### Host functions -/

/-- Whether the answer of an engine is there, and no evaluation in it still goes on. -/
def isAnswered : Except EngineError Value → Bool
  | .error (.evaluation .unfinished) => false
  | _ => true

/-- Answers a request of a host function. -/
def respond (setting : NestedSetting Memory) :
    (request : Request Memory) → Evaluation Memory request.Answer
  | .context name => inspect fun machine => machine.engine.context.get? name
  | .callDepth => inspect Machine.callDepth
  | .visits => inspect Machine.visits
  | .configuration => give setting.configuration
  | .isCacheable => inspect Machine.cacheable
  | .hasDeadline => inspect fun _ => setting.deadline.isSome
  | .forbidCaching => update fun machine => { machine with cacheable := false }
  | .coerce value typeName => give (setting.types.coerceTo value typeName)
  | .recall => inspect fun machine => machine.engine.memory
  | .store memory => update fun machine =>
    { machine with engine := { machine.engine with memory } }
  | .putContext name value => update fun machine =>
    { machine with engine := machine.engine.putContext name value }
  | .setStrictMode on => update fun machine =>
    { machine with engine := machine.engine.setStrictMode on }
  | .interpret tree environment depth =>
    inEnvironment environment (attempt (setting.interpret depth tree))
  | .evaluate source given => fun machine =>
    let (result, engine) := setting.reenter source given machine.engine
    (if isAnswered result then .ok result else .error .unfinished, { machine with engine })

/-- Carries out the program of a host function. -/
def runProgram (setting : NestedSetting Memory) : HostProgram Memory → Evaluation Memory Value
  | .done result => ofExcept result
  | .ask request next =>
    andThen (respond setting request) fun answer => runProgram setting (next answer)

/-! ### Calls -/

/-- Coerces the arguments of a call from one place on. -/
def coerceArgumentsFrom (types : TypeRegistry) (function : String) (place : Nat) :
    List ValueType → List Value → Except EvaluationError (List Value)
  | type :: types', value :: values =>
    match types.coerce .function type value with
    | .ok result => do
      return result :: (← coerceArgumentsFrom types function (place + 1) types' values)
    | .error (.cast cause) => .error (.argumentType function place cause)
    | .error error => .error error
  | _, _ => .ok []

/-- Coerces the arguments of a call into the types of the parameters. -/
def coerceArguments (types : TypeRegistry) (function : String) (signature : Signature)
    (values : List Value) : Except EvaluationError (List Value) :=
  match signature.parameters with
  | none => .ok values
  | some parameters =>
    if parameters.length = values.length then
      coerceArgumentsFrom types function 1 parameters values
    else .error (.arityMismatch function parameters.length values.length)

/-- The environment of the body of a function: its parameters and nothing else. -/
def parameterEnvironment (parameters : List String) (arguments : List Value) : Environment :=
  .ofVariables (.ofList (parameters.zip arguments))

/-- Carries out a function. The result of one written in the language is coerced into the type
the hint names. -/
def invoke (setting : NestedSetting Memory) (evaluateBody : Expression → Evaluation Memory Value)
    (callable : Callable Memory) (arguments : List Value) (hint : Option String) :
    Evaluation Memory Value :=
  match callable with
  | .host function => runProgram setting (function arguments hint)
  | .defined parameters body => do
    let result ← inEnvironment (parameterEnvironment parameters arguments) (evaluateBody body)
    match hint with
    | some typeName => ofExcept (setting.types.coerceTo result typeName)
    | none => return result

/-- Calls a function that is known, with arguments that are evaluated. -/
def callFunction (setting : NestedSetting Memory) (depth : Nat)
    (evaluateBody : Expression → Evaluation Memory Value) (name : String)
    (function : RegisteredFunction Memory) (hint : Option String) (values : List Value) :
    Evaluation Memory Value := do
  let signature := function.signature
  let arguments ← ofExcept (coerceArguments setting.types name signature values)
  update fun machine => { machine with cacheable := machine.cacheable && signature.cacheable }
  let hint := hint <|> signature.defaultHint
  update fun machine =>
    if setting.configuration.debugMode then machine.note (.called name arguments.length hint)
    else machine
  let result ← atCallDepth depth (invoke setting evaluateBody function.callable arguments hint)
  ofExcept (setting.types.coerce .function signature.returns result)

/-- Evaluates the arguments of a call, then calls the function, if it may be called and is
known. -/
def call (setting : NestedSetting Memory) (depth : Nat)
    (evaluatePart evaluateBody : Expression → Evaluation Memory Value) (name : String)
    (hint : Option String) (arguments : List Expression) : Evaluation Memory Value := do
  let values ← each evaluatePart arguments
  if !setting.configuration.isFunctionAllowed name then fail (.functionNotAllowed name)
  else
    match setting.functions.get? name with
    | some function => callFunction setting depth evaluateBody name function hint values
    | none =>
      if setting.configuration.strictMode then fail (.undefinedFunction name)
      else return setting.configuration.undefinedValue

/-! ### The other nodes -/

/-- Evaluates the operands of an operator. `and` and `or` leave the second one alone when the
first decides. -/
def binary (setting : Setting Memory) (evaluatePart : Expression → Evaluation Memory Value)
    (operator : BinaryOperator) (left right : Expression) : Evaluation Memory Value := do
  let first ← evaluatePart left
  match operator, first.isTruthy with
  | .and, false => return .boolean false
  | .or, true => return .boolean true
  | _, _ =>
    let second ← evaluatePart right
    ofExcept (operator.apply setting.operations first second)

/-- Takes the first branch whose condition is true. -/
def conditional (evaluatePart : Expression → Evaluation Memory Value)
    (otherwise : Option Expression) :
    List (Expression × Expression) → Evaluation Memory Value
  | [] =>
    match otherwise with
    | some result => evaluatePart result
    | none => fail .noBranchMatched
  | (condition, result) :: rest => do
    if (← evaluatePart condition).isTruthy then evaluatePart result
    else conditional evaluatePart otherwise rest

/-- Evaluates what a cast holds. The type of a cast is the hint of a call directly inside it,
and a name without a binding stands for itself where a domain type is asked for. -/
def castOperand (setting : NestedSetting Memory) (depth : Nat)
    (evaluatePart evaluateBody : Expression → Evaluation Memory Value) (typeName : String)
    (inner : Expression) : Evaluation Memory Value :=
  match inner.withoutOuterGroups, ValueType.ofName typeName with
  | .call function hint arguments, _ =>
    call setting depth evaluatePart evaluateBody function (hint <|> some typeName) arguments
  | .variable name, .named _ => do
    if ← inspect fun machine => machine.environment.contains name then evaluatePart inner
    else return .text name
  | _, _ => evaluatePart inner

/-- The rule for each sort of node, for a node whose parts lie at a depth. -/
def step (setting : NestedSetting Memory) (depth : Nat)
    (evaluatePart evaluateBody : Expression → Evaluation Memory Value) :
    Expression → Evaluation Memory Value
  | .integer number => give (.integer number)
  | .float number => give (.float number)
  | .text content => give (.text content)
  | .boolean truth => give (.boolean truth)
  | .null => give .null
  | .variable name => readVariable setting name
  | .binary operator left right => binary setting evaluatePart operator left right
  | .unary operator operand => do
    ofExcept (operator.apply (← evaluatePart operand))
  | .ternary condition whenTrue whenFalse => do
    if (← evaluatePart condition).isTruthy then evaluatePart whenTrue
    else evaluatePart whenFalse
  | .binding name value uses body => do
    let bound ← evaluatePart value
    inScope do
      update fun machine =>
        { machine with environment := machine.environment.define name bound uses }
      evaluatePart body
  | .conditional branches otherwise => conditional evaluatePart otherwise branches
  | .call function hint arguments =>
    call setting depth evaluatePart evaluateBody function hint arguments
  | .cast typeName inner => do
    let value ← castOperand setting depth evaluatePart evaluateBody typeName inner
    ofExcept (setting.types.coerce .variable (.ofName typeName) value)
  | .grouping inner => evaluatePart inner

/-! ### Evaluation -/

/-- Evaluates an expression with so many levels left, of which it takes one. -/
def evaluateWithin (setting : NestedSetting Memory) : Nat → Expression → Evaluation Memory Value
  | 0, _ => fail (.depthExceeded setting.depthLimit)
  | levels + 1, expression => do
    let depth := setting.depthLimit - levels
    let evaluateBody : Expression → Evaluation Memory Value :=
      match levels with
      | 0 => fun _ => fail (.depthExceeded setting.depthLimit)
      | deeper + 1 => evaluateWithin setting deeper
    visit setting depth expression
    step setting (depth + 1) (evaluateWithin setting levels) evaluateBody expression

/-- Evaluates an expression at a depth. -/
def evaluateAt (setting : NestedSetting Memory) (depth : Nat) (expression : Expression) :
    Evaluation Memory Value :=
  evaluateWithin setting (setting.depthLimit + 1 - depth) expression

/-- Evaluates a tree at a depth for a host function, with so many evaluations allowed inside each
other. -/
def interpretWithin (setting : Setting Memory) : Nat → Nat → Expression → Evaluation Memory Value
  | 0, _, _ => fail .unfinished
  | nestings + 1, depth, tree =>
    evaluateAt (setting.answering (interpretWithin setting nestings)) depth tree

end Evaluation

/-- The setting of an evaluation that host functions may nest others in so many times. -/
def Setting.nested (setting : Setting Memory) (nestings : Nat) : NestedSetting Memory :=
  setting.answering (Evaluation.interpretWithin setting nestings)

/-- Evaluates an expression at a depth, as a setting says. -/
def Evaluation.evaluate (setting : Setting Memory) (depth : Nat) (expression : Expression) :
    Evaluation Memory Value :=
  evaluateAt (setting.nested setting.nestings) depth expression

end Reckon
