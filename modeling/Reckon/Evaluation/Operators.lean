/-
This file applies operators to values. Questions about equality hold between
any two values; order and arithmetic are for numbers, which are taken as binary
numbers; `+` also joins texts.
-/

import Reckon.Operation
import Reckon.Operator

namespace Reckon

namespace BinaryOperator

/-- The operands of an operator as binary numbers. -/
def numericOperands (operator : BinaryOperator) (left right : Value) :
    Except EvaluationError (Binary64 × Binary64) :=
  match left.asFloat?, right.asFloat? with
  | some first, some second => .ok (first, second)
  | _, _ =>
    .error (.typeMismatch
      s!"Operands of '{operator.symbol}' must be numbers, got {left.typeName} and {right.typeName}")

/-- Answers a question of order about two numbers. -/
def compare (operator : BinaryOperator) (question : Binary64 → Binary64 → Bool)
    (left right : Value) : Except EvaluationError Value := do
  let (first, second) ← operator.numericOperands left right
  return .boolean (question first second)

/-- Carries out the arithmetic operation behind an operator. -/
def calculate (operations : OperationRegistry) (operator : BinaryOperator) (left right : Value) :
    Except EvaluationError Value := do
  let (first, second) ← operator.numericOperands left right
  match operator.operationName? with
  | some name => return .float (← operations.perform name first second)
  | none => .error (.unknownOperation operator.symbol)

/-- Adds two values: with a text among them, the texts of both are joined. -/
def applyAdd (operations : OperationRegistry) (left right : Value) :
    Except EvaluationError Value :=
  if left.isText || right.isText then .ok (.text (left.shown ++ right.shown))
  else if left.isNumber && right.isNumber then calculate operations .add left right
  else
    .error (.typeMismatch
      s!"Operands must be two numbers or at least one string, got {left.typeName} and {right.typeName}")

/-- Applies an operator to the values of both operands. -/
def apply (operations : OperationRegistry) (operator : BinaryOperator) (left right : Value) :
    Except EvaluationError Value :=
  match operator with
  | .equal => .ok (.boolean (left.equals right))
  | .notEqual => .ok (.boolean !(left.equals right))
  | .less => compare .less Binary64.less left right
  | .greater => compare .greater (fun first second => second.less first) left right
  | .lessEqual => compare .lessEqual Binary64.atMost left right
  | .greaterEqual => compare .greaterEqual (fun first second => second.atMost first) left right
  | .and => .ok (.boolean (left.isTruthy && right.isTruthy))
  | .or => .ok (.boolean (left.isTruthy || right.isTruthy))
  | .add => applyAdd operations left right
  | arithmetic => calculate operations arithmetic left right

end BinaryOperator

namespace UnaryOperator

/-- The negative of a value. The least integer has none among the integers. -/
def negateValue : Value → Except EvaluationError Value
  | .integer number =>
    if number = Int64.minValue then .ok (.float (Binary64.ofInt64 number).negate)
    else .ok (.integer (-number))
  | .float number => .ok (.float number.negate)
  | other => .error (.typeMismatch s!"Cannot negate {other.typeName}")

/-- Applies an operator to the value of its operand. -/
def apply (operator : UnaryOperator) (value : Value) : Except EvaluationError Value :=
  match operator with
  | .not => .ok (.boolean !value.isTruthy)
  | .negate => negateValue value

end UnaryOperator

end Reckon
