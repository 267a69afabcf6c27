/-
This file holds the operators of the expression language: how they are
written, how tightly they bind, and which arithmetic operation stands behind
them.
-/

namespace Reckon

/-- The operators between two operands. -/
inductive BinaryOperator where
  | equal
  | notEqual
  | less
  | greater
  | lessEqual
  | greaterEqual
  | add
  | subtract
  | multiply
  | divide
  | modulo
  | power
  | and
  | or
  deriving DecidableEq

namespace BinaryOperator

/-- How an operator is written. -/
def symbol : BinaryOperator → String
  | .equal => "=="
  | .notEqual => "!="
  | .less => "<"
  | .greater => ">"
  | .lessEqual => "<="
  | .greaterEqual => ">="
  | .add => "+"
  | .subtract => "-"
  | .multiply => "*"
  | .divide => "/"
  | .modulo => "%"
  | .power => "^"
  | .and => "and"
  | .or => "or"

/-- The name of the arithmetic operation behind an operator. The others are questions, which
are answered without one. -/
def operationName? : BinaryOperator → Option String
  | .add => some "addition"
  | .subtract => some "subtraction"
  | .multiply => some "multiplication"
  | .divide => some "division"
  | .modulo => some "modulo"
  | .power => some "power"
  | _ => none

/-- How tightly an operator binds. -/
def precedence : BinaryOperator → Nat
  | .or => 1
  | .and => 2
  | .equal | .notEqual => 3
  | .less | .greater | .lessEqual | .greaterEqual => 4
  | .add | .subtract => 5
  | .multiply | .divide | .modulo => 6
  | .power => 7

/-- Whether an operator groups its operands from the right; the others group from the left. -/
def isRightAssociative : BinaryOperator → Bool
  | .power => true
  | _ => false

end BinaryOperator

/-- The operators before one operand. -/
inductive UnaryOperator where
  | negate
  | not
  deriving DecidableEq

end Reckon
