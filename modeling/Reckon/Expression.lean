/-
This file holds expressions as trees. A tree keeps the parentheses of its text
as nodes of their own, so that a text can be written again as it was read.
-/

import Reckon.Binary64
import Reckon.Operator

namespace Reckon

/-- How often a name bound by `let` may be read. -/
inductive UseLimit where
  | unlimited
  | limited (count : Nat)
  deriving DecidableEq

namespace UseLimit

/-- The greatest number of uses that is told apart from greater ones. -/
def greatestCount : Nat := UInt32.size - 1

/-- The limit that a count means: a negative one sets none, and zero means nothing. -/
def ofCount? (count : Int) : Option UseLimit :=
  if count = 0 then none
  else if count < 0 then some .unlimited
  else some (.limited (min count.toNat greatestCount))

/-- The number of uses, if there is a limit. -/
def count? : UseLimit → Option Nat
  | .unlimited => none
  | .limited count => some count

end UseLimit

/-- An expression of the language. -/
inductive Expression where
  | integer (number : Int64)
  | float (number : Binary64)
  | text (content : String)
  | boolean (truth : Bool)
  | null
  | variable (name : String)
  | binary (operator : BinaryOperator) (left right : Expression)
  | unary (operator : UnaryOperator) (operand : Expression)
  | ternary (condition whenTrue whenFalse : Expression)
  | binding (name : String) (value : Expression) (uses : UseLimit) (body : Expression)
  | conditional (branches : List (Expression × Expression)) (otherwise : Option Expression)
  | call (function : String) (hint : Option String) (arguments : List Expression)
  | cast (typeName : String) (inner : Expression)
  | grouping (inner : Expression)
  deriving Inhabited

namespace Expression

/-- The expression inside the parentheses around it. -/
def withoutOuterGroups : Expression → Expression
  | .grouping inner => inner.withoutOuterGroups
  | other => other

/-! ### Equality of trees -/

mutual

/-- Whether two trees are the same. -/
def same : Expression → Expression → Bool
  | .integer number, .integer number' => number == number'
  | .float number, .float number' => number.equals number'
  | .text content, .text content' => content == content'
  | .boolean truth, .boolean truth' => truth == truth'
  | .null, .null => true
  | .variable name, .variable name' => name == name'
  | .binary operator left right, .binary operator' left' right' =>
    operator == operator' && same left left' && same right right'
  | .unary operator operand, .unary operator' operand' =>
    operator == operator' && same operand operand'
  | .ternary condition whenTrue whenFalse, .ternary condition' whenTrue' whenFalse' =>
    same condition condition' && same whenTrue whenTrue' && same whenFalse whenFalse'
  | .binding name value uses body, .binding name' value' uses' body' =>
    name == name' && same value value' && uses == uses' && same body body'
  | .conditional branches otherwise, .conditional branches' otherwise' =>
    sameBranches branches branches' && sameOptional otherwise otherwise'
  | .call function hint arguments, .call function' hint' arguments' =>
    function == function' && hint == hint' && sameAll arguments arguments'
  | .cast typeName inner, .cast typeName' inner' => typeName == typeName' && same inner inner'
  | .grouping inner, .grouping inner' => same inner inner'
  | _, _ => false

/-- Whether two lists of trees are the same. -/
def sameAll : List Expression → List Expression → Bool
  | [], [] => true
  | first :: rest, first' :: rest' => same first first' && sameAll rest rest'
  | _, _ => false

/-- Whether two lists of branches are the same. -/
def sameBranches : List (Expression × Expression) → List (Expression × Expression) → Bool
  | [], [] => true
  | (condition, result) :: rest, (condition', result') :: rest' =>
    same condition condition' && same result result' && sameBranches rest rest'
  | _, _ => false

/-- Whether two optional trees are the same. -/
def sameOptional : Option Expression → Option Expression → Bool
  | none, none => true
  | some tree, some tree' => same tree tree'
  | _, _ => false

end

end Expression

end Reckon
