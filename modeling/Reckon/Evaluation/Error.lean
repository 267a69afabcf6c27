/-
This file lists what can go wrong while an expression is evaluated, with the
wording of each error and the broad kind it belongs to.
-/

import Reckon.Value.Type

namespace Reckon

/-- The broad kinds of failure. -/
inductive ErrorKind where
  | syntactic
  | variableAccess
  | arithmetic
  | functionCall
  | depth
  | timeout
  | cast
  | type
  | input
  deriving DecidableEq

namespace ErrorKind

/-- What a kind is called. -/
def name : ErrorKind → String
  | .syntactic => "Syntax"
  | .variableAccess => "Variable"
  | .arithmetic => "Arithmetic"
  | .functionCall => "Function"
  | .depth => "Depth"
  | .timeout => "Timeout"
  | .cast => "Cast"
  | .type => "Type"
  | .input => "Input"

end ErrorKind

/-- What can go wrong while an expression is evaluated. The last one is no failure: it stands for
an evaluation that is still going on when the nestings it was given are used up. -/
inductive EvaluationError where
  | undefinedVariable (name : String)
  | usesExceeded (name : String) (allowed : Nat)
  | variableNotAllowed (name : String)
  | divisionByZero
  | moduloByZero
  | typeMismatch (detail : String)
  | unknownOperation (name : String)
  | undefinedFunction (name : String)
  | functionNotAllowed (name : String)
  | arityMismatch (name : String) (expected found : Nat)
  | argumentType (function : String) (index : Nat) (cause : CastError)
  | hostFunction (detail : String)
  | unknownType (name : String)
  | cast (cause : CastError)
  | depthExceeded (limit : Nat)
  | timedOut (milliseconds : UInt64)
  | noBranchMatched
  | unfinished
  deriving DecidableEq

namespace EvaluationError

/-- The wording of an error. -/
def message : EvaluationError → String
  | .undefinedVariable name => s!"Undefined variable: {name}"
  | .usesExceeded name allowed =>
    s!"Variable '{name}' exceeded its allowed uses ({allowed})"
  | .variableNotAllowed name => s!"Access to variable '{name}' is not allowed"
  | .divisionByZero => "Division by zero"
  | .moduloByZero => "Modulo by zero"
  | .typeMismatch detail => s!"Type error: {detail}"
  | .unknownOperation name => s!"Unknown math operation: {name}"
  | .undefinedFunction name => s!"Undefined function: {name}"
  | .functionNotAllowed name => s!"Access to function '{name}' is not allowed"
  | .arityMismatch name expected found =>
    s!"Function '{name}' expects {expected} argument(s), got {found}"
  | .argumentType function index cause =>
    s!"Invalid argument {index} for '{function}': {cause.message}"
  | .hostFunction detail => s!"Function error: {detail}"
  | .unknownType name => s!"Unknown type: {name}"
  | .cast cause => cause.message
  | .depthExceeded limit => s!"Maximum recursion depth of {limit} exceeded"
  | .timedOut milliseconds => s!"Evaluation timed out after {milliseconds} ms"
  | .noBranchMatched => "No conditional branch matched and no else branch was given"
  | .unfinished => "Evaluation has not come to an end"

/-- The kind of an error. -/
def kind : EvaluationError → ErrorKind
  | .undefinedVariable _ | .usesExceeded _ _ | .variableNotAllowed _ => .variableAccess
  | .divisionByZero | .moduloByZero => .arithmetic
  | .unknownOperation _ | .undefinedFunction _ | .functionNotAllowed _
  | .arityMismatch _ _ _ | .argumentType _ _ _ | .hostFunction _ => .functionCall
  | .depthExceeded _ | .unfinished => .depth
  | .timedOut _ => .timeout
  | .cast _ | .unknownType _ => .cast
  | .typeMismatch _ | .noBranchMatched => .type

end EvaluationError

end Reckon
