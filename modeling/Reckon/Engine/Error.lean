/-
This file lists what an engine may answer instead of a result: there is nothing
to evaluate, the text is no expression, the evaluation fails, or a definition
is faulty.
-/

import Reckon.Evaluation.Error
import Reckon.Function.Definition

namespace Reckon

/-- What can go wrong in an engine. -/
inductive EngineError where
  | emptyExpression
  | syntactic (cause : SyntaxError)
  | evaluation (cause : EvaluationError)
  | definition (cause : DefinitionError)
  deriving DecidableEq

namespace EngineError

/-- The wording of an error. -/
def message : EngineError → String
  | .emptyExpression => "Expression is empty"
  | .syntactic cause => cause.fullMessage
  | .evaluation cause => cause.message
  | .definition cause => cause.message

/-- The kind of an error. -/
def kind : EngineError → ErrorKind
  | .emptyExpression => .input
  | .syntactic _ => .syntactic
  | .evaluation cause => cause.kind
  | .definition (.invalidBody _) => .syntactic
  | .definition _ => .input

end EngineError

end Reckon
