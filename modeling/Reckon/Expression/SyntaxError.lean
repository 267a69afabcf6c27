/-
This file lists what can be wrong with a text that should be an expression,
with the wording of each fault. A fault is reported at the first token that
cannot continue an expression.
-/

import Reckon.Token.Lexer

namespace Reckon

/-- What can be wrong with a text that should be an expression. -/
inductive SyntaxProblem where
  | lexical (cause : LexicalError)
  | tokenAfterEnd (shown : String)
  | nestedTooDeeply
  | variableNameExpected
  | assignExpected
  | useCountExpected
  | useCountZero
  | semicolonExpected
  | branchColonExpected
  | elseExpected
  | elseColonExpected
  | ternaryColonExpected
  | expressionExpected
  | groupCloseExpected
  | callCloseExpected
  | castTypeOpenExpected
  | castTypeNameExpected
  | castTypeCloseExpected
  | castOpenExpected
  | castCloseExpected
  deriving DecidableEq

namespace SyntaxProblem

/-- The wording of a fault. -/
def message : SyntaxProblem → String
  | .lexical cause => cause.message
  | .tokenAfterEnd shown => s!"Unexpected token '{shown}' after end of expression."
  | .nestedTooDeeply => "Expression nested too deeply."
  | .variableNameExpected => "Expect variable name after 'let'."
  | .assignExpected => "Expect '=' after variable name."
  | .useCountExpected => "Expect number after 'as' for variable uses."
  | .useCountZero => "Variable uses after 'as' must not be 0."
  | .semicolonExpected => "Expect ';' after variable binding."
  | .branchColonExpected => "Expect ':' after condition."
  | .elseExpected => "Expect 'else' to close conditional chain."
  | .elseColonExpected => "Expect ':' after 'else' keyword."
  | .ternaryColonExpected => "Expect ':' after true branch of ternary."
  | .expressionExpected => "Expect expression."
  | .groupCloseExpected => "Expect ')' after expression."
  | .callCloseExpected => "Expect ')' after function arguments."
  | .castTypeOpenExpected => "Expect '<' after 'Out'."
  | .castTypeNameExpected => "Expect type name after 'Out<'."
  | .castTypeCloseExpected => "Expect '>' after type name."
  | .castOpenExpected => "Expect '(' after 'Out<Type>'."
  | .castCloseExpected => "Expect ')' after cast expression."

end SyntaxProblem

/-- A fault and the place of the token it was found at. -/
structure SyntaxError where
  problem : SyntaxProblem
  position : Nat
  deriving DecidableEq

namespace SyntaxError

/-- The wording of the fault, without its place. -/
def message (error : SyntaxError) : String :=
  error.problem.message

/-- The wording of the fault with its place. -/
def fullMessage (error : SyntaxError) : String :=
  s!"Syntax error at position {error.position}: {error.message}"

/-- A fault in the characters of a text, at its place. -/
def ofLexical (cause : LexicalError) : SyntaxError :=
  ⟨.lexical cause, cause.position⟩

end SyntaxError

end Reckon
