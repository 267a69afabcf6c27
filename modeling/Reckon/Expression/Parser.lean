/-
This file reads expressions from tokens. The grammar has one rule for each
strength of binding, from `or` down to `^` and the unary operators; below them
stand literals, names, calls, casts and expressions in parentheses. `let` and
`if` open an expression and reach as far right as they can.

Three parts of the grammar nest inside themselves: an expression, the operand
of a unary operator, and the right side of `^`. Together they may be open
`nestingLimit` times at once. The rules are therefore written over the parsers
of the next level of nesting, and the levels are built from the innermost out.
-/

import Reckon.Expression
import Reckon.Expression.SyntaxError

namespace Reckon

/-- How many nested parts of an expression may be open at once. -/
def nestingLimit : Nat := 128

/-- The tokens still to be read, without the end of the input, and the place of that end. -/
structure TokenStream where
  tokens : List Token
  stop : Nat

namespace TokenStream

/-- The stream of a list of tokens. A list without an end of the input ends after its last
token. -/
def ofTokens : List Token → TokenStream
  | [] => ⟨[], 0⟩
  | [token] => if token.isEnd then ⟨[], token.position⟩ else ⟨[token], token.stop⟩
  | token :: rest =>
    if token.isEnd then ⟨[], token.position⟩
    else
      let later := ofTokens rest
      ⟨token :: later.tokens, later.stop⟩

/-- The next token. -/
def next (stream : TokenStream) : Token :=
  stream.tokens.head?.getD (.endAt stream.stop)

end TokenStream

/-- A reader of a part of an expression: it takes tokens off the stream or finds a fault. -/
abbrev Parser (Result : Type) := StateT TokenStream (Except SyntaxError) Result

namespace Parser

/-! ### Single tokens -/

/-- The next token, left in the stream. -/
def next : Parser Token :=
  fun stream => .ok (stream.next, stream)

/-- The number of tokens left. -/
def tokensLeft : Parser Nat :=
  fun stream => .ok (stream.tokens.length, stream)

/-- Takes a token off the stream. -/
def advance : Parser Unit :=
  fun stream => .ok ((), { stream with tokens := stream.tokens.drop 1 })

/-- Finds a fault at the next token. -/
def fail {Result : Type} (problem : SyntaxProblem) : Parser Result :=
  fun stream => .error ⟨problem, stream.next.position⟩

/-- Takes a token of a kind if it comes next, and says whether it did. -/
def accept (kind : TokenKind) : Parser Bool := do
  if (← next).kind = kind then
    advance
    return true
  else return false

/-- Takes a token of a kind, which must come next. -/
def expect (kind : TokenKind) (problem : SyntaxProblem) : Parser Unit := do
  if (← next).kind = kind then advance else fail problem

/-- Takes a name, which must come next. -/
def expectName (problem : SyntaxProblem) : Parser String := do
  match (← next).kind with
  | .name name =>
    advance
    return name
  | _ => fail problem

/-! ### Chains of operators -/

/-- Reads on after the first operand of a chain that groups from the left. The first argument
bounds the number of operators by the number of tokens. -/
def chainFrom (operator? : TokenKind → Option BinaryOperator) (operand : Parser Expression) :
    Nat → Expression → Parser Expression
  | 0, left => return left
  | steps + 1, left => do
    match operator? (← next).kind with
    | none => return left
    | some operator =>
      advance
      let right ← operand
      chainFrom operator? operand steps (.binary operator left right)

/-- Reads operands with operators between them, grouped from the left. -/
def chain (operator? : TokenKind → Option BinaryOperator) (operand : Parser Expression) :
    Parser Expression := do
  let left ← operand
  chainFrom operator? operand (← tokensLeft) left

/-- The operator of the rule for `or`. -/
def orOperator? : TokenKind → Option BinaryOperator
  | .or => some .or
  | _ => none

/-- The operator of the rule for `and`. -/
def andOperator? : TokenKind → Option BinaryOperator
  | .and => some .and
  | _ => none

/-- The operators of the rule for equality. -/
def equalityOperator? : TokenKind → Option BinaryOperator
  | .equal => some .equal
  | .notEqual => some .notEqual
  | _ => none

/-- The operators of the rule for order. -/
def comparisonOperator? : TokenKind → Option BinaryOperator
  | .less => some .less
  | .greater => some .greater
  | .lessEqual => some .lessEqual
  | .greaterEqual => some .greaterEqual
  | _ => none

/-- The operators of the rule for sums. -/
def additiveOperator? : TokenKind → Option BinaryOperator
  | .plus => some .add
  | .minus => some .subtract
  | _ => none

/-- The operators of the rule for products. -/
def multiplicativeOperator? : TokenKind → Option BinaryOperator
  | .star => some .multiply
  | .slash => some .divide
  | .percent => some .modulo
  | _ => none

/-! ### The rules of the grammar -/

/-- The parsers of the parts that nest, one level further in. -/
structure Nested where
  expression : Parser Expression
  power : Parser Expression
  unary : Parser Expression

variable (nested : Nested)

/-- Reads arguments, one at least, with commas between them. The first argument bounds their
number: each but the last takes a token, and the last may be missing at the end. -/
def argumentsFrom : Nat → Parser (List Expression)
  | 0 => return []
  | steps + 1 => do
    let argument ← nested.expression
    if ← accept .comma then
      return argument :: (← argumentsFrom steps)
    else return [argument]

/-- Reads the arguments of a call, after its opening parenthesis, and the closing one. -/
def callArguments : Parser (List Expression) := do
  if ← accept .rightParen then return []
  else
    let arguments ← argumentsFrom nested ((← tokensLeft) + 1)
    expect .rightParen .callCloseExpected
    return arguments

/-- Takes a type hint and an opening parenthesis if exactly these come next. Otherwise `<` is
a comparison. -/
def acceptHint : Parser (Option String) :=
  fun stream =>
    match stream.tokens with
    | ⟨.less, _, _⟩ :: ⟨.name hint, _, _⟩ :: ⟨.greater, _, _⟩ :: ⟨.leftParen, _, _⟩ :: rest =>
      .ok (some hint, { stream with tokens := rest })
    | _ => .ok (none, stream)

/-- Reads what follows a name: the arguments of a call, or nothing. -/
def afterName (name : String) : Parser Expression := do
  if ← accept .leftParen then
    return .call name none (← callArguments nested)
  else
    match ← acceptHint with
    | some hint => return .call name (some hint) (← callArguments nested)
    | none => return .variable name

/-- Reads a cast, after the word that begins it. -/
def afterOut : Parser Expression := do
  expect .less .castTypeOpenExpected
  let typeName ← expectName .castTypeNameExpected
  expect .greater .castTypeCloseExpected
  expect .leftParen .castOpenExpected
  let inner ← nested.expression
  expect .rightParen .castCloseExpected
  return .cast typeName inner

/-- Reads a literal, a name, a call, a cast, or an expression in parentheses. -/
def primary : Parser Expression := do
  match (← next).kind with
  | .integer number => do
    advance
    return .integer number
  | .float number => do
    advance
    return .float number
  | .text content => do
    advance
    return .text content
  | .boolean truth => do
    advance
    return .boolean truth
  | .null => do
    advance
    return .null
  | .leftParen => do
    advance
    let inner ← nested.expression
    expect .rightParen .groupCloseExpected
    return .grouping inner
  | .outWord => do
    advance
    afterOut nested
  | .name name => do
    advance
    afterName nested name
  | _ => fail .expressionExpected

/-- Reads an operand with the unary operators before it. -/
def unary : Parser Expression := do
  match (← next).kind with
  | .minus => do
    advance
    return .unary .negate (← nested.unary)
  | .not => do
    advance
    return .unary .not (← nested.unary)
  | _ => primary nested

/-- Reads a power, grouped from the right. -/
def power : Parser Expression := do
  let base ← unary nested
  if ← accept .caret then
    return .binary .power base (← nested.power)
  else return base

/-- Reads products and quotients. -/
def product : Parser Expression :=
  chain multiplicativeOperator? (power nested)

/-- Reads sums and differences. -/
def sum : Parser Expression :=
  chain additiveOperator? (product nested)

/-- Reads comparisons of order. -/
def comparison : Parser Expression :=
  chain comparisonOperator? (sum nested)

/-- Reads comparisons for equality. -/
def equality : Parser Expression :=
  chain equalityOperator? (comparison nested)

/-- Reads operands of `and`. -/
def conjunction : Parser Expression :=
  chain andOperator? (equality nested)

/-- Reads operands of `or`. -/
def disjunction : Parser Expression :=
  chain orOperator? (conjunction nested)

/-- Reads a use limit if the word for one comes next. -/
def useLimit : Parser UseLimit := do
  if ← accept .asWord then
    let negative ← accept .minus
    match (← next).kind with
    | .integer number =>
      match UseLimit.ofCount? (if negative then -number.toInt else number.toInt) with
      | some uses => do
        advance
        return uses
      | none => fail .useCountZero
    | _ => fail .useCountExpected
  else return .unlimited

/-- Reads a binding, after the word that begins it. -/
def afterLet : Parser Expression := do
  let name ← expectName .variableNameExpected
  expect .assign .assignExpected
  let value ← disjunction nested
  let uses ← useLimit
  expect .semicolon .semicolonExpected
  return .binding name value uses (← nested.expression)

/-- Reads a condition and the result it stands before. -/
def branch : Parser (Expression × Expression) := do
  let condition ← disjunction nested
  expect .colon .branchColonExpected
  return (condition, ← nested.expression)

/-- Reads further branches of a conditional. The first argument bounds their number by the
number of tokens. -/
def branchesFrom : Nat → Parser (List (Expression × Expression))
  | 0 => return []
  | steps + 1 => do
    if ← accept .elifWord then
      let next ← branch nested
      return next :: (← branchesFrom steps)
    else return []

/-- Reads a conditional, after the word that begins it. -/
def afterIf : Parser Expression := do
  let first ← branch nested
  let further ← branchesFrom nested (← tokensLeft)
  expect .elseWord .elseExpected
  expect .colon .elseColonExpected
  return .conditional (first :: further) (some (← nested.expression))

/-- Reads an expression that does not begin with a reserved word; a question mark makes it the
condition of a choice. -/
def ternary : Parser Expression := do
  let condition ← disjunction nested
  if ← accept .question then
    let whenTrue ← nested.expression
    expect .colon .ternaryColonExpected
    return .ternary condition whenTrue (← nested.expression)
  else return condition

/-- Reads an expression. -/
def expression : Parser Expression := do
  match (← next).kind with
  | .letWord => do
    advance
    afterLet nested
  | .ifWord => do
    advance
    afterIf nested
  | _ => ternary nested

/-- The parsers of the nesting parts when so many may still be opened. -/
def nestedWithin : Nat → Nested
  | 0 => ⟨fail .nestedTooDeeply, fail .nestedTooDeeply, fail .nestedTooDeeply⟩
  | budget + 1 =>
    let nested := nestedWithin budget
    ⟨expression nested, power nested, unary nested⟩

/-- Reads an expression and the end of the input. -/
def complete : Parser Expression := do
  let result ← (nestedWithin nestingLimit).expression
  let token ← next
  if token.isEnd then return result else fail (.tokenAfterEnd token.shown)

end Parser

namespace Expression

/-- The expression that a list of tokens spells. -/
def ofTokens (tokens : List Token) : Except SyntaxError Expression :=
  (Parser.complete (.ofTokens tokens)).map Prod.fst

/-- The expression that a text spells. -/
def parse (source : String) : Except SyntaxError Expression :=
  match tokenize source with
  | .error cause => .error (.ofLexical cause)
  | .ok tokens => ofTokens tokens

end Expression

end Reckon
