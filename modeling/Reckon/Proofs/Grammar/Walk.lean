/-
This file writes the parser down once more, the way it moves. A cursor goes over
a list of tokens in place, and a count goes up and down with the nested parts
that are open. Every rule is a walk: it looks at the token under the cursor,
moves on, and may take a step back before it complains.

Nothing about a walk says that there is a token under the cursor, that the
counts stay above zero, or that it ends: a walk can break down. It is therefore
allowed a number of activations that nest in each other and a number of rounds
for each of its loops, and every place of the cursor is written down.
-/

import Reckon.Expression.Parser

namespace Reckon

/-- Where a walk stands: at which token, and with how many nested parts open. -/
structure Cursor where
  index : Nat
  depth : Nat

/-- A cursor with those it came through, the latest first. -/
structure Trail where
  here : Cursor
  before : List Cursor

namespace Trail

/-- The trail of a walk that has not begun. -/
def start : Trail :=
  ⟨⟨0, 0⟩, []⟩

/-- All cursors of a trail. -/
def cursors (trail : Trail) : List Cursor :=
  trail.here :: trail.before

/-- A trail with one cursor more. -/
def goTo (trail : Trail) (cursor : Cursor) : Trail :=
  ⟨cursor, trail.cursors⟩

/-- All cursors stand at one of these tokens, with no more parts open than may nest. -/
def Within (tokens : List Token) (trail : Trail) : Prop :=
  ∀ cursor ∈ trail.cursors, cursor.index < tokens.length ∧ cursor.depth ≤ nestingLimit

end Trail

/-- What breaks a walk off: there is no token under the cursor, a count would go below zero, a
number does not fit a machine word, or there are no more activations or rounds. -/
inductive Breakdown where
  | noToken
  | belowZero
  | tooLarge
  | unfinished

/-- A fault as it is reported: its wording, and the place of a token. -/
structure Complaint where
  message : String
  position : Nat

/-- A walk over tokens: it leaves a trail with a result or a complaint, or it breaks down. -/
abbrev Walk (Result : Type) := ExceptT Complaint (StateT Trail (Except Breakdown)) Result

namespace Walk

variable {Result : Type}

/-! ### Single tokens -/

/-- Breaks down. -/
def breakDown (cause : Breakdown) : Walk Result :=
  fun _ => .error cause

/-- The cursor. -/
def here : Walk Cursor :=
  fun trail => .ok (.ok trail.here, trail)

/-- Moves the cursor. -/
def goTo (cursor : Cursor) : Walk Unit :=
  fun trail => .ok (.ok (), trail.goTo cursor)

variable (tokens : List Token)

/-- The token under the cursor. -/
def peek : Walk Token :=
  fun trail =>
    match tokens[trail.here.index]? with
    | some token => .ok (.ok token, trail)
    | none => .error .noToken

/-- Moves on to the next token, unless the end of the input is reached. -/
def advance : Walk Unit := do
  let token ← peek tokens
  if token.isEnd then return ()
  else
    let cursor ← here
    goTo { cursor with index := cursor.index + 1 }

/-- Moves back by one token. -/
def stepBack : Walk Unit := do
  let cursor ← here
  if cursor.index = 0 then breakDown .belowZero
  else goTo { cursor with index := cursor.index - 1 }

/-- Complains about the token under the cursor. -/
def complain (message : String) : Walk Result := do
  let token ← peek tokens
  throw ⟨message, token.position⟩

/-- Moves on if the cursor is at a token of a kind, and says whether it was. -/
def accept (kind : TokenKind) : Walk Bool := do
  if (← peek tokens).kind = kind then
    advance tokens
    return true
  else return false

/-- Moves on from a token of a kind, at which the cursor must be. -/
def expect (kind : TokenKind) (message : String) : Walk Unit := do
  if (← peek tokens).kind = kind then advance tokens else complain tokens message

/-- Moves on from a name, at which the cursor must be. -/
def expectName (message : String) : Walk String := do
  match (← peek tokens).kind with
  | .name name =>
    advance tokens
    return name
  | _ => complain tokens message

/-- Opens a nested part, if one more may be open, and closes it whether or not it could be
read. -/
def deeper (part : Walk Result) : Walk Result :=
  fun trail =>
    if nestingLimit ≤ trail.here.depth then complain tokens "Expression nested too deeply." trail
    else
      match part (trail.goTo { trail.here with depth := trail.here.depth + 1 }) with
      | .error cause => .error cause
      | .ok (answer, later) =>
        if later.here.depth = 0 then .error .belowZero
        else .ok (answer, later.goTo { later.here with depth := later.here.depth - 1 })

/-! ### The rules of the grammar -/

/-- Goes on after the first operand of a chain, for so many rounds. -/
def chainFrom (operator? : TokenKind → Option BinaryOperator) (operand : Walk Expression) :
    Nat → Expression → Walk Expression
  | 0, _ => breakDown .unfinished
  | rounds + 1, left => do
    match operator? (← peek tokens).kind with
    | none => return left
    | some operator =>
      advance tokens
      let right ← operand
      chainFrom operator? operand rounds (.binary operator left right)

/-- The walks over the parts that nest. -/
structure Nested where
  expression : Walk Expression
  power : Walk Expression
  unary : Walk Expression

variable (rounds : Nat) (nested : Nested)

/-- Walks over operands with operators between them. -/
def chain (operator? : TokenKind → Option BinaryOperator) (operand : Walk Expression) :
    Walk Expression := do
  let left ← operand
  chainFrom tokens operator? operand rounds left

/-- Walks over arguments, one at least, for so many rounds. -/
def argumentsFrom : Nat → Walk (List Expression)
  | 0 => breakDown .unfinished
  | rounds + 1 => do
    let argument ← nested.expression
    if ← accept tokens .comma then
      return argument :: (← argumentsFrom rounds)
    else return [argument]

/-- Walks over the arguments of a call, up to its closing parenthesis. -/
def arguments : Walk (List Expression) := do
  if (← peek tokens).kind = .rightParen then return []
  else argumentsFrom tokens nested rounds

/-- Walks over the arguments of a call, after its opening parenthesis, and the closing one. -/
def callArguments : Walk (List Expression) := do
  let arguments ← arguments tokens rounds nested
  expect tokens .rightParen "Expect ')' after function arguments."
  return arguments

/-- The kind of the token so far behind the cursor, if there is one. -/
def kindAt? (cursor : Cursor) (offset : Nat) : Option TokenKind :=
  tokens[cursor.index + offset]?.map Token.kind

/-- Whether a type hint and an opening parenthesis stand at a cursor. -/
def hintAt (cursor : Cursor) : Bool :=
  match kindAt? tokens cursor 0, kindAt? tokens cursor 1, kindAt? tokens cursor 2,
    kindAt? tokens cursor 3 with
  | some .less, some (.name _), some .greater, some .leftParen => true
  | _, _, _, _ => false

/-- Walks over what follows a name. -/
def afterName (name : String) : Walk Expression := do
  if ← accept tokens .leftParen then
    return .call name none (← callArguments tokens rounds nested)
  else if hintAt tokens (← here) then
    advance tokens
    let hint ← expectName tokens "Expect type name after '<'."
    expect tokens .greater "Expect '>' after generic type."
    expect tokens .leftParen "Expect '(' after generic type."
    return .call name (some hint) (← callArguments tokens rounds nested)
  else return .variable name

/-- What a walk would say about a type hint after a name, if it began to read one that is not
there. -/
def hintMessages : List String :=
  ["Expect type name after '<'.", "Expect '>' after generic type.",
    "Expect '(' after generic type."]

/-- Walks over a cast, after the word that begins it. -/
def afterOut : Walk Expression := do
  expect tokens .less "Expect '<' after 'Out'."
  let typeName ← expectName tokens "Expect type name after 'Out<'."
  expect tokens .greater "Expect '>' after type name."
  expect tokens .leftParen "Expect '(' after 'Out<Type>'."
  let inner ← nested.expression
  expect tokens .rightParen "Expect ')' after cast expression."
  return .cast typeName inner

/-- Gives the token back that was passed last, and complains about it. The end of the input was
not passed. -/
def giveBack (token : Token) : Walk Expression := do
  if token.isEnd then complain tokens "Expect expression."
  else
    stepBack
    complain tokens "Expect expression."

/-- Walks over a literal, a name, a call, a cast, or an expression in parentheses. A token that
begins none of them is given back. -/
def primary : Walk Expression := do
  let token ← peek tokens
  advance tokens
  match token.kind with
  | .integer number => return .integer number
  | .float number => return .float number
  | .text content => return .text content
  | .boolean truth => return .boolean truth
  | .null => return .null
  | .leftParen => do
    let inner ← nested.expression
    expect tokens .rightParen "Expect ')' after expression."
    return .grouping inner
  | .outWord => afterOut tokens nested
  | .name name => afterName tokens rounds nested name
  | _ => giveBack tokens token

/-- Walks over an operand with the unary operators before it. -/
def unary : Walk Expression := do
  match (← peek tokens).kind with
  | .minus => do
    advance tokens
    return .unary .negate (← nested.unary)
  | .not => do
    advance tokens
    return .unary .not (← nested.unary)
  | _ => primary tokens rounds nested

/-- Walks over a power. -/
def power : Walk Expression := do
  let base ← unary tokens rounds nested
  if ← accept tokens .caret then
    return .binary .power base (← nested.power)
  else return base

/-- Walks over operands of `or` and of all that binds tighter, down to powers. -/
def disjunction : Walk Expression :=
  chain tokens rounds Parser.orOperator? <|
    chain tokens rounds Parser.andOperator? <|
      chain tokens rounds Parser.equalityOperator? <|
        chain tokens rounds Parser.comparisonOperator? <|
          chain tokens rounds Parser.additiveOperator? <|
            chain tokens rounds Parser.multiplicativeOperator? <|
              power tokens rounds nested

/-- A count with its sign. -/
def signed (negative : Bool) (number : Int64) : Walk Int64 :=
  if negative then
    if number = Int64.minValue then breakDown .tooLarge else return -number
  else return number

/-- Walks over a use limit, if there is one. -/
def useLimit : Walk UseLimit := do
  if ← accept tokens .asWord then
    let negative ← accept tokens .minus
    let token ← peek tokens
    match token.kind with
    | .integer number => do
      advance tokens
      let count ← signed negative number
      match UseLimit.ofCount? count.toInt with
      | some uses => return uses
      | none => throw ⟨"Variable uses after 'as' must not be 0.", token.position⟩
    | _ => complain tokens "Expect number after 'as' for variable uses."
  else return .unlimited

/-- Walks over a binding, after the word that begins it. -/
def afterLet : Walk Expression := do
  let name ← expectName tokens "Expect variable name after 'let'."
  expect tokens .assign "Expect '=' after variable name."
  let value ← disjunction tokens rounds nested
  let uses ← useLimit tokens
  expect tokens .semicolon "Expect ';' after variable binding."
  return .binding name value uses (← nested.expression)

/-- Walks over a condition and the result it stands before. -/
def branch : Walk (Expression × Expression) := do
  let condition ← disjunction tokens rounds nested
  expect tokens .colon "Expect ':' after condition."
  return (condition, ← nested.expression)

/-- Walks over further branches of a conditional, for so many rounds. -/
def branchesFrom : Nat → Walk (List (Expression × Expression))
  | 0 => breakDown .unfinished
  | more + 1 => do
    if ← accept tokens .elifWord then
      let next ← branch tokens rounds nested
      return next :: (← branchesFrom more)
    else return []

/-- Walks over a conditional, after the word that begins it. -/
def afterIf : Walk Expression := do
  let first ← branch tokens rounds nested
  let further ← branchesFrom tokens rounds nested rounds
  expect tokens .elseWord "Expect 'else' to close conditional chain."
  expect tokens .colon "Expect ':' after 'else' keyword."
  return .conditional (first :: further) (some (← nested.expression))

/-- Walks over an expression that does not begin with a reserved word. -/
def ternary : Walk Expression := do
  let condition ← disjunction tokens rounds nested
  if ← accept tokens .question then
    let whenTrue ← nested.expression
    expect tokens .colon "Expect ':' after true branch of ternary."
    return .ternary condition whenTrue (← nested.expression)
  else return condition

/-- Walks over an expression. -/
def expression : Walk Expression := do
  match (← peek tokens).kind with
  | .letWord => do
    advance tokens
    afterLet tokens rounds nested
  | .ifWord => do
    advance tokens
    afterIf tokens rounds nested
  | _ => ternary tokens rounds nested

/-- The walks over the parts that nest, with so many activations left. -/
def nestedWithin : Nat → Nested
  | 0 => ⟨breakDown .unfinished, breakDown .unfinished, breakDown .unfinished⟩
  | activations + 1 =>
    let nested := nestedWithin activations
    ⟨deeper tokens (expression tokens rounds nested), deeper tokens (power tokens rounds nested),
      deeper tokens (unary tokens rounds nested)⟩

/-- Walks over an expression, to the end of the input. -/
def complete (activations : Nat) : Walk Expression := do
  let result ← (nestedWithin tokens rounds activations).expression
  let token ← peek tokens
  if token.isEnd then return result
  else complain tokens s!"Unexpected token '{token.shown}' after end of expression."

end Walk

namespace Token

/-- Tokens with the end of the input behind them, which is put there if it is not. -/
def withEnd (tokens : List Token) : List Token :=
  match tokens.getLast? with
  | none => [.endAt 0]
  | some last => if last.isEnd then tokens else tokens ++ [.endAt last.stop]

end Token

end Reckon
