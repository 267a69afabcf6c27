/-
This file writes expressions as text, on one line or broken across several.
What is written is a list of words with gaps between them; the two layouts
agree on the words and differ in the gaps only. Parentheses are added wherever
a reader would otherwise group the operands in another way.
-/

import Reckon.Binary64.Text
import Reckon.Expression

namespace Reckon

/-- A piece of a written expression: characters of a token or a space between tokens. -/
inductive Piece where
  | word (characters : String)
  | gap (characters : String)
  deriving DecidableEq

namespace Piece

/-- The characters of a piece. -/
def characters : Piece → String
  | .word characters => characters
  | .gap characters => characters

/-- A single space. -/
def space : Piece := .gap " "

end Piece

/-- How an expression is laid out. -/
inductive Layout where
  | compact
  | pretty
  deriving DecidableEq

namespace Layout

/-- The gap at the end of a line, indented by four spaces for each level; on one line it is a
single space. -/
def lineBreak (layout : Layout) (level : Nat) : Piece :=
  match layout with
  | .compact => .space
  | .pretty => .gap (String.ofList ('\n' :: List.replicate (4 * level) ' '))

/-- The level of the result of a branch. -/
def inner (layout : Layout) (level : Nat) : Nat :=
  match layout with
  | .compact => level
  | .pretty => level + 1

end Layout

/-- A character as it stands in a quoted text. -/
def escaped (character : Char) : List Char :=
  match character with
  | '"' => ['\\', '"']
  | '\\' => ['\\', '\\']
  | '\n' => ['\\', 'n']
  | '\t' => ['\\', 't']
  | '\r' => ['\\', 'r']
  | other => [other]

/-- A text as a literal, in double quotes. -/
def quoted (content : String) : String :=
  String.ofList ('"' :: (content.toList.flatMap escaped ++ ['"']))

namespace Expression

/-- Whether an expression reaches as far right as it can. Such an expression needs
parentheses wherever an operand stands. -/
def isOpenEnded : Expression → Bool
  | .binding _ _ _ _ => true
  | .conditional _ _ => true
  | .ternary _ _ _ => true
  | _ => false

/-- The operator of an expression that joins two operands. -/
def outerOperator? : Expression → Option BinaryOperator
  | .binary operator _ _ => some operator
  | _ => none

/-- Whether an operand needs parentheses beside an operator. At equal strength it does on the
side that the operator does not group from. -/
def needsParentheses (operand : Expression) (operator : BinaryOperator) (onRight : Bool) : Bool :=
  operand.isOpenEnded ||
    match operand.outerOperator? with
    | some inner =>
      decide (inner.precedence < operator.precedence) ||
        inner.precedence == operator.precedence && onRight != operator.isRightAssociative
    | none => false

/-- Whether an operand needs parentheses after a unary operator. -/
def needsUnaryParentheses (operand : Expression) : Bool :=
  operand.isOpenEnded || operand.outerOperator?.isSome

end Expression

/-- Pieces in parentheses, if they need them. -/
def parenthesised (needed : Bool) (pieces : List Piece) : List Piece :=
  if needed then .word "(" :: (pieces ++ [.word ")"]) else pieces

namespace UnaryOperator

/-- How an operator is written before its operand. -/
def pieces : UnaryOperator → List Piece
  | .negate => [.word "-"]
  | .not => [.word "not", .space]

end UnaryOperator

namespace UseLimit

/-- How a limit is written after the value of a binding. -/
def pieces : UseLimit → List Piece
  | .unlimited => []
  | .limited count => [.space, .word "as", .space, .word (toString count)]

end UseLimit

namespace Expression

mutual

/-- An expression as words and gaps, at a level of indentation. -/
def pieces (layout : Layout) (level : Nat) : Expression → List Piece
  | .integer number => [.word (toString number.toInt)]
  | .float number => [.word number.literalText]
  | .text content => [.word (quoted content)]
  | .boolean truth => [.word (if truth then "true" else "false")]
  | .null => [.word "null"]
  | .variable name => [.word name]
  | .binary operator left right =>
    parenthesised (left.needsParentheses operator false) (pieces layout level left) ++
      [.space, .word operator.symbol, .space] ++
      parenthesised (right.needsParentheses operator true) (pieces layout level right)
  | .unary operator operand =>
    operator.pieces ++
      parenthesised operand.needsUnaryParentheses (pieces layout level operand)
  | .ternary condition whenTrue whenFalse =>
    parenthesised condition.isOpenEnded (pieces layout level condition) ++
      [.space, .word "?", .space] ++ pieces layout level whenTrue ++
      [.space, .word ":", .space] ++ pieces layout level whenFalse
  | .binding name value uses body =>
    [.word "let", .space, .word name, .space, .word "=", .space] ++
      parenthesised value.isOpenEnded (pieces layout level value) ++ uses.pieces ++
      [.word ";", layout.lineBreak level] ++ pieces layout level body
  | .conditional branches otherwise =>
    branchPieces layout level true branches ++ otherwisePieces layout level otherwise
  | .call function hint arguments =>
    [.word function] ++
      (match hint with
      | some hint => [.word "<", .word hint, .word ">"]
      | none => []) ++
      [.word "("] ++ argumentPieces layout level true arguments ++ [.word ")"]
  | .cast typeName inner =>
    [.word "Out", .word "<", .word typeName, .word ">", .word "("] ++
      pieces layout level inner ++ [.word ")"]
  | .grouping inner => [.word "("] ++ pieces layout level inner ++ [.word ")"]

/-- The branches of a conditional; the first of them begins with another word. -/
def branchPieces (layout : Layout) (level : Nat) (isFirst : Bool) :
    List (Expression × Expression) → List Piece
  | [] => []
  | (condition, result) :: rest =>
    (if isFirst then [.word "if", .space]
    else [layout.lineBreak level, .word "elif", .space]) ++
      parenthesised condition.isOpenEnded (pieces layout level condition) ++
      [.word ":", layout.lineBreak (level + 1)] ++
      pieces layout (layout.inner level) result ++
      branchPieces layout level false rest

/-- What a conditional gives when no branch applies. -/
def otherwisePieces (layout : Layout) (level : Nat) : Option Expression → List Piece
  | none => []
  | some result =>
    [layout.lineBreak level, .word "else", .word ":", layout.lineBreak (level + 1)] ++
      pieces layout (layout.inner level) result

/-- The arguments of a call, with commas between them. -/
def argumentPieces (layout : Layout) (level : Nat) (isFirst : Bool) :
    List Expression → List Piece
  | [] => []
  | argument :: rest =>
    (if isFirst then [] else [.word ",", .space]) ++ pieces layout level argument ++
      argumentPieces layout level false rest

end

/-- An expression as text. -/
def render (layout : Layout) (expression : Expression) : String :=
  String.join ((expression.pieces layout 0).map Piece.characters)

/-- An expression on one line. -/
def compact (expression : Expression) : String :=
  expression.render .compact

/-- An expression with bindings and conditionals broken across lines. -/
def pretty (expression : Expression) : String :=
  expression.render .pretty

end Expression

end Reckon
