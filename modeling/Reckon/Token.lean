/-
This file holds the tokens of the expression language. A token keeps the
characters it was read from and the place where they begin, counted in
characters from zero.
-/

import Reckon.Binary64

namespace Reckon

/-- What a token is, with the content of literals and names. -/
inductive TokenKind where
  | integer (number : Int64)
  | float (number : Binary64)
  | text (content : String)
  | boolean (truth : Bool)
  | null
  | name (name : String)
  | letWord
  | asWord
  | ifWord
  | elifWord
  | elseWord
  | outWord
  | and
  | or
  | not
  | plus
  | minus
  | star
  | slash
  | percent
  | caret
  | equal
  | notEqual
  | less
  | greater
  | lessEqual
  | greaterEqual
  | assign
  | question
  | leftParen
  | rightParen
  | comma
  | colon
  | semicolon
  | endOfInput
  deriving DecidableEq

/-- A token with the characters it was read from and the place of the first. -/
structure Token where
  kind : TokenKind
  lexeme : String
  position : Nat
  deriving DecidableEq

namespace Token

/-- The token that stands at the end of a text. -/
def endAt (position : Nat) : Token :=
  ⟨.endOfInput, "", position⟩

/-- Whether a token is the end of the input. -/
def isEnd (token : Token) : Bool :=
  token.kind == .endOfInput

/-- A token as messages name it. -/
def shown (token : Token) : String :=
  if token.isEnd then "end of input" else token.lexeme

/-- The place after the last character of a token. -/
def stop (token : Token) : Nat :=
  token.position + token.lexeme.length

end Token

end Reckon
