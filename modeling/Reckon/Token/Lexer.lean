/-
This file splits a text into tokens. The tokens and the blanks between them
make up the whole text: at each place that no earlier token covers there is a
blank, a token, or an error that ends the reading.

Recognising a token looks at the first character and the ones after it, and
says how many of the later ones belong to the token too.
-/

import Reckon.Binary64.Reading
import Reckon.Text.Blank
import Reckon.Text.Letter
import Reckon.Token

namespace Reckon

/-- What can be wrong with the characters of a text. -/
inductive LexicalError where
  | unterminatedText (position : Nat)
  | unexpectedCharacter (character : Char) (position : Nat)
  | invalidNumber (literal : String) (position : Nat)
  deriving DecidableEq

namespace LexicalError

/-- The place of the token that could not be read. -/
def position : LexicalError → Nat
  | .unterminatedText position => position
  | .unexpectedCharacter _ position => position
  | .invalidNumber _ position => position

/-- The wording of the error. -/
def message : LexicalError → String
  | .unterminatedText position => s!"Unterminated string starting at position {position}"
  | .unexpectedCharacter character position =>
    s!"Unexpected character '{character}' at position {position}"
  | .invalidNumber literal position => s!"Invalid number '{literal}' at position {position}"

end LexicalError

/-! ### Names -/

/-- How many characters a name takes. A point belongs to it when another character of a name
follows, so a path such as `player.health` is one name. -/
def nameLength : List Char → Nat
  | [] => 0
  | character :: rest =>
    if isNamePart character then 1 + nameLength rest
    else if character = '.' then
      match rest with
      | next :: _ => if isNamePart next then 1 + nameLength rest else 0
      | [] => 0
    else 0

/-- The kind of a word: some words are reserved, all others are names. -/
def TokenKind.ofWord (word : String) : TokenKind :=
  match word with
  | "let" => .letWord
  | "as" => .asWord
  | "if" => .ifWord
  | "elif" => .elifWord
  | "else" => .elseWord
  | "and" => .and
  | "or" => .or
  | "not" => .not
  | "true" => .boolean true
  | "false" => .boolean false
  | "null" => .null
  | "Out" => .outWord
  | _ => .name word

/-! ### Texts -/

/-- The character that a backslash and a character stand for. -/
def unescape (character : Char) : Char :=
  match character with
  | 'n' => '\n'
  | 't' => '\t'
  | 'r' => '\r'
  | other => other

/-- Reads a quoted text after its opening quote: the content, and how many characters it takes
with the closing quote. There is none if the quote is never closed. -/
def quotedContent? (quote : Char) : List Char → Option (List Char × Nat)
  | [] => none
  | '\\' :: escaped :: rest =>
    (quotedContent? quote rest).map fun (content, length) =>
      (unescape escaped :: content, length + 2)
  | character :: rest =>
    if character = quote then some ([], 1)
    else if character = '\\' then none
    else
      (quotedContent? quote rest).map fun (content, length) => (character :: content, length + 1)

/-! ### Numbers -/

/-- The digits of a literal before its point and, if a point and a digit follow, the digits
after it. -/
def numberDigits (characters : List Char) : List Char × List Char :=
  let whole := characters.takeWhile Char.isDigit
  match characters.dropWhile Char.isDigit with
  | '.' :: rest => (whole, rest.takeWhile Char.isDigit)
  | _ => (whole, [])

/-- The kind of a number literal: with digits after a point a binary number, otherwise an
integer, if it fits into 64 bits. -/
def numberKind? (whole fraction : List Char) : Option TokenKind :=
  if fraction ≠ [] then
    some (.float (.ofDecimalText false ⟨whole, fraction, 0⟩))
  else
    let number : Int := digitsValue whole
    if fitsInt64 number then some (.integer (Int64.ofInt number)) else none

/-- The characters of a number literal. -/
def numberLexeme (whole fraction : List Char) : List Char :=
  if fraction ≠ [] then whole ++ '.' :: fraction else whole

/-! ### Tokens -/

/-- The tokens of one character, and the ones that a second character makes another token.
A lone `&` or `|` is none. -/
def symbol? : Char → List Char → Option (TokenKind × Nat)
  | '+', _ => some (.plus, 0)
  | '-', _ => some (.minus, 0)
  | '*', _ => some (.star, 0)
  | '/', _ => some (.slash, 0)
  | '%', _ => some (.percent, 0)
  | '^', _ => some (.caret, 0)
  | '?', _ => some (.question, 0)
  | '(', _ => some (.leftParen, 0)
  | ')', _ => some (.rightParen, 0)
  | ',', _ => some (.comma, 0)
  | ':', _ => some (.colon, 0)
  | ';', _ => some (.semicolon, 0)
  | '=', '=' :: _ => some (.equal, 1)
  | '=', _ => some (.assign, 0)
  | '!', '=' :: _ => some (.notEqual, 1)
  | '!', _ => some (.not, 0)
  | '<', '=' :: _ => some (.lessEqual, 1)
  | '<', _ => some (.less, 0)
  | '>', '=' :: _ => some (.greaterEqual, 1)
  | '>', _ => some (.greater, 0)
  | '&', '&' :: _ => some (.and, 1)
  | '|', '|' :: _ => some (.or, 1)
  | _, _ => none

/-- Recognises the token that begins with a character at a place: its kind, and how many of
the characters that follow belong to it. -/
def recognise (position : Nat) (first : Char) (rest : List Char) :
    Except LexicalError (TokenKind × Nat) :=
  if first = '"' ∨ first = '\'' then
    match quotedContent? first rest with
    | some (content, length) => .ok (.text (String.ofList content), length)
    | none => .error (.unterminatedText position)
  else if first.isDigit then
    let (whole, fraction) := numberDigits (first :: rest)
    let lexeme := numberLexeme whole fraction
    match numberKind? whole fraction with
    | some kind => .ok (kind, lexeme.length - 1)
    | none => .error (.invalidNumber (String.ofList lexeme) position)
  else if isNameStart first then
    let length := nameLength rest
    .ok (.ofWord (String.ofList (first :: rest.take length)), length)
  else
    match symbol? first rest with
    | some token => .ok token
    | none => .error (.unexpectedCharacter first position)

/-- What the reading of a text gives: the tokens up to its end, or up to an error. -/
structure Scan where
  tokens : List Token
  failure : Option LexicalError
  deriving DecidableEq

/-- Reads the tokens of the characters from a place on. The number says how many of the
characters still belong to the token before. -/
def scanFrom (position covered : Nat) : List Char → Scan
  | [] => ⟨[.endAt position], none⟩
  | character :: rest =>
    match covered with
    | covered + 1 => scanFrom (position + 1) covered rest
    | 0 =>
      if isBlank character then scanFrom (position + 1) 0 rest
      else
        match recognise position character rest with
        | .error failure => ⟨[], some failure⟩
        | .ok (kind, length) =>
          let lexeme := String.ofList (character :: rest.take length)
          let later := scanFrom (position + 1) length rest
          ⟨⟨kind, lexeme, position⟩ :: later.tokens, later.failure⟩

/-- Reads the tokens of a text, the end of the input last. -/
def scan (source : String) : Scan :=
  scanFrom 0 0 source.toList

/-- The tokens of a text, if all of it can be read. -/
def tokenize (source : String) : Except LexicalError (List Token) :=
  let result := scan source
  match result.failure with
  | some failure => .error failure
  | none => .ok result.tokens

end Reckon
