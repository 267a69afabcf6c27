/-
This file writes JSON documents, on one line without spaces or across lines
with an indentation of two spaces.

Numbers are written with the fewest digits that read back as them. A binary
number keeps a fraction part, so that it is read back as one, and very large and
very small ones are written with an exponent.
-/

import Reckon.Binary64.Text
import Reckon.Json

namespace Reckon

/-- How a JSON document is laid out. -/
inductive JsonLayout where
  | compact
  | pretty
  deriving DecidableEq

namespace JsonLayout

/-- The end of a line, indented by two spaces for each level. -/
def lineBreak (layout : JsonLayout) (level : Nat) : List Char :=
  match layout with
  | .compact => []
  | .pretty => '\n' :: List.replicate (2 * level) ' '

/-- What stands between a key and its value. -/
def colon (layout : JsonLayout) : List Char :=
  match layout with
  | .compact => [':']
  | .pretty => [':', ' ']

end JsonLayout

namespace DecimalDigits

/-- The exponent of a decimal written with one digit before the point. -/
def leadingExponent (decimal : DecimalDigits) : Int :=
  (digitsOf decimal.digits).length + decimal.exponent - 1

/-- A decimal with one digit before the point and an exponent with its sign. -/
def scientific (decimal : DecimalDigits) : List Char :=
  let mantissa :=
    match digitsOf decimal.digits with
    | first :: second :: rest => first :: '.' :: second :: rest
    | digits => digits
  let sign := if decimal.leadingExponent < 0 then '-' else '+'
  mantissa ++ 'e' :: sign :: digitsOf decimal.leadingExponent.natAbs

/-- A decimal as a JSON number: written out from `0.00001` to below `10 ^ 16`, a whole one with
a zero after the point, and with an exponent elsewhere. -/
def jsonCharacters (decimal : DecimalDigits) : List Char :=
  if -5 ≤ decimal.leadingExponent ∧ decimal.leadingExponent < 16 then
    decimal.positional ++ (if 0 ≤ decimal.exponent then ['.', '0'] else [])
  else decimal.scientific

end DecimalDigits

namespace Json

/-- A binary number as JSON; one that is not finite has no JSON number. -/
def floatCharacters : Binary64 → List Char
  | .finite negative rank =>
    signText negative ++
      if rank.val = 0 then ['0', '.', '0']
      else (Binary64.shortest .even rank).jsonCharacters
  | _ => ['n', 'u', 'l', 'l']

/-- A digit of a hexadecimal number. -/
def hexCharacter (digit : Nat) : Char :=
  Nat.digitChar digit

/-- A character as it stands in a JSON text. -/
def escapedCharacter (character : Char) : List Char :=
  match character with
  | '"' => ['\\', '"']
  | '\\' => ['\\', '\\']
  | '\x08' => ['\\', 'b']
  | '\x0c' => ['\\', 'f']
  | '\n' => ['\\', 'n']
  | '\r' => ['\\', 'r']
  | '\t' => ['\\', 't']
  | other =>
    if other.toNat < 32 then
      ['\\', 'u', '0', '0', hexCharacter (other.toNat / 16), hexCharacter (other.toNat % 16)]
    else [other]

/-- A text in quotes. -/
def textCharacters (content : String) : List Char :=
  '"' :: (content.toList.flatMap escapedCharacter ++ ['"'])

mutual

/-- A document as characters, at a level of indentation. -/
def characters (layout : JsonLayout) (level : Nat) : Json → List Char
  | .null => ['n', 'u', 'l', 'l']
  | .boolean truth => (if truth then "true" else "false").toList
  | .integer number => (toString number).toList
  | .float number => floatCharacters number
  | .text content => textCharacters content
  | .array items =>
    '[' :: (itemCharacters layout level true items ++
      (if items.isEmpty then [] else layout.lineBreak level) ++ [']'])
  | .object members =>
    '{' :: (memberCharacters layout level true members ++
      (if members.isEmpty then [] else layout.lineBreak level) ++ ['}'])

/-- The items of an array, with commas between them. -/
def itemCharacters (layout : JsonLayout) (level : Nat) (isFirst : Bool) : List Json → List Char
  | [] => []
  | item :: rest =>
    (if isFirst then [] else [',']) ++ layout.lineBreak (level + 1) ++
      characters layout (level + 1) item ++ itemCharacters layout level false rest

/-- The members of an object, with commas between them. -/
def memberCharacters (layout : JsonLayout) (level : Nat) (isFirst : Bool) :
    List (String × Json) → List Char
  | [] => []
  | (key, value) :: rest =>
    (if isFirst then [] else [',']) ++ layout.lineBreak (level + 1) ++ textCharacters key ++
      layout.colon ++ characters layout (level + 1) value ++
      memberCharacters layout level false rest

end

/-- A document on one line. -/
def compact (document : Json) : String :=
  String.ofList (document.characters .compact 0)

/-- A document across lines. -/
def pretty (document : Json) : String :=
  String.ofList (document.characters .pretty 0)

end Json

end Reckon
