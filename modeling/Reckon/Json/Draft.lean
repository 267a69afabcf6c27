/-
This file reads JSON texts. Reading has two steps. The first splits a text by
the grammar of JSON into a draft, which still holds numbers and characters as
they were written. The second turns a draft, or a part of one, into a document:
there numbers must be finite, escaped characters must be characters, and arrays
and objects may nest `jsonNestingLimit` deep. A part of a text that nobody asks
for is read by the first step alone.
-/

import Reckon.Binary64.Reading
import Reckon.Json

namespace Reckon

/-- How deep arrays and objects may nest in a document. -/
def jsonNestingLimit : Nat := 127

/-- A character of a JSON text, or a code unit written as four hexadecimal digits. -/
inductive TextPart where
  | character (character : Char)
  | unit (code : Nat)
  deriving DecidableEq

/-- A JSON text split by the grammar. -/
inductive JsonDraft where
  | null
  | boolean (truth : Bool)
  | number (negative : Bool) (digits : DecimalText) (isWhole : Bool)
  | text (parts : List TextPart)
  | array (items : List JsonDraft)
  | object (members : List (List TextPart × JsonDraft))
  deriving Inhabited

namespace JsonDraft

/-! ### The grammar -/

/-- Whether a character may stand between the parts of a JSON text. -/
def isJsonBlank (character : Char) : Bool :=
  character == ' ' || character == '\n' || character == '\t' || character == '\r'

/-- The characters after the blanks at the front. -/
def skipBlanks (characters : List Char) : List Char :=
  characters.dropWhile isJsonBlank

/-- The value of a hexadecimal digit, in small or capital letters. -/
def hexDigit? (character : Char) : Option Nat :=
  if character.isDigit then some (character.toNat - '0'.toNat)
  else if 'a' ≤ character ∧ character ≤ 'f' then some (character.toNat - 'a'.toNat + 10)
  else if 'A' ≤ character ∧ character ≤ 'F' then some (character.toNat - 'A'.toNat + 10)
  else none

/-- The code unit that four hexadecimal digits write. -/
def codeUnit? (first second third fourth : Char) : Option Nat := do
  return 4096 * (← hexDigit? first) + 256 * (← hexDigit? second) + 16 * (← hexDigit? third) +
    (← hexDigit? fourth)

/-- The character that a backslash and a character stand for. -/
def escapeMeaning? : Char → Option Char
  | '"' => some '"'
  | '\\' => some '\\'
  | '/' => some '/'
  | 'b' => some '\x08'
  | 'f' => some '\x0c'
  | 'n' => some '\n'
  | 'r' => some '\r'
  | 't' => some '\t'
  | _ => none

/-- Reads a text after its opening quote, with the closing one. Control characters must be
escaped. -/
def readParts? : List Char → Option (List TextPart × List Char)
  | [] => none
  | '"' :: rest => some ([], rest)
  | '\\' :: 'u' :: first :: second :: third :: fourth :: rest => do
    let code ← codeUnit? first second third fourth
    let (parts, rest) ← readParts? rest
    return (.unit code :: parts, rest)
  | '\\' :: escaped :: rest => do
    let character ← escapeMeaning? escaped
    let (parts, rest) ← readParts? rest
    return (.character character :: parts, rest)
  | character :: rest =>
    if character.toNat < 32 ∨ character = '\\' then none
    else do
      let (parts, rest) ← readParts? rest
      return (.character character :: parts, rest)

/-- Reads the digits after the point of a number, if there is a point. -/
def readFraction? : List Char → Option (List Char × List Char)
  | '.' :: rest =>
    let digits := rest.takeWhile Char.isDigit
    if digits = [] then none else some (digits, rest.dropWhile Char.isDigit)
  | rest => some ([], rest)

/-- Reads the exponent of a number, if there is one. -/
def readPower? : List Char → Option (Option Int × List Char)
  | [] => some (none, [])
  | mark :: rest =>
    if mark = 'e' ∨ mark = 'E' then
      let (negative, rest) := splitSign rest
      let digits := rest.takeWhile Char.isDigit
      if digits = [] then none
      else
        let size : Int := digitsValue digits
        some (some (if negative then -size else size), rest.dropWhile Char.isDigit)
    else some (none, mark :: rest)

/-- Reads a number: no zero may stand before other digits. -/
def readNumber? (characters : List Char) : Option (JsonDraft × List Char) :=
  let (negative, rest) :=
    match characters with
    | '-' :: rest => (true, rest)
    | rest => (false, rest)
  let whole := rest.takeWhile Char.isDigit
  if whole = [] ∨ whole.head? = some '0' ∧ whole.length ≠ 1 then none
  else do
    let (fraction, rest) ← readFraction? (rest.dropWhile Char.isDigit)
    let (power, rest) ← readPower? rest
    return (.number negative ⟨whole, fraction, power.getD 0⟩ (fraction = [] ∧ power = none), rest)

mutual

/-- Reads a value. The first argument bounds the number of steps by the length of the text. -/
def readValue? : Nat → List Char → Option (JsonDraft × List Char)
  | 0, _ => none
  | steps + 1, characters =>
    match skipBlanks characters with
    | 'n' :: 'u' :: 'l' :: 'l' :: rest => some (.null, rest)
    | 't' :: 'r' :: 'u' :: 'e' :: rest => some (.boolean true, rest)
    | 'f' :: 'a' :: 'l' :: 's' :: 'e' :: rest => some (.boolean false, rest)
    | '"' :: rest => do
      let (parts, rest) ← readParts? rest
      return (.text parts, rest)
    | '[' :: rest =>
      match skipBlanks rest with
      | ']' :: rest => some (.array [], rest)
      | rest => do
        let (items, rest) ← readItems? steps rest
        return (.array items, rest)
    | '{' :: rest =>
      match skipBlanks rest with
      | '}' :: rest => some (.object [], rest)
      | rest => do
        let (members, rest) ← readMembers? steps rest
        return (.object members, rest)
    | rest => readNumber? rest

/-- Reads the items of an array, one at least, with the closing bracket. -/
def readItems? : Nat → List Char → Option (List JsonDraft × List Char)
  | 0, _ => none
  | steps + 1, characters => do
    let (item, rest) ← readValue? steps characters
    match skipBlanks rest with
    | ',' :: rest =>
      let (items, rest) ← readItems? steps rest
      return (item :: items, rest)
    | ']' :: rest => return ([item], rest)
    | _ => none

/-- Reads the members of an object, one at least, with the closing brace. -/
def readMembers? : Nat → List Char → Option (List (List TextPart × JsonDraft) × List Char)
  | 0, _ => none
  | steps + 1, characters =>
    match skipBlanks characters with
    | '"' :: rest => do
      let (key, rest) ← readParts? rest
      match skipBlanks rest with
      | ':' :: rest =>
        let (value, rest) ← readValue? steps rest
        match skipBlanks rest with
        | ',' :: rest =>
          let (members, rest) ← readMembers? steps rest
          return ((key, value) :: members, rest)
        | '}' :: rest => return ([(key, value)], rest)
        | _ => none
      | _ => none
    | _ => none

end

/-- Splits a text that holds one value and nothing but blanks beside it. -/
def read? (source : String) : Option JsonDraft := do
  let characters := source.toList
  let (draft, rest) ← readValue? (2 * characters.length + 2) characters
  if skipBlanks rest = [] then return draft else none

/-! ### Documents -/

/-- Whether a code unit is the first of two that make a character. -/
def isLeadingUnit (code : Nat) : Bool :=
  decide (0xd800 ≤ code ∧ code < 0xdc00)

/-- Whether a code unit is the second of two that make a character. -/
def isTrailingUnit (code : Nat) : Bool :=
  decide (0xdc00 ≤ code ∧ code < 0xe000)

/-- The characters of a text. A code unit that is half of a character must have its other half
beside it. -/
def characters? : List TextPart → Option (List Char)
  | [] => some []
  | .unit leading :: .unit trailing :: rest =>
    if isLeadingUnit leading then
      if isTrailingUnit trailing then
        (characters? rest).map
          (Char.ofNat (0x10000 + (leading - 0xd800) * 0x400 + (trailing - 0xdc00)) :: ·)
      else none
    else if isTrailingUnit leading then none
    else (characters? (.unit trailing :: rest)).map (Char.ofNat leading :: ·)
  | .unit code :: rest =>
    if isLeadingUnit code ∨ isTrailingUnit code then none
    else (characters? rest).map (Char.ofNat code :: ·)
  | .character character :: rest => (characters? rest).map (character :: ·)

/-- The text that its parts spell. -/
def text? (parts : List TextPart) : Option String :=
  (characters? parts).map String.ofList

/-- The number that its digits denote. A negative zero is no integer, and numbers beyond the
finite ones are refused. -/
def number? (negative : Bool) (digits : DecimalText) (isWhole : Bool) : Option Json :=
  let size := digitsValue digits.whole
  let integer : Int := if negative then -(size : Int) else size
  if isWhole ∧ (negative → size ≠ 0) ∧ Int64.minValue.toInt ≤ integer ∧ integer < UInt64.size then
    some (.integer integer)
  else
    let number := Binary64.ofDecimalText negative digits
    if number.isFinite then some (.float number) else none

mutual

/-- The document of a draft, with so many more levels of arrays and objects allowed. -/
def document? : Nat → JsonDraft → Option Json
  | _, .null => some .null
  | _, .boolean truth => some (.boolean truth)
  | _, .number negative digits isWhole => number? negative digits isWhole
  | _, .text parts => (text? parts).map .text
  | 0, .array _ => none
  | levels + 1, .array items => (documentItems? levels items).map .array
  | 0, .object _ => none
  | levels + 1, .object members => (documentMembers? levels members).map .object

/-- The documents of the items of an array. -/
def documentItems? : Nat → List JsonDraft → Option (List Json)
  | _, [] => some []
  | levels, item :: rest => do
    return (← document? levels item) :: (← documentItems? levels rest)

/-- The documents of the members of an object. -/
def documentMembers? : Nat → List (List TextPart × JsonDraft) → Option (List (String × Json))
  | _, [] => some []
  | levels, (key, value) :: rest => do
    return (← text? key, ← document? levels value) :: (← documentMembers? levels rest)

end

end JsonDraft

namespace Json

/-- The document that a JSON text holds. -/
def ofText? (source : String) : Option Json :=
  (JsonDraft.read? source).bind (JsonDraft.document? jsonNestingLimit)

end Json

end Reckon
