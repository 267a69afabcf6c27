/-
This file relates JSON documents and values. A document as a whole can be taken
for a value, or be flattened into variables named by the paths to its scalars.
A value can be written as a document, either for a reader who wants plain JSON
or so that it can be read back; only the second way tells a domain value from a
text.
-/

import Reckon.Dictionary
import Reckon.Json.Library
import Reckon.Value

namespace Reckon

namespace Value

/-- The value of a JSON integer: beyond the 64-bit integers it is a binary number. -/
def ofJsonInteger (number : Int) : Value :=
  if fitsInt64 number then .integer (Int64.ofInt number) else .float (.ofInt number)

/-- The value that a document is taken for. Arrays and objects become their text. -/
def ofDocument : Json → Value
  | .null => .null
  | .boolean truth => .boolean truth
  | .integer number => ofJsonInteger number
  | .float number => .float number
  | .text content => .text content
  | compound => .text compound.canonical.compact

/-- A value as plain JSON. A number that is not finite has none, and a domain value is its
name. -/
def toDocument : Value → Json
  | .null => .null
  | .boolean truth => .boolean truth
  | .integer number => .integer number.toInt
  | .float number => if number.isFinite then .float number else .null
  | .text content => .text content
  | .domain member => .text member.name

/-- The JSON form from which a value is read back. -/
def toJson : Value → Json
  | .domain member => .object [("type_name", .text member.typeName), ("name", .text member.name)]
  | other => other.toDocument

/-- The text under a key, which exactly one member must have. -/
def textMember? (library : JsonLibrary) (key : String) (members : List (String × Json)) :
    Option String :=
  match members.filter fun member => member.1 = key with
  | [(_, document)] => library.text? document
  | _ => none

/-- Reads a domain value: an object with its type and its name, other members aside, or an array of
the two. -/
def domainOfJson? (library : JsonLibrary) : Json → Option DomainValue
  | .array [typeName, name] => do return ⟨← library.text? typeName, ← library.text? name⟩
  | .object members => do
    return ⟨← textMember? library "type_name" members, ← textMember? library "name" members⟩
  | _ => none

/-- Reads a value from its JSON form. The form does not say which kind of value it is of: the kinds
are tried in the order in which they are declared. -/
def ofJson? (library : JsonLibrary) (document : Json) : Option Value :=
  ((library.nothing? document).map fun _ => .null) <|>
    (library.truth? document).map .boolean <|>
    (library.integer? document).map .integer <|>
    (library.float? document).map .float <|>
    (library.text? document).map .text <|>
    (domainOfJson? library document).map .domain

end Value

namespace Json

/-- A path with a step added at its end. -/
def extendPath (path step : String) : String :=
  if path = "" then step else path ++ "." ++ step

mutual

/-- The scalars of a document with the paths to them, in order. -/
def leavesUnder (path : String) : Json → List (String × Json)
  | .array items => itemLeaves path 0 items
  | .object members => memberLeaves path members
  | scalar => [(path, scalar)]

/-- The scalars of the items of an array; an item's step is its place. -/
def itemLeaves (path : String) (place : Nat) : List Json → List (String × Json)
  | [] => []
  | item :: rest =>
    leavesUnder (extendPath path (toString place)) item ++ itemLeaves path (place + 1) rest

/-- The scalars of the members of an object; a member's step is its key. -/
def memberLeaves (path : String) : List (String × Json) → List (String × Json)
  | [] => []
  | (key, value) :: rest =>
    leavesUnder (extendPath path key) value ++ memberLeaves path rest

end

/-- The variables of a document: its scalars, named by the paths to them. A scalar without a
path has no name, and of two scalars with one name the later counts. -/
def flatten (document : Json) : Dictionary String Value :=
  .ofList (((leavesUnder "" document.canonical).filter fun leaf => leaf.1 ≠ "").map fun leaf =>
    (leaf.1, .ofDocument leaf.2))

end Json

end Reckon
