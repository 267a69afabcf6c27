/-
This file holds the values that expressions compute with. Integers and binary
numbers are kept apart until arithmetic touches them, but they are equal when
they denote the same number, and both are written the same way when they are
whole and not too large.
-/

import Reckon.Binary64.Arithmetic
import Reckon.Binary64.Text

namespace Reckon

/-- A named member of a type that the host of the engine knows, such as an enumeration. -/
structure DomainValue where
  typeName : String
  name : String
  deriving DecidableEq

/-- A value of the expression language. -/
inductive Value where
  | null
  | boolean (truth : Bool)
  | integer (number : Int64)
  | float (number : Binary64)
  | text (content : String)
  | domain (member : DomainValue)
  deriving DecidableEq, Inhabited

namespace Value

/-- Whether a value counts as true in a condition. -/
def isTruthy : Value → Bool
  | .null => false
  | .boolean truth => truth
  | .integer number => number != 0
  | .float number => !number.isZero
  | .text content => content != ""
  | .domain _ => true

/-- A number of either kind as a binary number. -/
def asFloat? : Value → Option Binary64
  | .integer number => some (.ofInt64 number)
  | .float number => some number
  | _ => none

/-- A number of either kind as an integer, the fraction dropped. -/
def asInteger? : Value → Option Int64
  | .integer number => some number
  | .float number => if number.isFinite then some number.truncate else none
  | _ => none

/-- The content of a text. -/
def asText? : Value → Option String
  | .text content => some content
  | _ => none

/-- Whether a value is a number of either kind. -/
def isNumber : Value → Bool
  | .integer _ => true
  | .float _ => true
  | _ => false

/-- Whether a value is a text. -/
def isText : Value → Bool
  | .text _ => true
  | _ => false

/-- The name of a value's type, as messages give it. -/
def typeName : Value → String
  | .null => "null"
  | .boolean _ => "boolean"
  | .integer _ => "integer"
  | .float _ => "float"
  | .text _ => "string"
  | .domain member => member.typeName

/-- The text of a truth value. -/
def truthText (truth : Bool) : String :=
  if truth then "true" else "false"

/-- A value as it is shown: joined to a text, cast to one, or named in a message. -/
def shown : Value → String
  | .null => "null"
  | .boolean truth => truthText truth
  | .integer number => toString number.toInt
  | .float number => number.shownText
  | .text content => content
  | .domain member => member.name

/-- Whether two values are equal. Two integers are compared as integers; a number of one kind
and a number of the other are compared as binary numbers. -/
def equals : Value → Value → Bool
  | .null, .null => true
  | .boolean truth, .boolean truth' => truth == truth'
  | .integer number, .integer number' => number == number'
  | .integer number, .float number' => (Binary64.ofInt64 number).equals number'
  | .float number, .integer number' => number.equals (.ofInt64 number')
  | .float number, .float number' => number.equals number'
  | .text content, .text content' => content == content'
  | .domain member, .domain member' => member == member'
  | _, _ => false

end Value

end Reckon
