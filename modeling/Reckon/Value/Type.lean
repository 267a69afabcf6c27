/-
This file holds the types that values are coerced into. The built-in types go
by several names, in letters of any case; every other name means a domain type,
whose members a resolver knows. Coercion to a domain type here accepts a value
that is a member already.
-/

import Reckon.Value
import Reckon.Binary64.Reading
import Reckon.Text.Blank
import Reckon.Text.Case

namespace Reckon

/-- A type that a value can be coerced into. -/
inductive ValueType where
  | any
  | number
  | integer
  | text
  | boolean
  | named (name : String)
  deriving DecidableEq

/-- A value that a type does not accept: the value's type, the value as shown, and the type it
was to become. -/
structure CastError where
  source : String
  shown : String
  target : String
  deriving DecidableEq

namespace CastError

/-- The error of a value that could not become a target. -/
def ofValue (value : Value) (target : String) : CastError :=
  ⟨value.typeName, value.shown, target⟩

/-- The wording of the error. -/
def message (error : CastError) : String :=
  s!"Cannot convert {error.source} '{error.shown}' to {error.target}"

end CastError

/-! ### What a value is taken for -/

namespace Value

/-- The number that a value of another type is taken for. -/
def toNumber? : Value → Option Binary64
  | .integer number => some (.ofInt64 number)
  | .float number => some number
  | .boolean truth => some (.ofNat truth.toNat)
  | .text content => Binary64.ofText? (trimmed content)
  | _ => none

/-- The integer that a text denotes; a text that is no 64-bit integer may still denote a
finite number, whose fraction is dropped. -/
def integerOfText? (content : String) : Option Int64 :=
  match readInt64? content with
  | some number => some number
  | none =>
    match Binary64.ofText? content with
    | some number => if number.isFinite then some number.truncate else none
    | none => none

/-- The integer that a value of another type is taken for. -/
def toInteger? : Value → Option Int64
  | .integer number => some number
  | .float number => if number.isFinite then some number.truncate else none
  | .boolean truth => some (if truth then 1 else 0)
  | .text content => integerOfText? (trimmed content)
  | _ => none

/-- The truth value that a text denotes, in letters of any case. -/
def truthOfText? (content : String) : Option Bool :=
  let folded := lowercase content
  if folded = "true" ∨ folded = "1" then some true
  else if folded = "false" ∨ folded = "0" then some false
  else none

/-- The truth value that a value of another type is taken for. -/
def toTruth? : Value → Option Bool
  | .boolean truth => some truth
  | .integer number => some (number != 0)
  | .float number => some (!number.isZero)
  | .text content => truthOfText? (trimmed content)
  | _ => none

end Value

/-! ### The types -/

namespace ValueType

/-- The type that a name means. -/
def ofName (name : String) : ValueType :=
  let folded := lowercase name
  if folded ∈ ["any", "object", "value"] then .any
  else if folded ∈ ["number", "double", "float"] then .number
  else if folded ∈ ["int", "integer", "long"] then .integer
  else if folded ∈ ["string", "str"] then .text
  else if folded ∈ ["boolean", "bool"] then .boolean
  else .named name

/-- The name of a type, as messages give it. -/
def name : ValueType → String
  | .any => "any"
  | .number => "number"
  | .integer => "integer"
  | .text => "string"
  | .boolean => "boolean"
  | .named name => name

/-- Coerces a value into a type, or says that it cannot be. -/
def coerce (type : ValueType) (value : Value) : Except CastError Value :=
  let refuse : Except CastError Value := .error (.ofValue value type.name)
  match type with
  | .any => .ok value
  | .number => value.toNumber?.elim refuse fun amount => .ok (.float amount)
  | .integer => value.toInteger?.elim refuse fun amount => .ok (.integer amount)
  | .text => .ok (.text value.shown)
  | .boolean => value.toTruth?.elim refuse fun truth => .ok (.boolean truth)
  | .named name =>
    match value with
    | .domain member => if sameIgnoringCase member.typeName name then .ok value else refuse
    | _ => refuse

end ValueType

end Reckon
