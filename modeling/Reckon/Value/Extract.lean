/-
This file takes values apart: an evaluation ends in a value, and a caller who
wants a number, a text or a truth value asks for that type. The value is first
coerced into the value type that belongs to it, then read.
-/

import Reckon.Value.Type

namespace Reckon

/-- A type that a value can be read as. -/
class Extractable (Result : Type) where
  /-- The value type a value is coerced into before it is read. -/
  target : ValueType
  /-- What messages call the type. -/
  label : String
  /-- Reads a value that has the representation already. -/
  read? : Value → Option Result
  /-- The value that a result stands for. -/
  toValue : Result → Value

namespace Extractable

variable {Result : Type} [Extractable Result]

/-- Reads a value that has the right representation, or says that it has not. -/
def fromValue (value : Value) : Except CastError Result :=
  (read? value).elim (.error (.ofValue value (label Result))) .ok

/-- Coerces a value, then reads it. -/
def coerceFrom (value : Value) : Except CastError Result := do
  fromValue (← (target Result).coerce value)

end Extractable

instance : Extractable Value where
  target := .any
  label := "any"
  read? := some
  toValue := id

instance : Extractable Binary64 where
  target := .number
  label := "number"
  read?
    | .float number => some number
    | _ => none
  toValue := .float

instance : Extractable Int64 where
  target := .integer
  label := "integer"
  read?
    | .integer number => some number
    | _ => none
  toValue := .integer

instance : Extractable Bool where
  target := .boolean
  label := "boolean"
  read?
    | .boolean truth => some truth
    | _ => none
  toValue := .boolean

instance : Extractable String where
  target := .text
  label := "string"
  read?
    | .text content => some content
    | _ => none
  toValue := .text

instance : Extractable DomainValue where
  target := .any
  label := "domain value"
  read?
    | .domain member => some member
    | _ => none
  toValue := .domain

end Reckon
