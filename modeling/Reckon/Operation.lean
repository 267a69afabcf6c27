/-
This file holds the arithmetic operations an engine knows by name. The six
built-in ones work on decimals where operands and result fit and on binary
numbers otherwise; a host may add operations and replace the built-in ones.
Names are found in letters of any case.
-/

import Reckon.Decimal
import Reckon.Dictionary
import Reckon.Evaluation.Error

namespace Reckon

/-- A named operation on two binary numbers. -/
structure Operation where
  name : String
  apply : Binary64 → Binary64 → Except EvaluationError Binary64

namespace Operation

/-- Takes an operation on decimals where both numbers and the result are decimals, and its
counterpart on binary numbers elsewhere. -/
def onDecimals (exact : Decimal → Decimal → Option Decimal)
    (fallback : Binary64 → Binary64 → Binary64) (first second : Binary64) : Binary64 :=
  match Decimal.ofBinary64 first, Decimal.ofBinary64 second with
  | some decimal, some decimal' =>
    match exact decimal decimal' with
    | some result => result.toBinary64
    | none => fallback first second
  | _, _ => fallback first second

/-- Addition. -/
def addition : Operation :=
  ⟨"addition", fun first second => .ok (onDecimals Decimal.add Binary64.add first second)⟩

/-- Subtraction. -/
def subtraction : Operation :=
  ⟨"subtraction", fun first second =>
    .ok (onDecimals Decimal.subtract Binary64.subtract first second)⟩

/-- Multiplication. -/
def multiplication : Operation :=
  ⟨"multiplication", fun first second =>
    .ok (onDecimals Decimal.multiply Binary64.multiply first second)⟩

/-- Division; a zero of either sign divides nothing. -/
def division : Operation :=
  ⟨"division", fun first second =>
    if second.isZero then .error .divisionByZero
    else .ok (onDecimals Decimal.divide Binary64.divide first second)⟩

/-- The remainder of a division; a zero of either sign has none. -/
def modulo : Operation :=
  ⟨"modulo", fun first second =>
    if second.isZero then .error .moduloByZero
    else .ok (onDecimals Decimal.remainder Binary64.remainder first second)⟩

/-- The power, always in binary numbers. -/
def power : Operation :=
  ⟨"power", fun first second => .ok (first.power second)⟩

end Operation

/-- The operations known by name; the keys are the names in small letters. -/
structure OperationRegistry where
  table : Dictionary String Operation

namespace OperationRegistry

/-- The registry without operations. -/
def empty : OperationRegistry := ⟨.empty⟩

/-- The registry with an operation under its name, in place of any it had there. -/
def register (registry : OperationRegistry) (operation : Operation) : OperationRegistry :=
  ⟨registry.table.insert (lowercase operation.name) operation⟩

/-- The registry of the six built-in operations. -/
def builtIn : OperationRegistry :=
  [Operation.addition, .subtraction, .multiplication, .division, .modulo, .power].foldl
    register empty

/-- The operation of a name. -/
def get? (registry : OperationRegistry) (name : String) : Option Operation :=
  registry.table.get? (lowercase name)

/-- Whether a name has an operation. -/
def contains (registry : OperationRegistry) (name : String) : Bool :=
  (registry.get? name).isSome

/-- Carries out the operation of a name. -/
def perform (registry : OperationRegistry) (name : String) (first second : Binary64) :
    Except EvaluationError Binary64 :=
  match registry.get? name with
  | some operation => operation.apply first second
  | none => .error (.unknownOperation name)

/-- The names in small letters, in order. -/
def names (registry : OperationRegistry) : List String :=
  registry.table.keys.mergeSort

end OperationRegistry

end Reckon
