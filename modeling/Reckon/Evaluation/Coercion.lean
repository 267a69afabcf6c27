/-
This file coerces values into types by name, with the domain types that the
host has made known. A member of a domain type passes as it is; any other value
is shown, or a domain value named, and the resolver of the type decides.
-/

import Reckon.Evaluation.Error
import Reckon.Resolver

namespace Reckon

namespace TypeRegistry

/-- What a resolver is given of a value. -/
def rawText : Value → String
  | .domain member => member.name
  | other => other.shown

/-- Coerces a value into a domain type. -/
def coerceNamed (registry : TypeRegistry) (table : TypeTable) (typeName : String)
    (value : Value) : Except EvaluationError Value :=
  match registry.get? table typeName with
  | none => .error (.unknownType typeName)
  | some resolver =>
    match resolver.resolve (rawText value) with
    | some result => .ok result
    | none => .error (.cast (.ofValue value typeName))

/-- Whether a value is a member of a domain type already. -/
def isMember (typeName : String) : Value → Bool
  | .domain member => sameIgnoringCase member.typeName typeName
  | _ => false

/-- Coerces a value into a type. -/
def coerce (registry : TypeRegistry) (table : TypeTable) (type : ValueType) (value : Value) :
    Except EvaluationError Value :=
  match type with
  | .named typeName =>
    if isMember typeName value then .ok value else registry.coerceNamed table typeName value
  | builtIn => (builtIn.coerce value).mapError .cast

/-- Coerces a value into the type of a name, as a cast does. -/
def coerceTo (registry : TypeRegistry) (value : Value) (typeName : String) :
    Except EvaluationError Value :=
  registry.coerce .variable (.ofName typeName) value

end TypeRegistry

end Reckon
