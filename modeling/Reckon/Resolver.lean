/-
This file holds the domain types that a host makes known. A resolver turns a
text into a value of its type, or refuses it. Casts look a type up among the
variable types first, parameters and results of functions among the function
types first; each falls back to the other. Names are found in letters of any
case.
-/

import Reckon.Dictionary
import Reckon.Value
import Reckon.Text.Blank
import Reckon.Text.Case

namespace Reckon

/-- What turns a text into a value of a domain type. -/
structure Resolver where
  resolve : String → Option Value

namespace Resolver

/-- The resolver of an enumeration: a text names the first member it matches in letters of any
case, blanks at its ends aside. -/
def enumeration (typeName : String) (members : List String) : Resolver where
  resolve raw :=
    (members.find? fun member => sameIgnoringCase member (trimmed raw)).map fun member =>
      .domain ⟨typeName, member⟩

end Resolver

/-- The two tables of domain types. -/
inductive TypeTable where
  | variable
  | function
  deriving DecidableEq

/-- The domain types known by name; the keys are the names in small letters. -/
structure TypeRegistry where
  variableTypes : Dictionary String Resolver
  functionTypes : Dictionary String Resolver

namespace TypeRegistry

/-- The registry without types. -/
def empty : TypeRegistry := ⟨.empty, .empty⟩

/-- The registry with a resolver under a name in one of its tables. -/
def register (registry : TypeRegistry) (table : TypeTable) (name : String) (resolver : Resolver) :
    TypeRegistry :=
  match table with
  | .variable =>
    { registry with variableTypes := registry.variableTypes.insert (lowercase name) resolver }
  | .function =>
    { registry with functionTypes := registry.functionTypes.insert (lowercase name) resolver }

/-- The resolver of a name, looked up in one table first and then in the other. -/
def get? (registry : TypeRegistry) (table : TypeTable) (name : String) : Option Resolver :=
  let key := lowercase name
  match table with
  | .variable => registry.variableTypes.get? key <|> registry.functionTypes.get? key
  | .function => registry.functionTypes.get? key <|> registry.variableTypes.get? key

/-- The registry without a name in either table. -/
def unregister (registry : TypeRegistry) (name : String) : TypeRegistry :=
  ⟨registry.variableTypes.erase (lowercase name), registry.functionTypes.erase (lowercase name)⟩

end TypeRegistry

end Reckon
