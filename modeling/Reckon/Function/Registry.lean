/-
This file holds the functions an engine knows by name: those of the host and
those written in the expression language. A signature says how arguments and
result of a function are typed, and whether the result of a call may be kept.
-/

import Reckon.Dictionary
import Reckon.Function.Host

namespace Reckon

/-- How a function is typed. -/
structure Signature where
  /-- The types of the parameters; without them any number of arguments is taken as it is. -/
  parameters : Option (List ValueType)
  /-- The type of the result. -/
  returns : ValueType
  /-- The type hint of calls that carry none. -/
  defaultHint : Option String
  /-- Whether the result of an evaluation that calls the function may be kept. -/
  cacheable : Bool
  deriving DecidableEq

namespace Signature

/-- Any number of untyped arguments, an untyped result that may be kept. -/
def any : Signature := ⟨none, .any, none, true⟩

end Signature

/-- What carries out a call. -/
inductive Callable (Memory : Type) where
  | host (function : HostFunction Memory)
  | defined (parameters : List String) (body : Expression)

/-- A function under its name. -/
structure RegisteredFunction (Memory : Type) where
  name : String
  signature : Signature
  callable : Callable Memory

namespace FunctionDefinition

/-- The signature of a definition: its parameters are all typed, and it keeps its results. -/
def signature (definition : FunctionDefinition) : Signature where
  parameters := some (definition.parameters.map Prod.snd)
  returns := (definition.returnType.map ValueType.ofName).getD .any
  defaultHint := none
  cacheable := true

/-- The function that a definition defines. -/
def toFunction {Memory : Type} (definition : FunctionDefinition) : RegisteredFunction Memory where
  name := definition.name
  signature := definition.signature
  callable := .defined (definition.parameters.map Prod.fst) definition.body

end FunctionDefinition

/-- The functions known by name, in exactly these letters. -/
structure FunctionRegistry (Memory : Type) where
  table : Dictionary String (RegisteredFunction Memory)

namespace FunctionRegistry

variable {Memory : Type}

/-- The registry without functions. -/
def empty : FunctionRegistry Memory := ⟨.empty⟩

instance : Inhabited (FunctionRegistry Memory) := ⟨empty⟩

/-- The registry with a function under its name, in place of any it had there. -/
def register (registry : FunctionRegistry Memory) (function : RegisteredFunction Memory) :
    FunctionRegistry Memory :=
  ⟨registry.table.insert function.name function⟩

/-- The function of a name. -/
def get? (registry : FunctionRegistry Memory) (name : String) :
    Option (RegisteredFunction Memory) :=
  registry.table.get? name

/-- Whether a name has a function. -/
def contains (registry : FunctionRegistry Memory) (name : String) : Bool :=
  registry.table.contains name

/-- The registry without a name. -/
def unregister (registry : FunctionRegistry Memory) (name : String) : FunctionRegistry Memory :=
  ⟨registry.table.erase name⟩

/-- The names, in order. -/
def names (registry : FunctionRegistry Memory) : List String :=
  registry.table.keys.mergeSort

/-! ### What a change does to the look-up -/

variable {registry : FunctionRegistry Memory}

theorem get?_register (registry : FunctionRegistry Memory) (added : RegisteredFunction Memory)
    (name : String) :
    (registry.register added).get? name =
      if name = added.name then some added else registry.get? name :=
  Dictionary.get?_insert _ _ _ _

theorem get?_unregister (registry : FunctionRegistry Memory) (removed name : String) :
    (registry.unregister removed).get? name =
      if name = removed then none else registry.get? name :=
  Dictionary.get?_erase _ _ _

/-- What holds of all functions that are known and of one more holds of all when it is added. -/
theorem forall_register {holds : RegisteredFunction Memory → Prop}
    (known : ∀ name function, registry.get? name = some function → holds function)
    {added : RegisteredFunction Memory} (holdsToo : holds added) (name : String)
    (function : RegisteredFunction Memory)
    (found : (registry.register added).get? name = some function) : holds function := by
  rw [get?_register] at found
  split at found
  · cases found
    exact holdsToo
  · exact known name function found

theorem forall_unregister {holds : RegisteredFunction Memory → Prop}
    (known : ∀ name function, registry.get? name = some function → holds function)
    (removed name : String) (function : RegisteredFunction Memory)
    (found : (registry.unregister removed).get? name = some function) : holds function := by
  rw [get?_unregister] at found
  split at found
  · cases found
  · exact known name function found

end FunctionRegistry

end Reckon
