/-
This file holds the variables of an evaluation: a stack of scopes, each a map
from names to bindings. The outermost scope holds the caller's variables and is
never dropped, so it is kept apart from the inner ones. A name means its
binding in the innermost scope that has one. A binding with a use limit counts
down the uses it has left.
-/

import Reckon.Dictionary
import Reckon.Evaluation.Error
import Reckon.Expression

namespace Reckon

/-- How often a binding may still be read; a limited one remembers its limit. -/
inductive Allowance where
  | unlimited
  | limited (allowed left : Nat)
  deriving DecidableEq

namespace Allowance

/-- The allowance of a new binding. -/
def ofLimit : UseLimit → Allowance
  | .unlimited => .unlimited
  | .limited count => .limited count count

/-- The number of uses left, if they are limited. -/
def left? : Allowance → Option Nat
  | .unlimited => none
  | .limited _ left => some left

/-- The allowance after a use. -/
def afterUse : Allowance → Allowance
  | .unlimited => .unlimited
  | .limited allowed left => .limited allowed (left - 1)

end Allowance

/-- What a name is bound to. -/
structure Binding where
  value : Value
  allowance : Allowance
  deriving DecidableEq

namespace Binding

/-- A new binding with a use limit. -/
def ofValue (value : Value) (uses : UseLimit) : Binding :=
  ⟨value, .ofLimit uses⟩

/-- What reading a binding under a name gives. -/
def answer (binding : Binding) (name : String) : Except EvaluationError Value :=
  match binding.allowance with
  | .limited allowed 0 => .error (.usesExceeded name allowed)
  | _ => .ok binding.value

/-- The binding after it was read. An exhausted one stays as it is. -/
def afterRead (binding : Binding) : Binding :=
  { binding with allowance := binding.allowance.afterUse }

end Binding

/-- The bindings of one scope. -/
abbrev Scope := Dictionary String Binding

/-- A stack of scopes: the inner ones, the innermost first, and the outermost. -/
structure Environment where
  inner : List Scope
  outermost : Scope

namespace Environment

/-- The environment with one scope that binds nothing. -/
def empty : Environment := ⟨[], .empty⟩

instance : Inhabited Environment := ⟨empty⟩

/-- The environment with one scope that binds the given variables without limits. -/
def ofVariables (given : Dictionary String Value) : Environment :=
  ⟨[], given.mapEntries fun value => .ofValue value .unlimited⟩

/-- The scopes, the innermost first. -/
def scopes (environment : Environment) : List Scope :=
  environment.inner ++ [environment.outermost]

/-- The number of scopes. -/
def depth (environment : Environment) : Nat :=
  environment.inner.length + 1

/-- Binds a name in the innermost scope. -/
def define (environment : Environment) (name : String) (value : Value) (uses : UseLimit) :
    Environment :=
  match environment.inner with
  | [] => { environment with outermost := environment.outermost.insert name (.ofValue value uses) }
  | scope :: rest => { environment with inner := scope.insert name (.ofValue value uses) :: rest }

/-- The binding that a name means. -/
def find? (environment : Environment) (name : String) : Option Binding :=
  environment.scopes.findSome? fun scope => scope.get? name

/-- The value that a name means, read without counting a use. -/
def peek? (environment : Environment) (name : String) : Option Value :=
  (environment.find? name).map Binding.value

/-- Whether a name is bound in some scope. -/
def contains (environment : Environment) (name : String) : Bool :=
  (environment.find? name).isSome

/-- The uses that a name has left; nothing for one without a limit or a binding. -/
def usesLeft? (environment : Environment) (name : String) : Option Nat :=
  (environment.find? name).bind fun binding => binding.allowance.left?

/-- Inner scopes with the first binding of a name changed by a read. Gives nothing if none of
them binds the name. -/
def readInner? (name : String) : List Scope → Option (List Scope)
  | [] => none
  | scope :: rest =>
    if scope.contains name then some (scope.modify name Binding.afterRead :: rest)
    else (readInner? name rest).map (scope :: ·)

/-- The environment after a name was read: the binding that the name means counts a use. -/
def afterRead (environment : Environment) (name : String) : Environment :=
  match readInner? name environment.inner with
  | some inner => { environment with inner }
  | none => { environment with outermost := environment.outermost.modify name Binding.afterRead }

/-- What reading a name gives, and the environment after it. -/
def read (environment : Environment) (name : String) :
    Except EvaluationError Value × Environment :=
  match environment.find? name with
  | some binding => (binding.answer name, environment.afterRead name)
  | none => (.error (.undefinedVariable name), environment)

/-- The environment with a new scope inside the others. -/
def push (environment : Environment) : Environment :=
  { environment with inner := .empty :: environment.inner }

/-- The environment without its innermost scope. The outermost scope stays. -/
def pop (environment : Environment) : Environment :=
  { environment with inner := environment.inner.drop 1 }

end Environment

end Reckon
