/-
This file describes the functions a host adds to an engine. What such a
function does is written as a program that asks questions of the evaluation it
runs in and of the engine around it, and in the end gives a value or an error.
The questions are all it can ask: a function that does not look at the number
of visited nodes, say, is a program in which that question does not occur.

Two of the requests have something evaluated before the function goes on. The
evaluator it is called by can be asked for a tree, in an environment of the
function's own and at a depth it chooses; the engine can be asked for a text.

A function may keep private state from call to call in the engine's host memory.
-/

import Reckon.Configuration
import Reckon.Engine.Error
import Reckon.Environment

namespace Reckon

/-- What a host function can ask for while it runs. -/
inductive Request (Memory : Type) where
  /-- The value the engine keeps under a name in its context. -/
  | context (name : String)
  /-- The depth of the call that is being carried out. -/
  | callDepth
  /-- The number of nodes visited so far. -/
  | visits
  /-- The settings the evaluation began with. -/
  | configuration
  /-- Whether the result may be kept. -/
  | isCacheable
  /-- Whether the evaluation has a deadline. -/
  | hasDeadline
  /-- Forbids keeping the result. -/
  | forbidCaching
  /-- A value coerced into the type of a name. -/
  | coerce (value : Value) (typeName : String)
  /-- The host memory. -/
  | recall
  /-- Changes the host memory. -/
  | store (memory : Memory)
  /-- Puts a value into the engine's context. -/
  | putContext (name : String) (value : Value)
  /-- Turns the engine's strict mode on or off, for evaluations that begin later. -/
  | setStrictMode (on : Bool)
  /-- Has a tree evaluated in an environment, at a depth, as a part of this evaluation. -/
  | interpret (tree : Expression) (environment : Environment) (depth : Nat)
  /-- Has the engine evaluate a text against variables. -/
  | evaluate (source : String) (given : Dictionary String Value)

namespace Request

/-- What a request is answered with. -/
def Answer {Memory : Type} : Request Memory → Type
  | .context _ => Option Value
  | .callDepth => Nat
  | .visits => Nat
  | .configuration => Configuration
  | .isCacheable => Bool
  | .hasDeadline => Bool
  | .forbidCaching => Unit
  | .coerce _ _ => Except EvaluationError Value
  | .recall => Memory
  | .store _ => Unit
  | .putContext _ _ => Unit
  | .setStrictMode _ => Unit
  | .interpret _ _ _ => Except EvaluationError Value × Environment
  | .evaluate _ _ => Except EngineError Value

end Request

/-- What a host function does with its arguments: it is done, or it asks for something and goes
on with the answer. -/
inductive HostProgram (Memory : Type) where
  | done (result : Except EvaluationError Value)
  | ask (request : Request Memory) (next : request.Answer → HostProgram Memory)

namespace HostProgram

variable {Memory : Type}

/-- The program that gives a value. -/
def give (value : Value) : HostProgram Memory :=
  .done (.ok value)

/-- Whether every request a program can come to is of a kind. -/
def AsksOnly (allowed : Request Memory → Prop) : HostProgram Memory → Prop
  | .done _ => True
  | .ask request next => allowed request ∧ ∀ answer, AsksOnly allowed (next answer)

end HostProgram

/-- A host function: its program for given arguments and the type hint of the call. -/
abbrev HostFunction (Memory : Type) := List Value → Option String → HostProgram Memory

end Reckon
