/-
This file holds the part of an engine that an evaluation, through the host
functions it calls, can change: settings, context, default variables, caches,
host memory and journal. The functions, operations and types of an engine do
not change while it evaluates and are kept apart.

Kept results are right only as long as settings, context and registries stay
as they are. Whatever changes one of these drops them and begins a new
generation; an evaluation keeps its result only if the generation it began in
still lasts.
-/

import Reckon.CacheKey
import Reckon.Configuration
import Reckon.Dictionary
import Reckon.Engine.Journal

namespace Reckon

/-- A result that is kept, with the generation in which its evaluation began. -/
structure KeptResult where
  value : Value
  generation : Nat
  deriving DecidableEq

/-- The part of an engine that changes while it works. -/
structure EngineState (Memory : Type) where
  configuration : Configuration
  context : Dictionary String Value
  defaults : Dictionary String Value
  trees : Dictionary String Expression
  results : Dictionary CacheKey KeptResult
  generation : Nat
  hasLogger : Bool
  hasErrorHandler : Bool
  memory : Memory
  journal : List Event
  /-- How many evaluations have begun. -/
  begun : Nat

namespace EngineState

variable {Memory : Type}

/-- The state of a new engine. -/
def initial (configuration : Configuration) (memory : Memory) : EngineState Memory where
  configuration
  context := .empty
  defaults := .empty
  trees := .empty
  results := .empty
  generation := 0
  hasLogger := false
  hasErrorHandler := false
  memory
  journal := []
  begun := 0

/-- The state when one more evaluation begins. -/
def begin (state : EngineState Memory) : EngineState Memory :=
  { state with begun := state.begun + 1 }

/-- The state with an event in the journal. -/
def note (state : EngineState Memory) (event : Event) : EngineState Memory :=
  { state with journal := event :: state.journal }

/-- The state after the logger was called, which happens in debug mode only. -/
def log (state : EngineState Memory) (configuration : Configuration) (message : String)
    (arguments : List Value) : EngineState Memory :=
  if configuration.debugMode && state.hasLogger then state.note (.logged message arguments)
  else state

/-- The state after an error was reported. -/
def report (state : EngineState Memory) (error : EngineError) : EngineState Memory :=
  let state := state.note (.failed error)
  if state.hasErrorHandler then state.note (.handled error) else state

/-- The state without kept results, in a new generation. -/
def invalidate (state : EngineState Memory) : EngineState Memory :=
  { state with results := .empty, generation := state.generation + 1 }

/-- The state with changed settings. -/
def configure (state : EngineState Memory) (change : Configuration → Configuration) :
    EngineState Memory :=
  { state with configuration := change state.configuration }.invalidate

/-- The state with a value in the context. -/
def putContext (state : EngineState Memory) (name : String) (value : Value) :
    EngineState Memory :=
  { state with context := state.context.insert name value }.invalidate

/-- The state with strict mode on or off. -/
def setStrictMode (state : EngineState Memory) (on : Bool) : EngineState Memory :=
  state.configure fun configuration => { configuration with strictMode := on }

/-- The state with a result kept under a key, unless the generation is another one by now. -/
def keepResult (state : EngineState Memory) (generation : Nat) (key : CacheKey) (result : Value) :
    EngineState Memory :=
  if state.generation = generation then
    { state with results := state.results.insert key ⟨result, generation⟩ }
  else state

end EngineState

end Reckon
