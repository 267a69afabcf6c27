/-
This file is the engine as its users see it: it evaluates, reads and formats
expressions, and everything it knows and does can be set: default variables,
functions, operations, types, settings, the context that functions read, and
the hooks that watch it.

An engine is a value. A call gives its answer together with the engine after
it. Every error that a call answers is reported first, once.
-/

import Reckon.Engine.Run
import Reckon.Expression.Printer
import Reckon.Value.Extract

namespace Reckon

/-- An engine: what it knows by name, what it runs on, and the state it is in. -/
structure Engine (Memory : Type) where
  registries : Registries Memory
  state : EngineState Memory

namespace Engine

variable {Memory Result : Type}

/-- A new engine on a platform, with settings and host memory; it knows the built-in operations. -/
def new (platform : Platform) (configuration : Configuration) (memory : Memory) :
    Engine Memory where
  registries := ⟨.builtIn, .empty, .empty, platform⟩
  state := .initial configuration memory

/-- The engine with another state. -/
def withState (engine : Engine Memory) (state : EngineState Memory) : Engine Memory :=
  { engine with state }

/-- An answer and the engine after it, an error reported. -/
def reporting (engine : Engine Memory) :
    Except EngineError Result × EngineState Memory → Except EngineError Result × Engine Memory
  | (.ok result, state) => (.ok result, engine.withState state)
  | (.error error, state) => (.error error, engine.withState (state.report error))

/-! ### Evaluation -/

/-- Evaluates a text against variables, which win over the defaults. The result is kept. -/
def evaluate (engine : Engine Memory) (source : String) (given : Dictionary String Value) :
    Except EngineError Value × Engine Memory :=
  engine.reporting (engine.registries.run ⟨source, some given, none⟩ engine.state)

/-- Reads the value of an evaluation as another type. -/
def extracted [Extractable Result] :
    Except EngineError Value × EngineState Memory → Except EngineError Result × EngineState Memory
  | (.error error, state) => (.error error, state)
  | (.ok value, state) =>
    ((Extractable.coerceFrom value).mapError fun cause => .evaluation (.cast cause), state)

/-- Evaluates a text against the default variables and reads the result as another type. The
result is not kept. -/
def evaluateAs (engine : Engine Memory) (Result : Type) [Extractable Result] (source : String) :
    Except EngineError Result × Engine Memory :=
  engine.reporting (extracted (engine.registries.run ⟨source, none, none⟩ engine.state))

/-- Evaluates a text against variables and reads the result as another type. -/
def evaluateAsWith (engine : Engine Memory) (Result : Type) [Extractable Result]
    (source : String) (given : Dictionary String Value) :
    Except EngineError Result × Engine Memory :=
  engine.reporting (extracted (engine.registries.run ⟨source, some given, none⟩ engine.state))

/-- Evaluates a text against the default variables and casts the result to the type of a
name. -/
def evaluateNamed (engine : Engine Memory) (source typeName : String) :
    Except EngineError Value × Engine Memory :=
  engine.reporting (engine.registries.run ⟨source, none, some typeName⟩ engine.state)

/-- The tree of a text. -/
def compile (engine : Engine Memory) (source : String) :
    Except EngineError Expression × Engine Memory :=
  let text := trimmed source
  engine.reporting
    (if text = "" then (.error .emptyExpression, engine.state)
    else engine.state.treeOf engine.state.configuration text)

/-- Whether a text is an expression. -/
def validate (engine : Engine Memory) (source : String) :
    Except EngineError Unit × Engine Memory :=
  let (result, engine) := engine.compile source
  (result.map fun _ => (), engine)

/-- A text written anew in one of the layouts. -/
def format (engine : Engine Memory) (source : String) (layout : Layout) :
    Except EngineError String × Engine Memory :=
  let (result, engine) := engine.compile source
  (result.map fun tree => tree.render layout, engine)

/-! ### Default variables -/

/-- The engine with other default variables. -/
def withDefaults (engine : Engine Memory) (defaults : Dictionary String Value) : Engine Memory :=
  engine.withState { engine.state with defaults }

/-- Sets a default variable. -/
def setVariable (engine : Engine Memory) (name : String) (value : Value) : Engine Memory :=
  engine.withDefaults (engine.state.defaults.insert name value)

/-- The value of a default variable. -/
def defaultValue? (engine : Engine Memory) (name : String) : Option Value :=
  engine.state.defaults.get? name

/-- Removes a default variable, and gives the value it had. -/
def removeVariable (engine : Engine Memory) (name : String) : Option Value × Engine Memory :=
  (engine.defaultValue? name, engine.withDefaults (engine.state.defaults.erase name))

/-- Removes all default variables. -/
def clearVariables (engine : Engine Memory) : Engine Memory :=
  engine.withDefaults .empty

/-- The default variables, in the order of their names. -/
def defaultValues (engine : Engine Memory) : List (String × Value) :=
  engine.state.defaults.sorted

/-! ### Functions, operations and types -/

/-- The engine with other functions, and without kept results. -/
def withFunctions (engine : Engine Memory) (functions : FunctionRegistry Memory) :
    Engine Memory where
  registries := { engine.registries with functions }
  state := engine.state.invalidate

/-- Adds a function of the host, in place of any function of its name. -/
def registerFunction (engine : Engine Memory) (name : String) (signature : Signature)
    (function : HostFunction Memory) : Engine Memory :=
  let engine := engine.withState (engine.state.note (.registered name))
  engine.withFunctions (engine.registries.functions.register ⟨name, signature, .host function⟩)

/-- Adds a function from its definition. -/
def defineFunction (engine : Engine Memory) (definition : String) :
    Except EngineError Unit × Engine Memory :=
  match FunctionDefinition.parse definition with
  | .error cause => engine.reporting (.error (.definition cause), engine.state)
  | .ok definition =>
    let engine := engine.withState (engine.state.note (.defined definition.name))
    (.ok (), engine.withFunctions (engine.registries.functions.register definition.toFunction))

/-- Whether a function is known. -/
def hasFunction (engine : Engine Memory) (name : String) : Bool :=
  engine.registries.functions.contains name

/-- Removes a function, and says whether it was known. -/
def unregisterFunction (engine : Engine Memory) (name : String) : Bool × Engine Memory :=
  if engine.hasFunction name then
    (true, engine.withFunctions (engine.registries.functions.unregister name))
  else (false, engine)

/-- The names of the functions, in order. -/
def functionNames (engine : Engine Memory) : List String :=
  engine.registries.functions.names

/-- Adds an operation, in place of any operation of its name. -/
def registerOperation (engine : Engine Memory) (operation : Operation) : Engine Memory where
  registries :=
    { engine.registries with operations := engine.registries.operations.register operation }
  state := engine.state.invalidate

/-- Adds an operation to the table of operations itself, which can be had from the engine. The
engine does not come to know of it and drops no kept result. -/
def registerOperationUnnoticed (engine : Engine Memory) (operation : Operation) :
    Engine Memory where
  registries :=
    { engine.registries with operations := engine.registries.operations.register operation }
  state := engine.state

/-- Adds a domain type to one of the tables of types. -/
def registerType (engine : Engine Memory) (table : TypeTable) (name : String)
    (resolver : Resolver) : Engine Memory where
  registries :=
    { engine.registries with types := engine.registries.types.register table name resolver }
  state := engine.state.invalidate

/-! ### Settings -/

/-- The settings. -/
def configuration (engine : Engine Memory) : Configuration :=
  engine.state.configuration

/-- Changes the settings. -/
def configure (engine : Engine Memory) (change : Configuration → Configuration) : Engine Memory :=
  engine.withState (engine.state.configure change)

/-- Replaces the settings. -/
def setConfiguration (engine : Engine Memory) (configuration : Configuration) : Engine Memory :=
  engine.configure fun _ => configuration

/-- Turns strict mode on or off. -/
def setStrictMode (engine : Engine Memory) (on : Bool) : Engine Memory :=
  engine.withState (engine.state.setStrictMode on)

/-- Sets how deep an evaluation may nest. -/
def setMaxRecursionDepth (engine : Engine Memory) (depth : UInt64) : Engine Memory :=
  engine.configure ({ · with maxRecursionDepth := depth })

/-- Sets how many milliseconds an evaluation may take. -/
def setEvaluationTimeout (engine : Engine Memory) (milliseconds : UInt64) : Engine Memory :=
  engine.configure ({ · with evaluationTimeout := milliseconds })

/-- Turns debug mode on or off. -/
def setDebugMode (engine : Engine Memory) (on : Bool) : Engine Memory :=
  engine.configure ({ · with debugMode := on })

/-- Sets what undefined names stand for outside strict mode. -/
def setUndefinedValue (engine : Engine Memory) (value : Value) : Engine Memory :=
  engine.configure ({ · with undefinedValue := value })

/-- Turns the keeping of results on or off. -/
def setCacheEvaluations (engine : Engine Memory) (on : Bool) : Engine Memory :=
  engine.configure ({ · with cacheEvaluations := on })

/-- Sets the only variables that may be read. -/
def setVariableWhitelist (engine : Engine Memory) (names : NameSet) : Engine Memory :=
  engine.configure ({ · with variableWhitelist := names })

/-- Sets variables that may not be read. -/
def setVariableBlacklist (engine : Engine Memory) (names : NameSet) : Engine Memory :=
  engine.configure ({ · with variableBlacklist := names })

/-- Sets the only functions that may be called. -/
def setFunctionWhitelist (engine : Engine Memory) (names : NameSet) : Engine Memory :=
  engine.configure ({ · with functionWhitelist := names })

/-- Sets functions that may not be called. -/
def setFunctionBlacklist (engine : Engine Memory) (names : NameSet) : Engine Memory :=
  engine.configure ({ · with functionBlacklist := names })

/-! ### Hooks -/

/-- Has a logger called, or not. -/
def setLogger (engine : Engine Memory) (present : Bool) : Engine Memory :=
  engine.withState { engine.state with hasLogger := present }

/-- Has an error handler called, or not. -/
def setErrorHandler (engine : Engine Memory) (present : Bool) : Engine Memory :=
  engine.withState { engine.state with hasErrorHandler := present }

/-- The events since the journal was last taken, the earliest first, and the engine with an
empty journal. -/
def takeJournal (engine : Engine Memory) : List Event × Engine Memory :=
  (engine.state.journal.reverse, engine.withState { engine.state with journal := [] })

/-! ### Context -/

/-- Puts a value into the context. -/
def putContext (engine : Engine Memory) (name : String) (value : Value) : Engine Memory :=
  engine.withState (engine.state.putContext name value)

/-- The value under a name in the context. -/
def context? (engine : Engine Memory) (name : String) : Option Value :=
  engine.state.context.get? name

/-- Removes a name from the context, and gives the value it had. -/
def removeContext (engine : Engine Memory) (name : String) : Option Value × Engine Memory :=
  match engine.context? name with
  | some value =>
    let context := engine.state.context.erase name
    (some value, engine.withState { engine.state with context }.invalidate)
  | none => (none, engine)

/-- Removes everything from the context. -/
def clearContext (engine : Engine Memory) : Engine Memory :=
  engine.withState { engine.state with context := .empty }.invalidate

/-! ### Caches -/

/-- Drops all kept trees and results. -/
def clearCaches (engine : Engine Memory) : Engine Memory :=
  engine.withState { engine.state with trees := .empty }.invalidate

/-- The number of kept trees. -/
def treeCount (engine : Engine Memory) : Nat :=
  engine.state.trees.size

/-- The number of kept results. -/
def resultCount (engine : Engine Memory) : Nat :=
  engine.state.results.size

/-- Whether the tree of a text is kept. -/
def isTreeKept (engine : Engine Memory) (source : String) : Bool :=
  engine.state.trees.contains (trimmed source)

end Engine

end Reckon
