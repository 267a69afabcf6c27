/-
This file carries out what an engine is asked to evaluate. A text is looked up
in the cache of results, if it may be there, then in the cache of trees; what
neither holds is read and evaluated, and kept for the next time.

A host function may have the engine evaluate a text while an evaluation is
going on. Such evaluations nest, as often as the platform has room for; what
needs more room is not finished.
-/

import Reckon.Evaluation.Evaluate

namespace Reckon

/-- What an engine runs on. -/
structure Platform where
  /-- When the time of an evaluation is up, by the number of those begun up to it and the
  milliseconds it may take. -/
  clock : Nat → UInt64 → Deadline
  /-- How many evaluations may be going on inside another one, each inside the one before. -/
  nestings : Nat

/-- The deadline of an evaluation by its number, if the settings ask for one. -/
def Platform.deadline (platform : Platform) (begun : Nat) (configuration : Configuration) :
    Option Deadline :=
  configuration.timeout?.map (platform.clock begun)

/-- What an engine knows by name, which is operations, functions and types, and what it runs
on. -/
structure Registries (Memory : Type) where
  operations : OperationRegistry
  functions : FunctionRegistry Memory
  types : TypeRegistry
  platform : Platform

/-- What an engine is asked to evaluate: a text, the variables given with it, and a type to
cast the result to. -/
structure Task where
  source : String
  given : Option (Dictionary String Value)
  castType : Option String

variable {Memory : Type}

namespace EngineState

/-- The tree of a text without blanks around it, from the cache or newly read. A text that is
no expression is not kept. -/
def treeOf (state : EngineState Memory) (configuration : Configuration) (text : String) :
    Except EngineError Expression × EngineState Memory :=
  match state.trees.get? text with
  | some tree =>
    let state := state.note (.treeLookup true text)
    (.ok tree, state.log configuration "Cache hit for parse: \x7b\x7d" [.text text])
  | none =>
    let state := state.note (.treeLookup false text)
    let state := state.log configuration "Cache miss for parse: \x7b\x7d" [.text text]
    match Expression.parse text with
    | .error cause => (.error (.syntactic cause), state)
    | .ok tree => (.ok tree, { state with trees := state.trees.insert text tree })

/-- The result kept under a key. -/
def keptResult (state : EngineState Memory) (configuration : Configuration) (text : String)
    (key : CacheKey) : Option Value × EngineState Memory :=
  match state.results.get? key with
  | some kept =>
    let state := state.note (.resultLookup true text)
    (some kept.value, state.log configuration "Cache hit for eval: \x7b\x7d" [.text text])
  | none =>
    let state := state.note (.resultLookup false text)
    (none, state.log configuration "Cache miss for eval: \x7b\x7d" [.text text])

end EngineState

namespace Task

/-- The variables of a task: those given with it over the engine's defaults. -/
def mergedVariables (task : Task) (defaults : Dictionary String Value) :
    Dictionary String Value :=
  match task.given with
  | some given => defaults.merge given
  | none => defaults

/-- The key under which the result of a task may be kept. Only tasks that come with variables
and without a cast have one. -/
def key? (task : Task) (configuration : Configuration) (text : String)
    (merged : Dictionary String Value) : Option CacheKey :=
  if task.given.isSome && task.castType.isNone && configuration.cacheEvaluations then
    some (.ofVariables text merged.entries)
  else none

/-- The tree to evaluate for a task. -/
def wrap (task : Task) (tree : Expression) : Expression :=
  match task.castType with
  | some typeName => .cast typeName tree
  | none => tree

end Task

namespace Registries

/-- How a text is evaluated while another evaluation is going on. -/
abbrev Reenter (Memory : Type) :=
  String → Dictionary String Value → EngineState Memory →
    Except EngineError Value × EngineState Memory

/-- The setting of an evaluation by its number. -/
def setting (registries : Registries Memory) (begun : Nat) (reenter : Reenter Memory)
    (configuration : Configuration) : Setting Memory where
  configuration
  operations := registries.operations
  functions := registries.functions
  types := registries.types
  deadline := registries.platform.deadline begun configuration
  reenter
  nestings := registries.platform.nestings

/-- Evaluates the tree of a task, and keeps the result if it may be kept. -/
def evaluateTree (registries : Registries Memory) (reenter : Reenter Memory)
    (configuration : Configuration) (generation : Nat) (key : Option CacheKey)
    (merged : Dictionary String Value) (tree : Expression) (state : EngineState Memory) :
    Except EngineError Value × EngineState Memory :=
  let setting := registries.setting state.begun reenter configuration
  let start := Machine.start (.ofVariables merged) state
  let (outcome, machine) := Evaluation.evaluate setting 0 tree start
  match outcome with
  | .error cause => (.error (.evaluation cause), machine.engine)
  | .ok result =>
    let state :=
      match key with
      | some key =>
        if machine.cacheable then machine.engine.keepResult generation key result
        else machine.engine
      | none => machine.engine
    let state := state.note (.completed result machine.visits)
    (.ok result,
      state.log configuration "Expression evaluation completed. Result: \x7b\x7d" [result])

/-- Carries out a task whose text is not blank, with the settings and the generation it begins
in. -/
def runText (registries : Registries Memory) (reenter : Reenter Memory) (task : Task)
    (text : String) (state : EngineState Memory) :
    Except EngineError Value × EngineState Memory :=
  let configuration := state.configuration
  let generation := state.generation
  let state := state.begin
  let state := state.log configuration "Evaluating expression: \x7b\x7d" [.text text]
  let merged := task.mergedVariables state.defaults
  let key := task.key? configuration text merged
  let (kept, state) :=
    match key with
    | some key => state.keptResult configuration text key
    | none => (none, state)
  match kept with
  | some result => (.ok result, state)
  | none =>
    match state.treeOf configuration text with
    | (.error error, state) => (.error error, state)
    | (.ok tree, state) =>
      registries.evaluateTree reenter configuration generation key merged (task.wrap tree)
        state

/-- Carries out a task with so many evaluations allowed inside each other. -/
def runWithin (registries : Registries Memory) : Nat → Task → EngineState Memory →
    Except EngineError Value × EngineState Memory
  | 0, _, state => (.error (.evaluation .unfinished), state)
  | reentries + 1, task, state =>
    let reenter : Reenter Memory := fun source given state =>
      match runWithin registries reentries ⟨source, some given, none⟩ state with
      | (.ok result, state) => (.ok result, state)
      | (.error error, state) => (.error error, state.report error)
    let text := trimmed task.source
    if text = "" then (.error .emptyExpression, state)
    else registries.runText reenter task text state

/-- Carries out a task. -/
def run (registries : Registries Memory) (task : Task) (state : EngineState Memory) :
    Except EngineError Value × EngineState Memory :=
  registries.runWithin (registries.platform.nestings + 1) task state

end Registries

end Reckon
