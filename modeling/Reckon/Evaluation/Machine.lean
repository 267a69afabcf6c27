/-
This file holds what an evaluation works with: the settings and registries that
stay as they are, the machine that changes, and computations on the machine. A
computation ends in an answer or an error, and leaves a machine in both cases.

Time goes by while nodes are visited. All that an evaluation learns of it is
whether its deadline has passed, so a deadline is given by the visit from which
on it has.
-/

import Reckon.Engine.State
import Reckon.Environment
import Reckon.Function.Registry
import Reckon.Operation
import Reckon.Resolver

namespace Reckon

/-- When the time of an evaluation is up: as soon as so many nodes have been visited, or not
before the evaluation ends. -/
inductive Deadline where
  | passesAt (visits : Nat)
  | distant
  deriving DecidableEq

namespace Deadline

/-- The deadline that has passed when the evaluation begins. -/
def reached : Deadline := .passesAt 0

/-- Whether the deadline has passed when so many nodes have been visited. -/
def hasPassed (visits : Nat) : Deadline → Bool
  | .passesAt first => first ≤ visits
  | .distant => false

end Deadline

/-- What stays as it is during an evaluation. -/
structure Setting (Memory : Type) where
  configuration : Configuration
  operations : OperationRegistry
  functions : FunctionRegistry Memory
  types : TypeRegistry
  deadline : Option Deadline
  /-- How the engine around the evaluation evaluates a text for a host function. -/
  reenter : String → Dictionary String Value → EngineState Memory →
    Except EngineError Value × EngineState Memory
  /-- How many evaluations of trees for host functions may be going on inside each other. -/
  nestings : Nat

/-- What changes during an evaluation. -/
structure Machine (Memory : Type) where
  environment : Environment
  visits : Nat
  callDepth : Nat
  cacheable : Bool
  engine : EngineState Memory

namespace Machine

variable {Memory : Type}

/-- The machine at the beginning of an evaluation. -/
def start (environment : Environment) (engine : EngineState Memory) : Machine Memory where
  environment
  visits := 0
  callDepth := 0
  cacheable := true
  engine

/-- The machine with an event in the journal. -/
def note (machine : Machine Memory) (event : Event) : Machine Memory :=
  { machine with engine := machine.engine.note event }

end Machine

/-- A computation on the machine of an evaluation. -/
def Evaluation (Memory Result : Type) :=
  Machine Memory → Except EvaluationError Result × Machine Memory

namespace Evaluation

variable {Memory Result Other : Type}

/-- The computation that gives an answer. -/
def give (result : Result) : Evaluation Memory Result :=
  fun machine => (.ok result, machine)

/-- The computation that ends in an error. -/
def fail (error : EvaluationError) : Evaluation Memory Result :=
  fun machine => (.error error, machine)

/-- One computation after another; an error of the first ends both. -/
def andThen (first : Evaluation Memory Result) (second : Result → Evaluation Memory Other) :
    Evaluation Memory Other :=
  fun machine =>
    match first machine with
    | (.ok result, machine) => second result machine
    | (.error error, machine) => (.error error, machine)

instance : Monad (Evaluation Memory) where
  pure := give
  bind := andThen

/-- An answer or error that is known already. -/
def ofExcept (result : Except EvaluationError Result) : Evaluation Memory Result :=
  fun machine => (result, machine)

/-- A question about the machine. -/
def inspect (question : Machine Memory → Result) : Evaluation Memory Result :=
  fun machine => (.ok (question machine), machine)

/-- A change of the machine. -/
def update (change : Machine Memory → Machine Memory) : Evaluation Memory Unit :=
  fun machine => (.ok (), change machine)

/-- A computation in a scope of its own, which is dropped at the end, also after an error. -/
def inScope (action : Evaluation Memory Result) : Evaluation Memory Result :=
  fun machine =>
    let (result, after) := action { machine with environment := machine.environment.push }
    (result, { after with environment := after.environment.pop })

/-- A computation with an environment of its own, after which the old one is back, also after
an error. -/
def inEnvironment (environment : Environment) (action : Evaluation Memory Result) :
    Evaluation Memory Result :=
  fun machine =>
    let (result, after) := action { machine with environment }
    (result, { after with environment := machine.environment })

/-- A computation during a call at a depth, after which the depth of the call around it is
back, also after an error. -/
def atCallDepth (depth : Nat) (action : Evaluation Memory Result) : Evaluation Memory Result :=
  fun machine =>
    let (result, after) := action { machine with callDepth := depth }
    (result, { after with callDepth := machine.callDepth })

/-- Whether the outcome of an evaluation is there, and the evaluation does not still go on. -/
def isOver : Except EvaluationError Result → Bool
  | .error .unfinished => false
  | _ => true

/-- A computation whose answer or error is handed on, with the environment it leaves, to what
comes next. Nothing comes next as long as the computation goes on. -/
def attempt (action : Evaluation Memory Result) :
    Evaluation Memory (Except EvaluationError Result × Environment) :=
  fun machine =>
    let (outcome, after) := action machine
    (if isOver outcome then .ok (outcome, after.environment) else .error .unfinished, after)

/-- The answers of computations on the members of a list, one after the other. -/
def each {Item : Type} (action : Item → Evaluation Memory Result) :
    List Item → Evaluation Memory (List Result)
  | [] => give []
  | item :: rest => do
    let result ← action item
    let results ← each action rest
    return result :: results

end Evaluation

/-- The setting of an evaluation together with the evaluator of the trees that host functions ask
about while it is going on. -/
structure NestedSetting (Memory : Type) extends Setting Memory where
  /-- Evaluates a tree at a depth. -/
  interpret : Nat → Expression → Evaluation Memory Value

namespace Setting

variable {Memory : Type}

/-- The setting with an evaluator of the trees that host functions ask about. -/
def answering (setting : Setting Memory)
    (interpret : Nat → Expression → Evaluation Memory Value) : NestedSetting Memory :=
  { setting with interpret }

end Setting

instance {Memory : Type} : CoeOut (NestedSetting Memory) (Setting Memory) :=
  ⟨NestedSetting.toSetting⟩

end Reckon
