/-
This file shows that evaluation ends, however the functions of an engine call
each other, and that no node is visited deeper than the settings allow.

The evaluator is written down once more, the way it recurs: a node hands the
depth below its own to its parts, and the body of a function takes its depth
from the call that the machine says is being carried out. Nothing about this
recursion says that it ends, so it is allowed a number of activations that nest
in each other. What happens when there are no more of them, or when a depth is
too large for a machine word, is left open.

It never happens if the activations are a few more than the deepest evaluation
can use. The recursion then comes to what the evaluator comes to, whose levels
are counted downwards from the limit. What a host function has evaluated is
evaluated by the same recursion, with as many activations of its own.
-/

import Reckon.Proofs.Evaluation.Calls
import Reckon.Proofs.Evaluation.Extended

namespace Reckon

variable {Memory : Type}

/-- The depths of the nodes that were visited, the latest first. -/
abbrev Depths := List Nat

/-! ### The recursion -/

namespace Evaluation

/-- The depth below a depth, if it fits a machine word. -/
def deeper? (depth : Nat) : Option Nat :=
  if depth + 1 < UInt64.size then some (depth + 1) else none

/-- Goes on at the depth below a depth, if there is one. -/
def below (stuck : Evaluation Memory Value) (depth : Nat)
    (action : Nat → Evaluation Memory Value) : Evaluation Memory Value :=
  match deeper? depth with
  | some next => action next
  | none => stuck

/-- Goes on at the depth below that of the call that is being carried out, if there is one. -/
def belowCall (stuck : Evaluation Memory Value) (action : Nat → Evaluation Memory Value) :
    Evaluation Memory Value :=
  fun machine => below stuck machine.callDepth action machine

/-- Writes down the depth of a node that is visited. -/
def recordDepth (depth : Nat) : Evaluation (Depths × Memory) Unit :=
  update fun machine =>
    { machine with
      engine := { machine.engine with
        memory := (depth :: machine.engine.memory.1, machine.engine.memory.2) } }

/-- Evaluates an expression at a depth, with so many activations that may nest, and writes the
depths of the visited nodes down. The trees that host functions ask about are evaluated in a way
that is given. -/
def descendWithin (setting : Setting Memory)
    (interpret : Nat → Expression → Evaluation (Depths × Memory) Value)
    (stuck : Evaluation (Depths × Memory) Value) :
    Nat → Nat → Expression → Evaluation (Depths × Memory) Value
  | 0, _, _ => stuck
  | activations + 1, depth, expression =>
    if setting.depthLimit < depth then fail (.depthExceeded setting.depthLimit)
    else do
      recordDepth depth
      visit setting.extended depth expression
      below stuck depth fun next =>
        step (setting.extended.answering interpret) next
          (descendWithin setting interpret stuck activations next)
          (fun body => belowCall stuck fun next =>
            descendWithin setting interpret stuck activations next body)
          expression

/-- Evaluates a tree for a host function in the same way, with so many evaluations allowed inside
each other. -/
def descendFor (setting : Setting Memory) (stuck : Evaluation (Depths × Memory) Value)
    (activations : Nat) : Nat → Nat → Expression → Evaluation (Depths × Memory) Value
  | 0, _, _ => fail .unfinished
  | nestings + 1, depth, tree =>
    descendWithin setting (descendFor setting stuck activations nestings) stuck activations depth
      tree

/-- Evaluates an expression at a depth, with so many activations that may nest in it and in each
evaluation for a host function, and writes the depths of all visited nodes down. -/
def descend (setting : Setting Memory) (stuck : Evaluation (Depths × Memory) Value)
    (activations : Nat) : Nat → Expression → Evaluation (Depths × Memory) Value :=
  descendWithin setting (descendFor setting stuck activations setting.nestings) stuck activations

/-! ### Where it goes -/

theorem depthLimit_le (setting : Setting Memory) : setting.depthLimit ≤ evaluationCeiling :=
  Nat.min_le_right _ _

/-- Nodes within the limit, and those just below, have a depth below them. -/
theorem below_of_le (setting : Setting Memory) (stuck : Evaluation (Depths × Memory) Value)
    {depth : Nat} (within : depth ≤ setting.depthLimit + 1)
    (action : Nat → Evaluation (Depths × Memory) Value) :
    below stuck depth action = action (depth + 1) := by
  have ceiling := depthLimit_le setting
  have fits : depth + 1 < UInt64.size := by
    unfold evaluationCeiling at ceiling
    unfold UInt64.size
    omega
  unfold below deeper?
  rw [if_pos fits]

end Evaluation

namespace Coupling

open Evaluation

/-- The coupling of the recursion with the evaluator: no depth that is written down exceeds the
limit. -/
abbrev descending (limit : Nat) : Coupling (Depths × Memory) Memory :=
  alike .identity (EngineState.Extends fun depths => ∀ depth ∈ depths, depth ≤ limit) False

variable {setting : Setting Memory}
  {interpret : Nat → Expression → Evaluation (Depths × Memory) Value}
  {interpret' : Nat → Expression → Evaluation Memory Value} {level : Nat}

/-- A function called at a depth within the limit does alike if its body does, two levels below
the node. -/
theorem callsAlike_descending
    (interprets : ∀ depth tree, (descending setting.depthLimit).Simulates 0
      (interpret depth tree) (interpret' depth tree))
    {depth levels : Nat} {stuck : Evaluation (Depths × Memory) Value}
    {bodyAt : Nat → Expression → Evaluation (Depths × Memory) Value}
    (within : depth ≤ setting.depthLimit)
    (bodies : ∀ level expression, (descending setting.depthLimit).Simulates level
      (bodyAt (depth + 2) expression)
      (bodyWithin (setting.answering interpret') levels expression)) :
    (descending setting.depthLimit).CallsAlike (setting.extended.answering interpret)
      (setting.answering interpret') (depth + 1) (fun body => belowCall stuck fun next =>
        bodyAt next body) (bodyWithin (setting.answering interpret') levels) := by
  refine callsAlike_extended (get?_extended setting) fun name function _ level hint values => ?_
  -- The call depth that the body finds is the depth of this call.
  have entered : ∀ expression machine, machine.callDepth = depth + 1 →
      belowCall stuck (fun next => bodyAt next expression) machine =
        bodyAt (depth + 2) expression machine := by
    intro expression machine atDepth
    unfold belowCall
    rw [atDepth, below_of_le setting stuck (by omega)]
  rw [callFunction_congr _ entered]
  exact callFunction_alike (EngineState.survivesNotes_extends _) rfl rfl
    (functionsAlike_extended (answersAlike_extended setting interprets) function) bodies _ _ _ _

/-- With more activations than there are levels left, the recursion comes to what the evaluator
comes to, if it does where a host function asks for it. -/
theorem simulates_descendWithin
    (interprets : ∀ depth tree, (descending setting.depthLimit).Simulates 0
      (interpret depth tree) (interpret' depth tree))
    (stuck : Evaluation (Depths × Memory) Value)
    (activations depth : Nat) (enough : setting.depthLimit + 1 - depth < activations)
    (level : Nat) (expression : Expression) :
    (descending setting.depthLimit).Simulates level
      (descendWithin setting interpret stuck activations depth expression)
      (evaluateAt (setting.answering interpret') depth expression) := by
  unfold evaluateAt
  show Coupling.Simulates _ level _
    (evaluateWithin (setting.answering interpret') (setting.depthLimit + 1 - depth) expression)
  induction activations generalizing depth level expression with
  | zero => exact absurd enough (Nat.not_lt_zero _)
  | succ activations inductionHypothesis =>
    unfold descendWithin
    split
    next tooDeep =>
      rw [show setting.depthLimit + 1 - depth = 0 by omega]
      exact simulates_fail _
    next notTooDeep =>
      have within : depth ≤ setting.depthLimit := Nat.le_of_not_lt notTooDeep
      obtain ⟨levels, left⟩ : ∃ levels, setting.depthLimit + 1 - depth = levels + 1 :=
        ⟨setting.depthLimit - depth, by omega⟩
      have parts : ∀ level expression, (descending setting.depthLimit).Simulates level
          (descendWithin setting interpret stuck activations (depth + 1) expression)
          (evaluateWithin (setting.answering interpret') levels expression) := by
        have below := inductionHypothesis (depth + 1) (by omega)
        rwa [show setting.depthLimit + 1 - (depth + 1) = levels by omega] at below
      have bodies : ∀ level expression, (descending setting.depthLimit).Simulates level
          (descendWithin setting interpret stuck activations (depth + 2) expression)
          (bodyWithin (setting.answering interpret') levels expression) := by
        have below := inductionHypothesis (depth + 2) (by omega)
        rw [show setting.depthLimit + 1 - (depth + 2) = levels - 1 by omega] at below
        intro level expression
        rw [bodyWithin_eq]
        exact below level expression
      have atDepth : (setting.answering interpret').depthLimit - levels = depth := by
        show setting.depthLimit - levels = depth
        omega
      rw [left, evaluateWithin_succ, atDepth, below_of_le setting stuck (by omega)]
      have fits : (descending setting.depthLimit).Fits (setting.extended.answering interpret)
          (setting.answering interpret') :=
        fits_alike (EngineState.survivesNotes_extends _) rfl rfl rfl rfl
      refine Simulates.after_update ((fits.records.visit rfl rfl depth rfl).bind fun _ => ?_)
        (fun machine machine' together => ?_) fun _ _ _ parted => parted.1.elim
      · exact simulates_step fits (callsAlike_descending interprets within bodies) level expression
          (fun level part _ => parts level part) (fun name _ => sees_alike name)
          fun name _ => readVariable_alike (by rfl) name
      · refine { together with engine := ⟨together.engine.forget, ?_⟩ }
        exact List.forall_mem_cons.2 ⟨within, together.engine.allowed⟩

theorem simulates_descendFor (stuck : Evaluation (Depths × Memory) Value) (activations : Nat)
    (enough : setting.depthLimit + 1 < activations) (nestings depth : Nat) (tree : Expression) :
    (descending setting.depthLimit).Simulates 0
      (descendFor setting stuck activations nestings depth tree)
      (interpretWithin setting nestings depth tree) := by
  induction nestings generalizing depth tree with
  | zero => exact simulates_fail _
  | succ nestings inductionHypothesis =>
    exact simulates_descendWithin inductionHypothesis stuck activations depth (by omega) 0 tree

/-- With more activations than there are levels, the recursion comes to what the evaluator comes
to. -/
theorem simulates_descend (stuck : Evaluation (Depths × Memory) Value)
    (activations depth : Nat) (enough : setting.depthLimit + 1 < activations)
    (level : Nat) (expression : Expression) :
    (descending setting.depthLimit).Simulates level
      (descend setting stuck activations depth expression) (evaluate setting depth expression) :=
  simulates_descendWithin (simulates_descendFor stuck activations enough setting.nestings) stuck
    activations depth (by omega) level expression

end Coupling

/-- The recursion of an evaluation ends: with two more activations than there are levels below the
ceiling, or any number more, it neither lacks one nor leaves the machine word, comes to what the
evaluator comes to, and has visited no node below the limit. -/
theorem Evaluation.descend_eq_evaluate (setting : Setting Memory)
    (stuck : Evaluation (Depths × Memory) Value) (more depth : Nat) (expression : Expression)
    (machine : Machine Memory) :
    ∃ depths : Depths,
      (∀ visited ∈ depths,
        visited ≤ min setting.configuration.maxRecursionDepth.toNat evaluationCeiling) ∧
      descend setting stuck (evaluationCeiling + 2 + more) depth expression (machine.extend []) =
        ((evaluate setting depth expression machine).1,
          (evaluate setting depth expression machine).2.extend depths) := by
  have enough : setting.depthLimit + 1 < evaluationCeiling + 2 + more := by
    have ceiling := depthLimit_le setting
    omega
  rcases ((Coupling.simulates_descend stuck _ depth enough 0 expression).1 (machine.extend [])
      machine ⟨rfl, rfl, rfl, rfl, rfl, fun _ member => (List.not_mem_nil member).elim⟩).equal
        fun _ _ => id
    with ⟨sameAnswer, alike⟩ | parted
  · obtain ⟨depths, within, sameMachine⟩ := Coupling.eq_extend_of_alike alike
    exact ⟨depths, within, Prod.ext sameAnswer sameMachine⟩
  · exact parted.1.elim

end Reckon
