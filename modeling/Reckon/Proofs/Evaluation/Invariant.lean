/-
This file follows one evaluation by itself, through a statement that holds of
its machine all along. An evaluation is coupled with itself for that, and the
rules of coupled evaluations become rules for what one of them maintains.

The statement may speak of the scopes that the part under evaluation has
opened. The body of a function runs in an environment of its own, of which the
statement need not hold, so what a call does is looked at as a whole.
-/

import Reckon.Proofs.Evaluation.Coupling

namespace Reckon

variable {Memory Result Other : Type}

namespace Evaluation

/-- A computation that leaves a statement about the machine true. -/
def Maintains (holds : Machine Memory → Prop) (action : Evaluation Memory Result) : Prop :=
  ∀ machine, holds machine → holds (action machine).2

theorem Maintains.bind {holds : Machine Memory → Prop} {action : Evaluation Memory Result}
    {next : Result → Evaluation Memory Other} (maintains : action.Maintains holds)
    (nextMaintains : ∀ result, (next result).Maintains holds) :
    (action >>= next).Maintains holds := by
  intro machine before
  have between := maintains machine before
  show holds (andThen action next machine).2
  unfold andThen
  rcases outcome : action machine with ⟨error | result, after⟩
  · rw [outcome] at between
    exact between
  · rw [outcome] at between
    exact nextMaintains result after between

end Evaluation

namespace Coupling

/-- The coupling of an evaluation with itself, whose machine satisfies a statement. The number in
the statement counts the scopes that the part under evaluation has opened. -/
def itself (holds : Nat → Machine Memory → Prop) : Coupling Memory Memory where
  together level machine machine' := machine = machine' ∧ holds level machine
  parted _ _ _ := False
  parted_restore _ _ _ _ parted := parted
  parted_onward parted _ _ := parted

variable {holds : Nat → Machine Memory → Prop} {level : Nat}

/-- A computation goes together with itself if and only if it leaves the statement true. -/
theorem simulates_itself_iff {action : Evaluation Memory Result} :
    (itself holds).Simulates level action action ↔ action.Maintains (holds level) := by
  constructor
  · intro simulates machine before
    rcases simulates.1 machine machine ⟨rfl, before⟩ with ⟨_, _, after⟩ | parted
    · exact after
    · exact parted.elim
  · intro maintains
    refine ⟨fun machine machine' together => ?_, fun _ _ _ parted => parted.elim⟩
    obtain ⟨rfl, before⟩ := together
    exact Or.inl ⟨.same _, rfl, maintains machine before⟩

end Coupling

/-- Whether an event is one that evaluations note themselves. -/
def Event.IsOfEvaluation : Event → Prop
  | .visited _ _ | .called _ _ _ => True
  | _ => False

namespace Evaluation

open Coupling

/-- What is asked of a statement about the machine that is to stay true throughout the evaluations
in a setting. -/
structure Lasts (setting : NestedSetting Memory) (holds : Nat → Machine Memory → Prop) : Prop where
  count : ∀ {level machine}, holds level machine →
    holds level { machine with visits := machine.visits + 1 }
  note : ∀ {level machine event}, event.IsOfEvaluation → holds level machine →
    holds level (machine.note event)
  bind : ∀ {level machine} name value uses, holds level machine →
    holds (level + 1)
      { machine with environment := machine.environment.push.define name value uses }
  pop : ∀ {level machine}, holds (level + 1) machine →
    holds level { machine with environment := machine.environment.pop }
  read : ∀ level name, (readVariable setting name).Maintains (holds level)
  call : ∀ depth body, (∀ level expression, Maintains (holds level) (body expression)) →
    ∀ name function, setting.functions.get? name = some function →
      ∀ level hint values,
        (callFunction setting depth body name function hint values).Maintains (holds level)

variable {setting : NestedSetting Memory} {holds : Nat → Machine Memory → Prop}

theorem Lasts.suits (lasts : Lasts setting holds) : (itself holds).Suits setting setting where
  operations := rfl
  types := rfl
  bind _ name value uses _ _ together :=
    ⟨by rw [together.1], lasts.bind name value uses together.2⟩
  pop _ _ _ together := ⟨by rw [together.1], lasts.pop together.2⟩

theorem Lasts.visit (lasts : Lasts setting holds) (level depth : Nat) (expression : Expression) :
    (visit setting depth expression).Maintains (holds level) := by
  intro machine before
  unfold Evaluation.visit
  dsimp only
  split
  · exact lasts.count before
  · split
    · exact lasts.note trivial (lasts.count before)
    · exact lasts.count before

/-- A node leaves the statement true if its parts and the bodies of functions do. -/
theorem Lasts.step (lasts : Lasts setting holds) {depth : Nat}
    {part body : Expression → Evaluation Memory Value}
    (parts : ∀ level expression, (part expression).Maintains (holds level))
    (bodies : ∀ level expression, (body expression).Maintains (holds level))
    (level : Nat) (expression : Expression) :
    (step setting depth part body expression).Maintains (holds level) := by
  have calls : (itself holds).CallsAlike setting setting depth body body :=
    ⟨fun _ unknown => unknown, fun name function found =>
      ⟨function, found, fun level hint values => simulates_itself_iff.2
        (lasts.call depth body bodies name function found level hint values)⟩⟩
  rw [step_eq]
  exact simulates_itself_iff.1 (simulates_stepWith lasts.suits level expression
    (fun level part _ => simulates_itself_iff.2 (parts level part))
    (fun name _ _ _ _ together => by rw [together.1])
    (fun name _ => simulates_itself_iff.2 (lasts.read level name))
    (simulates_dispatch rfl rfl rfl calls))

theorem Lasts.evaluateWithin (lasts : Lasts setting holds) (levels level : Nat)
    (expression : Expression) :
    (evaluateWithin setting levels expression).Maintains (holds level) := by
  induction levels using Nat.strongRecOn generalizing level expression with
  | ind levels inductionHypothesis =>
    cases levels with
    | zero => exact fun _ before => before
    | succ levels =>
      have bodies : ∀ level expression,
          (bodyWithin setting levels expression).Maintains (holds level) := by
        cases levels with
        | zero => exact fun _ _ _ before => before
        | succ deeper => exact inductionHypothesis deeper (by omega)
      have parts := inductionHypothesis levels levels.lt_succ_self
      rw [evaluateWithin_succ]
      exact (lasts.visit level _ expression).bind fun _ =>
        lasts.step parts bodies level expression

/-- An evaluation leaves the statement true, whether it gives a value or ends in an error. -/
theorem Lasts.evaluateAt (lasts : Lasts setting holds) (depth : Nat) (expression : Expression) :
    (evaluateAt setting depth expression).Maintains (holds 0) :=
  lasts.evaluateWithin _ 0 expression

/-! ### Statements about the engine around an evaluation -/

/-- A statement about the engine stays true if events may be noted and the host functions leave
it true. -/
theorem lasts_engine {holds : EngineState Memory → Prop}
    (note : ∀ state event, Event.IsOfEvaluation event → holds state → holds (state.note event))
    (host : ∀ name function program, setting.functions.get? name = some function →
      function.callable = .host program → ∀ arguments hint,
        (runProgram setting (program arguments hint)).Maintains fun machine =>
          holds machine.engine) :
    Lasts setting fun _ machine => holds machine.engine where
  count before := before
  note noted before := note _ _ noted before
  bind _ _ _ before := before
  pop before := before
  read _ name machine before := by
    show holds (readVariable setting name machine).2.engine
    rw [engine_readVariable]
    exact before
  call depth body bodies name function found level hint values := by
    have invoked : ∀ arguments hint, (invoke setting body function.callable arguments
        hint).Maintains fun machine => holds machine.engine := by
      intro arguments hint
      cases callable : function.callable with
      | host program => exact host name function program found callable arguments hint
      | defined parameters inner =>
        refine Maintains.bind (fun machine before => ?_) fun result => ?_
        · exact bodies level inner
            { machine with environment := parameterEnvironment parameters arguments } before
        · cases hint with
          | none => exact fun _ before => before
          | some typeName => exact fun _ before => before
    refine Maintains.bind (fun _ before => before) fun arguments => ?_
    refine Maintains.bind (fun _ before => before) fun _ => ?_
    refine Maintains.bind (fun machine before => ?_) fun _ => ?_
    · unfold update
      dsimp only
      split
      · exact note _ _ trivial before
      · exact before
    · exact Maintains.bind
        (fun machine before => invoked arguments _ { machine with callDepth := depth } before)
        fun _ _ before => before

/-- An evaluation for a host function leaves true what it leaves true elsewhere. -/
theorem maintains_interpret (holds : EngineState Memory → Prop)
    (interprets : ∀ depth tree, (setting.interpret depth tree).Maintains fun machine =>
      holds machine.engine) (tree : Expression) (environment : Environment) (depth : Nat) :
    (respond setting (.interpret tree environment depth)).Maintains fun machine =>
      holds machine.engine :=
  fun machine before => interprets depth tree { machine with environment } before

section Nested

variable (setting : Setting Memory) (holds : EngineState Memory → Prop)
  (note : ∀ state event, Event.IsOfEvaluation event → holds state → holds (state.note event))
  (host : ∀ interpret,
    (∀ depth tree, Maintains (fun machine => holds machine.engine) (interpret depth tree)) →
      ∀ name function program, setting.functions.get? name = some function →
        function.callable = .host program → ∀ arguments hint,
          (runProgram (setting.answering interpret) (program arguments hint)).Maintains
            fun machine => holds machine.engine)

include note host

theorem maintains_interpretWithin (nestings depth : Nat) (tree : Expression) :
    (interpretWithin setting nestings depth tree).Maintains fun machine =>
      holds machine.engine := by
  induction nestings generalizing depth tree with
  | zero => exact fun _ before => before
  | succ nestings inductionHypothesis =>
    exact (lasts_engine note (host _ inductionHypothesis)).evaluateAt depth tree

/-- A statement about the engine stays true throughout an evaluation and those nested in it, if
events may be noted and the host functions leave it true whenever nested evaluations do. -/
theorem maintains_evaluate (depth : Nat) (expression : Expression) :
    (evaluate setting depth expression).Maintains fun machine => holds machine.engine :=
  have nested := maintains_interpretWithin setting holds note host setting.nestings
  (lasts_engine note (host _ nested)).evaluateAt depth expression

end Nested

end Evaluation

end Reckon
