/-
This file compares two evaluations that run side by side, on machines that may
keep different host memories. A coupling says what the two machines have in
common while the runs go together, and what remains true of them once the runs
have parted, when nothing more is asked of the answers.

A run that parts from another never joins it again. What is known of parted
runs must therefore survive whatever the first run does from then on, and the
unwinding of the second.

The rules below follow the building blocks of evaluations. With them the rule
of each sort of node is gone through once, for all couplings: two evaluators of
parts that go together make two evaluators of nodes that go together.
-/

import Reckon.Proofs.Evaluation.Rules
import Reckon.Proofs.Expression.Occurrence

namespace Reckon

variable {Memory Memory' Result Other : Type}

/-- The error that a computation ended in, if it did. -/
def failure? : Except EvaluationError Result → Option EvaluationError
  | .ok _ => none
  | .error error => some error

theorem eq_error_of_failure? {outcome : Except EvaluationError Result} {error : EvaluationError}
    (failed : failure? outcome = some error) : outcome = .error error := by
  cases outcome with
  | ok result => cases failed
  | error other => exact congrArg Except.error (Option.some.inj failed)

theorem Machine.eq_of_fields {machine machine' : Machine Memory}
    (environment : machine.environment = machine'.environment)
    (visits : machine.visits = machine'.visits) (callDepth : machine.callDepth = machine'.callDepth)
    (cacheable : machine.cacheable = machine'.cacheable)
    (engine : machine.engine = machine'.engine) : machine = machine' := by
  cases machine
  cases machine'
  dsimp only at environment visits callDepth cacheable engine
  subst environment visits callDepth cacheable engine
  rfl

/-- Answers of two runs that correspond: one and the same, or errors of which the first stands for
the second. -/
inductive Corresponds (errors : EvaluationError → EvaluationError → Prop) :
    Except EvaluationError Result → Except EvaluationError Result → Prop where
  | same (outcome : Except EvaluationError Result) : Corresponds errors outcome outcome
  | errors {error error' : EvaluationError} (stands : errors error error') :
      Corresponds errors (.error error) (.error error')

theorem Corresponds.of_eq {errors : EvaluationError → EvaluationError → Prop}
    {outcome outcome' : Except EvaluationError Result} (same : outcome = outcome') :
    Corresponds errors outcome outcome' := by
  rw [same]
  exact .same outcome'

theorem Corresponds.eq {errors : EvaluationError → EvaluationError → Prop}
    {outcome outcome' : Except EvaluationError Result}
    (corresponds : Corresponds errors outcome outcome')
    (none : ∀ error error', ¬ errors error error') : outcome = outcome' := by
  cases corresponds with
  | same => rfl
  | errors stands => exact (none _ _ stands).elim

/-- How two evaluations are compared. The number counts the scopes that the part under
comparison has opened. -/
structure Coupling (Memory Memory' : Type) where
  /-- What holds of the two machines while the runs go together. -/
  together : Nat → Machine Memory → Machine Memory' → Prop
  /-- Errors of the first run that stand for other ones of the second. -/
  errors : EvaluationError → EvaluationError → Prop := fun _ _ => False
  /-- What holds once they have parted: the first run may go on, and the second has ended in an
  error, or goes on too. -/
  parted : Machine Memory → Option EvaluationError → Machine Memory' → Prop
  /-- Scopes that are dropped and call depths that are put back make no difference to it. -/
  parted_restore : ∀ {machine : Machine Memory} {failure : Option EvaluationError}
    {machine' : Machine Memory'} (environment environment' : Environment) (depth depth' : Nat),
    parted machine failure machine' →
      parted { machine with environment, callDepth := depth } failure
        { machine' with environment := environment', callDepth := depth' }
  /-- If the second run has not ended, it may do as it likes. -/
  parted_onward : ∀ {machine : Machine Memory} {machine' : Machine Memory'},
    parted machine none machine' →
      ∀ (failure : Option EvaluationError) (onward : Machine Memory'),
        parted machine failure onward

/-- A computation with scopes and a call depth of its own, which are replaced again at the end. -/
def bracketed (enter : Machine Memory → Environment × Nat)
    (leave : Machine Memory → Machine Memory → Environment × Nat)
    (action : Evaluation Memory Result) : Evaluation Memory Result :=
  fun machine =>
    let (result, after) := action
      { machine with environment := (enter machine).1, callDepth := (enter machine).2 }
    (result, { after with
      environment := (leave machine after).1, callDepth := (leave machine after).2 })

/-- A computation may keep the scopes and the call depth it has. -/
theorem eq_bracketed (action : Evaluation Memory Result) :
    action = bracketed (fun machine => (machine.environment, machine.callDepth))
      (fun _ after => (after.environment, after.callDepth)) action := rfl

theorem inScope_define_eq_bracketed (name : String) (value : Value) (uses : UseLimit)
    (action : Evaluation Memory Result) :
    (Evaluation.inScope do
      Evaluation.update fun machine =>
        { machine with environment := machine.environment.define name value uses }
      action) =
      bracketed (fun machine =>
          (machine.environment.push.define name value uses, machine.callDepth))
        (fun _ after => (after.environment.pop, after.callDepth)) action := rfl

theorem inEnvironment_eq_bracketed (environment : Environment)
    (action : Evaluation Memory Result) :
    Evaluation.inEnvironment environment action =
      bracketed (fun machine => (environment, machine.callDepth))
        (fun machine after => (machine.environment, after.callDepth)) action := rfl

theorem atCallDepth_eq_bracketed (depth : Nat) (action : Evaluation Memory Result) :
    Evaluation.atCallDepth depth action =
      bracketed (fun machine => (machine.environment, depth))
        (fun machine after => (after.environment, machine.callDepth)) action := rfl

namespace Evaluation

/-- The evaluator of the bodies of functions called from a node with so many levels left. -/
def bodyWithin (setting : NestedSetting Memory) : Nat → Expression → Evaluation Memory Value
  | 0 => fun _ => fail (.depthExceeded setting.depthLimit)
  | deeper + 1 => evaluateWithin setting deeper

theorem evaluateWithin_succ (setting : NestedSetting Memory) (levels : Nat)
    (expression : Expression) :
    evaluateWithin setting (levels + 1) expression =
      (do
        visit setting (setting.depthLimit - levels) expression
        step setting (setting.depthLimit - levels + 1) (evaluateWithin setting levels)
          (bodyWithin setting levels) expression) := by
  cases levels with
  | zero => rfl
  | succ deeper => rfl

theorem bodyWithin_eq (setting : NestedSetting Memory) (levels : Nat) (expression : Expression) :
    bodyWithin setting levels expression = evaluateWithin setting (levels - 1) expression := by
  cases levels with
  | zero => rfl
  | succ deeper => rfl

theorem evaluateAt_of_lt {setting : NestedSetting Memory} {depth : Nat}
    (tooDeep : setting.depthLimit < depth) (expression : Expression) :
    evaluateAt setting depth expression = fail (.depthExceeded setting.depthLimit) := by
  unfold evaluateAt
  rw [show setting.depthLimit + 1 - depth = 0 by omega]
  rfl

/-- An evaluation within the limit visits its node and evaluates the parts one level below and the
bodies of functions two levels below. -/
theorem evaluateAt_of_le {setting : NestedSetting Memory} {depth : Nat}
    (within : depth ≤ setting.depthLimit) (expression : Expression) :
    evaluateAt setting depth expression =
      (do
        visit setting depth expression
        step setting (depth + 1) (evaluateAt setting (depth + 1)) (evaluateAt setting (depth + 2))
          expression) := by
  obtain ⟨levels, left⟩ : ∃ levels, setting.depthLimit + 1 - depth = levels + 1 :=
    ⟨setting.depthLimit - depth, by omega⟩
  have below : setting.depthLimit + 1 - (depth + 1) = levels := by omega
  have belowCall : setting.depthLimit + 1 - (depth + 2) = levels - 1 := by omega
  have bodies : evaluateAt setting (depth + 2) = bodyWithin setting levels := by
    funext body
    unfold evaluateAt
    rw [bodyWithin_eq, belowCall]
  rw [bodies]
  unfold evaluateAt
  rw [below, left, evaluateWithin_succ, show setting.depthLimit - levels = depth by omega]

/-- What holds of all depths below the limit holds of each depth, if it holds of a depth whenever
it does of the two that follow. -/
theorem induction_on_depth {motive : Nat → Prop} (limit : Nat)
    (tooDeep : ∀ depth, limit < depth → motive depth)
    (within : ∀ depth, depth ≤ limit → motive (depth + 1) → motive (depth + 2) → motive depth)
    (depth : Nat) : motive depth := by
  induction left : limit + 1 - depth using Nat.strongRecOn generalizing depth with
  | ind levels inductionHypothesis =>
    rcases Nat.lt_or_ge limit depth with below | notBelow
    · exact tooDeep depth below
    · exact within depth notBelow (inductionHypothesis _ (by omega) _ rfl)
        (inductionHypothesis _ (by omega) _ rfl)

theorem engine_readVariable (setting : Setting Memory) (read : String)
    (machine : Machine Memory) : (readVariable setting read machine).2.engine = machine.engine := by
  unfold readVariable
  split
  · rfl
  · split
    · rfl
    · split <;> rfl

end Evaluation

namespace Coupling

variable (coupling : Coupling Memory Memory')

/-- Two outcomes that agree: the runs still go together and their answers correspond, or they have
parted. -/
def Agree (level : Nat) (first : Except EvaluationError Result × Machine Memory)
    (second : Except EvaluationError Result × Machine Memory') : Prop :=
  (Corresponds coupling.errors first.1 second.1 ∧
      coupling.together level first.2 second.2) ∨
    coupling.parted first.2 (failure? second.1) second.2

/-- A computation that the first run may carry out after the runs have parted. -/
def Keeps (action : Evaluation Memory Result) : Prop :=
  ∀ machine failure machine', coupling.parted machine failure machine' →
    coupling.parted (action machine).2 failure machine'

/-- Two computations that go together. -/
def Simulates (level : Nat) (first : Evaluation Memory Result)
    (second : Evaluation Memory' Result) : Prop :=
  (∀ machine machine', coupling.together level machine machine' →
    coupling.Agree level (first machine) (second machine')) ∧ coupling.Keeps first

variable {coupling} {level : Nat}

/-- Where no error stands for another one, outcomes that agree give the same answer, unless the
runs have parted. -/
theorem Agree.equal {first : Except EvaluationError Result × Machine Memory}
    {second : Except EvaluationError Result × Machine Memory'}
    (agree : coupling.Agree level first second)
    (none : ∀ error error', ¬ coupling.errors error error') :
    (first.1 = second.1 ∧ coupling.together level first.2 second.2) ∨
      coupling.parted first.2 (failure? second.1) second.2 := by
  rcases agree with ⟨corresponds, together⟩ | parted
  · exact Or.inl ⟨corresponds.eq none, together⟩
  · exact Or.inr parted

/-! ### Computations after the runs have parted -/

theorem keeps_pure (result : Result) : coupling.Keeps (pure result) :=
  fun _ _ _ parted => parted

theorem keeps_fail (error : EvaluationError) :
    coupling.Keeps (Evaluation.fail error : Evaluation Memory Result) :=
  fun _ _ _ parted => parted

theorem keeps_ofExcept (result : Except EvaluationError Result) :
    coupling.Keeps (Evaluation.ofExcept result) :=
  fun _ _ _ parted => parted

theorem keeps_inspect (question : Machine Memory → Result) :
    coupling.Keeps (Evaluation.inspect question) :=
  fun _ _ _ parted => parted

theorem Keeps.bind {action : Evaluation Memory Result} {next : Result → Evaluation Memory Other}
    (keeps : coupling.Keeps action) (nextKeeps : ∀ result, coupling.Keeps (next result)) :
    coupling.Keeps (action >>= next) := by
  intro machine failure machine' parted
  have later := keeps machine failure machine' parted
  show coupling.parted (Evaluation.andThen action next machine).2 failure machine'
  unfold Evaluation.andThen
  rcases outcome : action machine with ⟨error | result, after⟩
  · rw [outcome] at later
    exact later
  · rw [outcome] at later
    exact nextKeeps result after failure machine' later

theorem Keeps.bracketed {action : Evaluation Memory Result} (keeps : coupling.Keeps action)
    (enter : Machine Memory → Environment × Nat)
    (leave : Machine Memory → Machine Memory → Environment × Nat) :
    coupling.Keeps (bracketed enter leave action) := by
  intro machine failure machine' parted
  have entered := coupling.parted_restore (enter machine).1 machine'.environment
    (enter machine).2 machine'.callDepth parted
  have later := keeps _ _ _ entered
  exact coupling.parted_restore _ machine'.environment _ machine'.callDepth later

/-! ### Computations that go together -/

theorem simulates_pure (result : Result) :
    coupling.Simulates level (pure result) (pure result) :=
  ⟨fun _ _ together => Or.inl ⟨.same _, together⟩, keeps_pure result⟩

theorem simulates_fail (error : EvaluationError) :
    coupling.Simulates level (Evaluation.fail error : Evaluation Memory Result)
      (Evaluation.fail error) :=
  ⟨fun _ _ together => Or.inl ⟨.same _, together⟩, keeps_fail error⟩

theorem simulates_ofExcept (result : Except EvaluationError Result) :
    coupling.Simulates level (Evaluation.ofExcept result) (Evaluation.ofExcept result) :=
  ⟨fun _ _ together => Or.inl ⟨.same _, together⟩, keeps_ofExcept result⟩

theorem simulates_inspect {question : Machine Memory → Result}
    {question' : Machine Memory' → Result}
    (same : ∀ machine machine', coupling.together level machine machine' →
      question machine = question' machine') :
    coupling.Simulates level (Evaluation.inspect question) (Evaluation.inspect question') :=
  ⟨fun machine machine' together =>
    Or.inl ⟨.of_eq (congrArg Except.ok (same machine machine' together)), together⟩,
    keeps_inspect question⟩

/-- A change of both machines that the runs go through together. -/
theorem simulates_update {change : Machine Memory → Machine Memory}
    {change' : Machine Memory' → Machine Memory'}
    (together : ∀ machine machine', coupling.together level machine machine' →
      coupling.together level (change machine) (change' machine'))
    (parted : ∀ machine failure machine', coupling.parted machine failure machine' →
      coupling.parted (change machine) failure machine') :
    coupling.Simulates level (Evaluation.update change) (Evaluation.update change') :=
  ⟨fun machine machine' before => Or.inl ⟨.same _, together machine machine' before⟩, parted⟩

/-- After outcomes that agree the runs go on together, or have parted. -/
theorem Agree.andThen {first : Evaluation Memory Result} {second : Evaluation Memory' Result}
    {next : Result → Evaluation Memory Other} {next' : Result → Evaluation Memory' Other}
    {machine : Machine Memory} {machine' : Machine Memory'}
    (agree : coupling.Agree level (first machine) (second machine'))
    (nextSimulates : ∀ result, coupling.Simulates level (next result) (next' result)) :
    coupling.Agree level (Evaluation.andThen first next machine)
      (Evaluation.andThen second next' machine') := by
  unfold Evaluation.andThen
  rcases outcome : first machine with ⟨answer, after⟩
  rcases outcome' : second machine' with ⟨answer', after'⟩
  rw [outcome, outcome'] at agree
  rcases agree with ⟨corresponds, together⟩ | parted
  · cases corresponds with
    | errors stands => exact Or.inl ⟨.errors stands, together⟩
    | same =>
      cases answer with
      | error error => exact Or.inl ⟨.same _, together⟩
      | ok result => exact (nextSimulates result).1 after after' together
  · -- The first run goes on and keeps what is known of parted runs. The second one goes on
    -- only if it has not ended.
    have later : coupling.parted (Evaluation.andThen first next machine).2 (failure? answer')
        after' := by
      unfold Evaluation.andThen
      rw [outcome]
      cases answer with
      | error error => exact parted
      | ok result => exact (nextSimulates result).2 after _ _ parted
    unfold Evaluation.andThen at later
    rw [outcome] at later
    cases answer' with
    | error error => exact Or.inr later
    | ok result => exact Or.inr (coupling.parted_onward later _ _)

theorem Simulates.bind {first : Evaluation Memory Result} {second : Evaluation Memory' Result}
    {next : Result → Evaluation Memory Other} {next' : Result → Evaluation Memory' Other}
    (simulates : coupling.Simulates level first second)
    (nextSimulates : ∀ result, coupling.Simulates level (next result) (next' result)) :
    coupling.Simulates level (first >>= next) (second >>= next') :=
  ⟨fun machine machine' together => (simulates.1 machine machine' together).andThen nextSimulates,
    simulates.2.bind fun result => (nextSimulates result).2⟩

/-- A change of the first machine alone, which the runs stay together through. -/
theorem Simulates.after_update {first : Evaluation Memory Result}
    {second : Evaluation Memory' Result} {change : Machine Memory → Machine Memory}
    (simulates : coupling.Simulates level first second)
    (together : ∀ machine machine', coupling.together level machine machine' →
      coupling.together level (change machine) machine')
    (parted : ∀ machine failure machine', coupling.parted machine failure machine' →
      coupling.parted (change machine) failure machine') :
    coupling.Simulates level (do Evaluation.update change; first) second :=
  ⟨fun machine machine' before => simulates.1 _ machine' (together machine machine' before),
    Keeps.bind parted fun _ => simulates.2⟩

/-- If a first step parts the runs, nothing is asked of the second run afterwards. -/
theorem simulates_bind_of_parted {first : Evaluation Memory Result}
    {second : Evaluation Memory' Result} {next : Result → Evaluation Memory Other}
    {next' : Result → Evaluation Memory' Other}
    (parts : ∀ machine machine', coupling.together level machine machine' →
      coupling.parted (first machine).2 none (second machine').2)
    (keeps : coupling.Keeps first) (nextKeeps : ∀ result, coupling.Keeps (next result)) :
    coupling.Simulates level (first >>= next) (second >>= next') := by
  refine ⟨fun machine machine' together => Or.inr ?_, keeps.bind nextKeeps⟩
  have parted := parts machine machine' together
  have later : coupling.parted (Evaluation.andThen first next machine).2 none
      (second machine').2 := by
    unfold Evaluation.andThen
    rcases outcome : first machine with ⟨error | result, after⟩
    · rw [outcome] at parted
      exact parted
    · rw [outcome] at parted
      exact nextKeeps result after _ _ parted
  exact coupling.parted_onward later _ _

/-- What goes together in one coupling goes together in another one around it, if scopes and call
depth are replaced in such a way that the one coupling holds inside and the other one outside. -/
theorem Simulates.bracketed_into {around : Coupling Memory Memory'} {inner : Nat}
    {first : Evaluation Memory Result} {second : Evaluation Memory' Result}
    {enter : Machine Memory → Environment × Nat}
    {leave : Machine Memory → Machine Memory → Environment × Nat}
    {enter' : Machine Memory' → Environment × Nat}
    {leave' : Machine Memory' → Machine Memory' → Environment × Nat}
    (simulates : coupling.Simulates inner first second) (errors : around.errors = coupling.errors)
    (parted : around.parted = coupling.parted)
    (entering : ∀ machine machine', around.together level machine machine' →
      coupling.together inner
        { machine with environment := (enter machine).1, callDepth := (enter machine).2 }
        { machine' with environment := (enter' machine').1, callDepth := (enter' machine').2 })
    (leaving : ∀ machine machine' after after', around.together level machine machine' →
      coupling.together inner after after' →
      around.together level
        { after with
          environment := (leave machine after).1, callDepth := (leave machine after).2 }
        { after' with
          environment := (leave' machine' after').1, callDepth := (leave' machine' after').2 }) :
    around.Simulates level (bracketed enter leave first) (bracketed enter' leave' second) := by
  have keeps : around.Keeps first := by
    unfold Keeps
    rw [parted]
    exact simulates.2
  refine ⟨fun machine machine' before => ?_, keeps.bracketed enter leave⟩
  rcases simulates.1 _ _ (entering machine machine' before) with ⟨same, together⟩ | apart
  · exact Or.inl ⟨errors ▸ same, leaving machine machine' _ _ before together⟩
  · exact Or.inr (around.parted_restore _ _ _ _ (parted ▸ apart))

theorem Simulates.bracketed {inner : Nat} {first : Evaluation Memory Result}
    {second : Evaluation Memory' Result} {enter : Machine Memory → Environment × Nat}
    {leave : Machine Memory → Machine Memory → Environment × Nat}
    {enter' : Machine Memory' → Environment × Nat}
    {leave' : Machine Memory' → Machine Memory' → Environment × Nat}
    (simulates : coupling.Simulates inner first second)
    (entering : ∀ machine machine', coupling.together level machine machine' →
      coupling.together inner
        { machine with environment := (enter machine).1, callDepth := (enter machine).2 }
        { machine' with environment := (enter' machine').1, callDepth := (enter' machine').2 })
    (leaving : ∀ machine machine' after after', coupling.together level machine machine' →
      coupling.together inner after after' →
      coupling.together level
        { after with
          environment := (leave machine after).1, callDepth := (leave machine after).2 }
        { after' with
          environment := (leave' machine' after').1, callDepth := (leave' machine' after').2 }) :
    coupling.Simulates level (bracketed enter leave first) (bracketed enter' leave' second) :=
  simulates.bracketed_into rfl rfl entering leaving

/-- Computations that answer the same for each member of a list answer the same for the list. -/
theorem simulates_each {Item : Type} {action : Item → Evaluation Memory Result}
    {action' : Item → Evaluation Memory' Result} (items : List Item)
    (simulates : ∀ item ∈ items, coupling.Simulates level (action item) (action' item)) :
    coupling.Simulates level (Evaluation.each action items) (Evaluation.each action' items) := by
  induction items with
  | nil => exact simulates_pure []
  | cons item rest inductionHypothesis =>
    obtain ⟨first, others⟩ := List.forall_mem_cons.1 simulates
    exact first.bind fun result =>
      (inductionHypothesis others).bind fun results => simulates_pure (result :: results)

/-! ### The rules of the nodes -/

/-- A coupling that lasts when both machines count a visit or write one event down. -/
structure Records (coupling : Coupling Memory Memory') : Prop where
  visits : ∀ {level machine machine'}, coupling.together level machine machine' →
    machine.visits = machine'.visits
  count : ∀ {level machine machine'}, coupling.together level machine machine' →
    coupling.together level { machine with visits := machine.visits + 1 }
      { machine' with visits := machine'.visits + 1 }
  note : ∀ {level machine machine'} event, coupling.together level machine machine' →
    coupling.together level (machine.note event) (machine'.note event)
  keepsCount : ∀ {machine failure machine'}, coupling.parted machine failure machine' →
    coupling.parted { machine with visits := machine.visits + 1 } failure machine'
  keepsNote : ∀ {machine failure machine'} event, coupling.parted machine failure machine' →
    coupling.parted (machine.note event) failure machine'

/-- Nodes of one sort are visited alike. -/
theorem Records.visit (records : coupling.Records) {setting : Setting Memory}
    {setting' : Setting Memory'} (configuration : setting'.configuration = setting.configuration)
    (deadline : setting'.deadline = setting.deadline) (depth : Nat)
    {expression expression' : Expression}
    (sort : NodeSort.ofExpression expression = NodeSort.ofExpression expression') :
    coupling.Simulates level (Evaluation.visit setting depth expression)
      (Evaluation.visit setting' depth expression') := by
  have sameTime : ∀ visits, Evaluation.isTimeUp setting' visits =
      Evaluation.isTimeUp setting visits := by
    intro visits
    unfold Evaluation.isTimeUp
    rw [configuration, deadline]
  constructor
  · intro machine machine' together
    refine Or.inl ?_
    have counted := records.count together
    unfold Evaluation.visit
    dsimp only
    rw [sameTime, configuration, sort, ← records.visits together]
    rw [← records.visits together] at counted
    split
    · exact ⟨.same _, counted⟩
    · split
      · exact ⟨.same _, records.note _ counted⟩
      · exact ⟨.same _, counted⟩
  · intro machine failure machine' parted
    have counted := records.keepsCount parted
    unfold Evaluation.visit
    dsimp only
    split
    · exact counted
    · split
      · exact records.keepsNote _ counted
      · exact counted

/-- Two settings that agree in everything but the functions, and a coupling that both evaluations
stay in at each visit of a node and with each scope. -/
structure Fits (coupling : Coupling Memory Memory') (setting : NestedSetting Memory)
    (setting' : NestedSetting Memory') : Prop where
  configuration : setting'.configuration = setting.configuration
  operations : setting'.operations = setting.operations
  types : setting'.types = setting.types
  deadline : setting'.deadline = setting.deadline
  records : coupling.Records
  bind : ∀ level name value uses machine machine', coupling.together level machine machine' →
    coupling.together (level + 1)
      { machine with environment := machine.environment.push.define name value uses }
      { machine' with environment := machine'.environment.push.define name value uses }
  pop : ∀ level machine machine', coupling.together (level + 1) machine machine' →
    coupling.together level { machine with environment := machine.environment.pop }
      { machine' with environment := machine'.environment.pop }

/-- Two settings that agree in the operations and the types, and a coupling that both evaluations
stay in with each scope. -/
structure Suits (coupling : Coupling Memory Memory') (setting : NestedSetting Memory)
    (setting' : NestedSetting Memory') : Prop where
  operations : setting'.operations = setting.operations
  types : setting'.types = setting.types
  bind : ∀ level name value uses machine machine', coupling.together level machine machine' →
    coupling.together (level + 1)
      { machine with environment := machine.environment.push.define name value uses }
      { machine' with environment := machine'.environment.push.define name value uses }
  pop : ∀ level machine machine', coupling.together (level + 1) machine machine' →
    coupling.together level { machine with environment := machine.environment.pop }
      { machine' with environment := machine'.environment.pop }

theorem Fits.suits {setting : NestedSetting Memory} {setting' : NestedSetting Memory'}
    (fits : coupling.Fits setting setting') : coupling.Suits setting setting' :=
  ⟨fits.operations, fits.types, fits.bind, fits.pop⟩

/-- A coupling in which a name is bound in both environments or in neither. -/
def SeesAlike (coupling : Coupling Memory Memory') (name : String) : Prop :=
  ∀ level machine machine', coupling.together level machine machine' →
    machine.environment.contains name = machine'.environment.contains name

/-- Functions of one name that are both unknown, or both known and called alike at a depth. -/
structure CallsAlike (coupling : Coupling Memory Memory') (setting : NestedSetting Memory)
    (setting' : NestedSetting Memory') (depth : Nat) (body : Expression → Evaluation Memory Value)
    (body' : Expression → Evaluation Memory' Value) : Prop where
  unknown : ∀ name, setting.functions.get? name = none → setting'.functions.get? name = none
  known : ∀ name function, setting.functions.get? name = some function →
    ∃ function', setting'.functions.get? name = some function' ∧
      ∀ level hint values, coupling.Simulates level
        (Evaluation.callFunction setting depth body name function hint values)
        (Evaluation.callFunction setting' depth body' name function' hint values)

section Nodes

variable {setting : NestedSetting Memory} {setting' : NestedSetting Memory'}
  {part body : Expression → Evaluation Memory Value}
  {part' body' : Expression → Evaluation Memory' Value} {depth : Nat}
  {readName : String → Evaluation Memory Value} {readName' : String → Evaluation Memory' Value}
  {carryOut : String → Option String → List Value → Evaluation Memory Value}
  {carryOut' : String → Option String → List Value → Evaluation Memory' Value}

theorem simulates_binary (operations : setting'.operations = setting.operations)
    (operator : BinaryOperator) {left right : Expression}
    (first : coupling.Simulates level (part left) (part' left))
    (second : coupling.Simulates level (part right) (part' right)) :
    coupling.Simulates level (Evaluation.binary setting part operator left right)
      (Evaluation.binary setting' part' operator left right) := by
  unfold Evaluation.binary
  refine first.bind fun first => ?_
  rw [operations]
  split
  · exact simulates_pure _
  · exact simulates_pure _
  · exact second.bind fun second => simulates_ofExcept _

theorem simulates_conditional {otherwise : Option Expression}
    {branches : List (Expression × Expression)}
    (conditions : ∀ branch ∈ branches, coupling.Simulates level (part branch.1) (part' branch.1))
    (results : ∀ branch ∈ branches, coupling.Simulates level (part branch.2) (part' branch.2))
    (last : ∀ result, otherwise = some result →
      coupling.Simulates level (part result) (part' result)) :
    coupling.Simulates level (Evaluation.conditional part otherwise branches)
      (Evaluation.conditional part' otherwise branches) := by
  induction branches with
  | nil =>
    cases otherwise with
    | none => exact simulates_fail _
    | some result => exact last result rfl
  | cons branch rest inductionHypothesis =>
    obtain ⟨condition, others⟩ := List.forall_mem_cons.1 conditions
    obtain ⟨result, otherResults⟩ := List.forall_mem_cons.1 results
    refine condition.bind fun truth => ?_
    cases truth.isTruthy with
    | false => exact inductionHypothesis others otherResults
    | true => exact result

theorem simulates_castOperandWith
    (calls : ∀ name hint values,
      coupling.Simulates level (carryOut name hint values) (carryOut' name hint values))
    (typeName : String) {inner : Expression}
    (sees : ∀ name, inner.Mentions name → coupling.SeesAlike name)
    (parts : ∀ expression, expression.Within inner →
      coupling.Simulates level (part expression) (part' expression)) :
    coupling.Simulates level (Evaluation.castOperandWith carryOut part typeName inner)
      (Evaluation.castOperandWith carryOut' part' typeName inner) := by
  have inside := inner.withoutOuterGroups_within
  unfold Evaluation.castOperandWith
  split
  next name hint arguments isCall =>
    rw [isCall] at inside
    exact (simulates_each arguments fun argument member =>
      parts argument (.trans (.argument name hint member .itself) inside)).bind fun values =>
        calls name _ values
  next name _ isVariable _ =>
    rw [isVariable] at inside
    refine (simulates_inspect (sees name inside level)).bind fun bound => ?_
    cases bound with
    | true => exact parts inner .itself
    | false => exact simulates_pure _
  · exact parts inner .itself

/-- Evaluators that go together on the parts of a node go together on the node, if they read
variables and carry out calls together. -/
theorem simulates_stepWith (suits : coupling.Suits setting setting') (level : Nat)
    (expression : Expression)
    (parts : ∀ level inner, inner.Within expression →
      coupling.Simulates level (part inner) (part' inner))
    (sees : ∀ name, expression.Mentions name → coupling.SeesAlike name)
    (reads : ∀ name, expression = .variable name →
      coupling.Simulates level (readName name) (readName' name))
    (calls : ∀ name hint values,
      coupling.Simulates level (carryOut name hint values) (carryOut' name hint values)) :
    coupling.Simulates level (Evaluation.stepWith setting readName carryOut part expression)
      (Evaluation.stepWith setting' readName' carryOut' part' expression) := by
  cases expression with
  | integer number => exact simulates_pure _
  | float number => exact simulates_pure _
  | text content => exact simulates_pure _
  | boolean truth => exact simulates_pure _
  | null => exact simulates_pure _
  | «variable» name => exact reads name rfl
  | binary operator left right =>
    exact simulates_binary suits.operations operator
      (parts level left (.left operator right .itself))
      (parts level right (.right operator left .itself))
  | unary operator operand =>
    exact (parts level operand (.operand operator .itself)).bind fun value =>
      simulates_ofExcept (operator.apply value)
  | ternary condition whenTrue whenFalse =>
    refine (parts level condition (.condition _ _ .itself)).bind fun truth => ?_
    cases truth.isTruthy with
    | true => exact parts level whenTrue (.whenTrue _ _ .itself)
    | false => exact parts level whenFalse (.whenFalse _ _ .itself)
  | binding name value uses inner =>
    refine (parts level value (.value name uses inner .itself)).bind fun bound => ?_
    -- Pushing a scope and binding the name in it is one change of the machine.
    rw [inScope_define_eq_bracketed, inScope_define_eq_bracketed]
    exact (parts (level + 1) inner (.body name value uses .itself)).bracketed
      (suits.bind level name bound uses) fun _ _ _ _ _ => suits.pop level _ _
  | conditional branches otherwise =>
    refine simulates_conditional (fun branch member => ?_) (fun branch member => ?_)
      fun result isLast => ?_
    · exact parts level _ (.branchCondition otherwise member .itself)
    · exact parts level _ (.branchResult otherwise member .itself)
    · rw [isLast] at parts
      exact parts level result (.otherwise branches .itself)
  | call name hint arguments =>
    exact (simulates_each arguments fun argument member =>
      parts level argument (.argument name hint member .itself)).bind fun values =>
        calls name hint values
  | cast typeName inner =>
    have inside : ∀ {part : Expression}, part.Within inner → part.Within (.cast typeName inner) :=
      fun within => .inner typeName within
    refine (simulates_castOperandWith calls typeName
      (fun name mentions => sees name (inside mentions))
      fun part within => parts level part (inside within)).bind fun value => ?_
    rw [suits.types]
    exact simulates_ofExcept _
  | grouping inner => exact parts level inner (.grouped .itself)

/-- Calls are carried out together if the settings let through and replace the same names. -/
theorem simulates_dispatch
    (allowed : setting'.configuration.isFunctionAllowed = setting.configuration.isFunctionAllowed)
    (strictMode : setting'.configuration.strictMode = setting.configuration.strictMode)
    (undefined : setting'.configuration.undefinedValue = setting.configuration.undefinedValue)
    (calls : coupling.CallsAlike setting setting' depth body body') (name : String)
    (hint : Option String) (values : List Value) :
    coupling.Simulates level (Evaluation.dispatch setting depth body name hint values)
      (Evaluation.dispatch setting' depth body' name hint values) := by
  unfold Evaluation.dispatch
  rw [allowed, strictMode, undefined]
  split
  · exact simulates_fail _
  · cases found : setting.functions.get? name with
    | some function =>
      obtain ⟨function', found', alike⟩ := calls.known name function found
      rw [found']
      exact alike level hint values
    | none =>
      rw [calls.unknown name found]
      dsimp only
      split
      · exact simulates_fail _
      · exact simulates_pure _

/-- Evaluators that go together on the parts of a node go together on the node. -/
theorem simulates_step (fits : coupling.Fits setting setting')
    (calls : coupling.CallsAlike setting setting' depth body body') (level : Nat)
    (expression : Expression)
    (parts : ∀ level inner, inner.Within expression →
      coupling.Simulates level (part inner) (part' inner))
    (sees : ∀ name, expression.Mentions name → coupling.SeesAlike name)
    (reads : ∀ name, expression = .variable name → coupling.Simulates level
      (Evaluation.readVariable setting name) (Evaluation.readVariable setting' name)) :
    coupling.Simulates level (Evaluation.step setting depth part body expression)
      (Evaluation.step setting' depth part' body' expression) := by
  rw [Evaluation.step_eq, Evaluation.step_eq]
  exact simulates_stepWith fits.suits level expression parts sees reads
    (simulates_dispatch (congrArg _ fits.configuration) (congrArg _ fits.configuration)
      (congrArg _ fits.configuration) calls)

end Nodes

/-- Two evaluations go together if the calls of functions do, whatever the levels left. -/
theorem simulates_evaluateWithin {setting : NestedSetting Memory} {setting' : NestedSetting Memory'}
    (fits : coupling.Fits setting setting') (sees : ∀ name, coupling.SeesAlike name)
    (reads : ∀ level name, coupling.Simulates level (Evaluation.readVariable setting name)
      (Evaluation.readVariable setting' name))
    (calls : ∀ depth body body',
      (∀ level expression, coupling.Simulates level (body expression) (body' expression)) →
        coupling.CallsAlike setting setting' depth body body')
    (levels level : Nat) (expression : Expression) :
    coupling.Simulates level (Evaluation.evaluateWithin setting levels expression)
      (Evaluation.evaluateWithin setting' levels expression) := by
  have sameLimit : setting'.depthLimit = setting.depthLimit :=
    congrArg Configuration.depthLimit fits.configuration
  -- The body of a function lies two levels deeper, so the induction reaches further back.
  induction levels using Nat.strongRecOn generalizing level expression with
  | ind levels inductionHypothesis =>
    cases levels with
    | zero =>
      unfold Evaluation.evaluateWithin
      rw [sameLimit]
      exact simulates_fail _
    | succ levels =>
      unfold Evaluation.evaluateWithin
      rw [sameLimit]
      refine (fits.records.visit fits.configuration fits.deadline _ rfl).bind fun _ => ?_
      have parts := inductionHypothesis levels levels.lt_succ_self
      refine simulates_step fits (calls _ _ _ ?_) level expression
        (fun level part _ => parts level part) (fun name _ => sees name)
        fun name _ => reads level name
      cases levels with
      | zero => exact fun _ _ => simulates_fail _
      | succ deeper => exact inductionHypothesis deeper (by omega)

end Coupling

end Reckon
