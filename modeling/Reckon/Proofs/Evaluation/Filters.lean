/-
This file shows that the name filters let nothing through.

A variable that may not be read is refused before its binding is looked at, and
a cast of a bare name asks only whether the name is bound. So two evaluations go
together in environments that differ in nothing but what such variables hold.
They stay that way: a read of a name that may be read changes the same binding
in both.

The functions are watched from outside: an evaluation that writes down the name
of each function right before it is carried out, whether a node calls it, a cast
or the body of another function, does what the evaluation does. It never writes
down the name of a function that may not be called, and such a function makes no
difference, whatever it does.
-/

import Mathlib.Data.List.Forall2
import Reckon.Proofs.Evaluation.Calls
import Reckon.Proofs.Evaluation.Extended
import Reckon.Proofs.Evaluation.Overlooked
import Reckon.Proofs.Evaluation.Scopes

namespace Reckon

variable {mayRead : String → Bool}

/-! ### Environments that differ in what may not be read -/

/-- Bindings of a name that are the same, if the name may be read. -/
def Binding.AgreeWhere (mayRead : String → Bool) (name : String) (first second : Binding) : Prop :=
  mayRead name = true → first = second

/-- Scopes that bind the same names, and the names that may be read alike. -/
def Scope.AgreeWhere (mayRead : String → Bool) (first second : Scope) : Prop :=
  ∀ name, (first.get? name).Rel (Binding.AgreeWhere mayRead name) (second.get? name)

/-- Environments that differ at most in the bindings of names that may not be read: their scopes
are as many, and each binds the same names as the scope in its place. -/
structure Environment.AgreeWhere (mayRead : String → Bool) (first second : Environment) :
    Prop where
  inner : first.inner.Forall₂ (Scope.AgreeWhere mayRead) second.inner
  outermost : Scope.AgreeWhere mayRead first.outermost second.outermost

namespace Scope

variable {first second : Scope}

theorem AgreeWhere.refl (scope : Scope) : AgreeWhere mayRead scope scope := by
  intro name
  cases scope.get? name with
  | none => exact .none
  | some binding => exact .some fun _ => rfl

theorem AgreeWhere.contains (agree : AgreeWhere mayRead first second) (name : String) :
    first.contains name = second.contains name := by
  have related := agree name
  unfold Dictionary.contains
  generalize first.get? name = found at related ⊢
  generalize second.get? name = found' at related ⊢
  cases related <;> rfl

/-- A read of one name changes bindings that agree into bindings that agree. -/
theorem AgreeWhere.modify (agree : AgreeWhere mayRead first second) (read : String) :
    AgreeWhere mayRead (first.modify read Binding.afterRead)
      (second.modify read Binding.afterRead) := by
  intro name
  have related := agree name
  rw [Dictionary.get?_modify, Dictionary.get?_modify]
  split
  · generalize first.get? name = found at related ⊢
    generalize second.get? name = found' at related ⊢
    cases related with
    | none => exact .none
    | some same => exact .some fun may => congrArg Binding.afterRead (same may)
  · exact related

end Scope

namespace Environment

variable {first second : Environment} {scopes scopes' : List Scope}

theorem AgreeWhere.refl (environment : Environment) :
    environment.AgreeWhere mayRead environment where
  inner := List.forall₂_same.2 fun scope _ => .refl scope
  outermost := .refl environment.outermost

/-- A name means bindings that agree in scopes that do, or none in both. -/
theorem rel_findSome?_of_forall₂ (agree : scopes.Forall₂ (Scope.AgreeWhere mayRead) scopes')
    (name : String) :
    (scopes.findSome? fun scope => scope.get? name).Rel (Binding.AgreeWhere mayRead name)
      (scopes'.findSome? fun scope => scope.get? name) := by
  induction agree with
  | nil => exact .none
  | @cons scope scope' _ _ head _ inductionHypothesis =>
    have related := head name
    rw [List.findSome?_cons, List.findSome?_cons]
    generalize scope.get? name = found at related ⊢
    generalize scope'.get? name = found' at related ⊢
    cases related with
    | none => exact inductionHypothesis
    | some same => exact .some same

theorem AgreeWhere.find? (agree : first.AgreeWhere mayRead second) (name : String) :
    (first.find? name).Rel (Binding.AgreeWhere mayRead name) (second.find? name) :=
  rel_findSome?_of_forall₂ (List.rel_append agree.inner (.cons agree.outermost .nil)) name

theorem AgreeWhere.contains (agree : first.AgreeWhere mayRead second) (name : String) :
    first.contains name = second.contains name := by
  have related := agree.find? name
  unfold Environment.contains
  generalize first.find? name = found at related ⊢
  generalize second.find? name = found' at related ⊢
  cases related <;> rfl

/-- A name is read in the scopes that have each other's place, or in neither. -/
theorem rel_readInner?_of_forall₂ (agree : scopes.Forall₂ (Scope.AgreeWhere mayRead) scopes')
    (name : String) :
    (readInner? name scopes).Rel (List.Forall₂ (Scope.AgreeWhere mayRead))
      (readInner? name scopes') := by
  induction agree with
  | nil => exact .none
  | @cons scope scope' rest rest' head tail inductionHypothesis =>
    rw [readInner?_cons, readInner?_cons, head.contains]
    split
    · exact .some (.cons (head.modify name) tail)
    · generalize readInner? name rest = found at inductionHypothesis ⊢
      generalize readInner? name rest' = found' at inductionHypothesis ⊢
      cases inductionHypothesis with
      | none => exact .none
      | some later => exact .some (.cons head later)

theorem AgreeWhere.afterRead (agree : first.AgreeWhere mayRead second) (name : String) :
    (first.afterRead name).AgreeWhere mayRead (second.afterRead name) := by
  have related := rel_readInner?_of_forall₂ agree.inner name
  unfold Environment.afterRead
  generalize readInner? name first.inner = found at related ⊢
  generalize readInner? name second.inner = found' at related ⊢
  cases related with
  | none => exact ⟨agree.inner, agree.outermost.modify name⟩
  | some inner => exact ⟨inner, agree.outermost⟩

/-- A name that may be read is read alike. -/
theorem AgreeWhere.read (agree : first.AgreeWhere mayRead second) {name : String}
    (may : mayRead name = true) :
    (first.read name).1 = (second.read name).1 ∧
      (first.read name).2.AgreeWhere mayRead (second.read name).2 := by
  have related := agree.find? name
  unfold Environment.read
  generalize first.find? name = found at related ⊢
  generalize second.find? name = found' at related ⊢
  cases related with
  | none => exact ⟨rfl, agree⟩
  | some same =>
    rw [same may]
    exact ⟨rfl, agree.afterRead name⟩

theorem AgreeWhere.push_define (agree : first.AgreeWhere mayRead second) (name : String)
    (value : Value) (uses : UseLimit) :
    (first.push.define name value uses).AgreeWhere mayRead
      (second.push.define name value uses) where
  inner := .cons (.refl _) agree.inner
  outermost := agree.outermost

theorem AgreeWhere.pop (agree : first.AgreeWhere mayRead second) :
    first.pop.AgreeWhere mayRead second.pop where
  inner := List.forall₂_drop 1 agree.inner
  outermost := agree.outermost

end Environment

/-! ### Evaluations beside each other -/

variable {Memory : Type}

/-- Machines that differ in their environments only, and in these only in the bindings of names
that may not be read. -/
structure Machine.AgreeWhere (mayRead : String → Bool) (machine machine' : Machine Memory) :
    Prop where
  environment : machine.environment.AgreeWhere mayRead machine'.environment
  others : machine' = { machine with environment := machine'.environment }

namespace Coupling

open Evaluation

variable {setting : NestedSetting Memory} {level : Nat}

/-- The coupling of evaluations that differ in what may not be read. -/
def filtering (mayRead : String → Bool) : Coupling Memory Memory where
  together _ := Machine.AgreeWhere mayRead
  parted _ _ _ := False
  parted_restore _ _ _ _ parted := parted
  parted_onward parted _ _ := parted

theorem fits_filtering (setting : NestedSetting Memory) :
    (filtering mayRead).Fits setting setting where
  configuration := rfl
  operations := rfl
  types := rfl
  deadline := rfl
  records :=
    { visits := fun together => by rw [together.others]
      count := fun together => ⟨together.environment, by rw [together.others]⟩
      note := fun event together => ⟨together.environment, by rw [together.others]; rfl⟩
      keepsCount := fun parted => parted
      keepsNote := fun _ parted => parted }
  bind _ name value uses _ _ together :=
    ⟨together.environment.push_define name value uses, by rw [together.others]⟩
  pop _ _ _ together := ⟨together.environment.pop, by rw [together.others]⟩

theorem encloses_filtering : (filtering mayRead : Coupling Memory Memory).Encloses where
  forbid may together := ⟨together.environment, by rw [together.others]⟩
  note event together := ⟨together.environment, by rw [together.others]; rfl⟩
  environment environment together := ⟨.refl environment, by rw [together.others]⟩
  environmentBack before after := ⟨before.environment, by rw [after.others]⟩
  callDepth _ together := ⟨together.environment, by rw [together.others]⟩
  callDepthBack before after := ⟨after.environment, by rw [before.others, after.others]⟩
  keepsForbid _ parted := parted
  keepsNote _ parted := parted

/-- A variable that may not be read is refused whatever it holds, and any other one is read
alike. -/
theorem readVariable_filtering {setting : Setting Memory} (name : String) :
    (filtering setting.configuration.isVariableAllowed).Simulates level
      (readVariable setting name) (readVariable setting name) := by
  refine ⟨fun machine machine' together => Or.inl ?_, fun _ _ _ parted => parted.elim⟩
  unfold readVariable
  rw [together.environment.contains name]
  cases may : setting.configuration.isVariableAllowed name with
  | false => exact ⟨.same _, together⟩
  | true =>
    rw [Bool.not_true, if_neg Bool.false_ne_true, if_neg Bool.false_ne_true]
    split
    · obtain ⟨answer, after⟩ := together.environment.read may
      exact ⟨.of_eq answer, after, by rw [together.others]⟩
    · split <;> exact ⟨.same _, together⟩

/-- A host function does not see the environment, so it does alike. -/
theorem callablesAlike_filtering (callable : Callable Memory) :
    CallablesAlike (filtering mayRead) setting setting True callable callable := by
  cases callable with
  | defined parameters body => exact .defined parameters body
  | host host =>
    refine .host (fun _ _ _ _ _ parted => parted.elim) fun _ level arguments hint =>
      ⟨fun machine machine' together => Or.inl ?_, fun _ _ _ parted => parted.elim⟩
    have blind := isBlind_runProgram setting (host arguments hint)
    rw [together.others, blind machine machine'.environment]
    refine ⟨.same _, ?_, rfl⟩
    rw [blind.environment]
    exact together.environment

theorem simulates_filtering (setting : NestedSetting Memory) (levels level : Nat)
    (expression : Expression) :
    (filtering setting.configuration.isVariableAllowed).Simulates level
      (evaluateWithin setting levels expression) (evaluateWithin setting levels expression) := by
  refine simulates_evaluateWithin (fits_filtering setting)
    (fun name _ _ _ together => together.environment.contains name)
    (fun _ => readVariable_filtering)
    (fun depth body body' bodies => ⟨fun _ unknown => unknown, fun name function found => ?_⟩)
    levels level expression
  exact ⟨function, found, fun _ => simulates_callFunction_of_callable encloses_filtering (by rfl)
    (by rfl) (by rfl) (callablesAlike_filtering function.callable) bodies depth name⟩

end Coupling

/-- What a variable holds that may not be read makes no difference to an evaluation, which leaves
it as far out of reach as it was. -/
theorem Evaluation.evaluate_agreeWhere (setting : Setting Memory) (depth : Nat)
    (expression : Expression) (machine : Machine Memory) {environment : Environment}
    (agree : machine.environment.AgreeWhere setting.configuration.isVariableAllowed environment) :
    let outcome := evaluate setting depth expression machine
    let outcome' := evaluate setting depth expression { machine with environment }
    outcome'.1 = outcome.1 ∧
      outcome'.2 = { outcome.2 with environment := outcome'.2.environment } ∧
      outcome.2.environment.AgreeWhere setting.configuration.isVariableAllowed
        outcome'.2.environment := by
  rcases (Coupling.simulates_filtering (setting.nested setting.nestings)
    (setting.depthLimit + 1 - depth) 0 expression).1 machine { machine with environment }
      ⟨agree, rfl⟩ with ⟨corresponds, together⟩ | parted
  · exact ⟨(corresponds.eq fun _ _ => id).symm, together.others, together.environment⟩
  · exact parted.elim

/-! ### The functions that are carried out -/

/-- The names of the functions that were carried out, the latest first. -/
abbrev Calls := List String

namespace Evaluation

/-- Writes down the name of a function that is about to be carried out. -/
def recordCall (name : String) : Evaluation (Calls × Memory) Unit :=
  update fun machine =>
    { machine with
      engine := { machine.engine with
        memory := (name :: machine.engine.memory.1, machine.engine.memory.2) } }

section Rules

variable (setting : Setting Memory)
  (interpret : Nat → Expression → Evaluation (Calls × Memory) Value)

/-- Calls a function, and writes its name down right before it is carried out. The trees that host
functions ask about are evaluated in a way that is given. -/
def callRecording (depth : Nat) (evaluateBody : Expression → Evaluation (Calls × Memory) Value)
    (name : String) (function : RegisteredFunction Memory) (hint : Option String)
    (values : List Value) : Evaluation (Calls × Memory) Value := do
  let arguments ← ofExcept (coerceArguments setting.types name function.signature values)
  update fun machine =>
    { machine with cacheable := machine.cacheable && function.signature.cacheable }
  let hint := hint <|> function.signature.defaultHint
  update fun machine =>
    if setting.configuration.debugMode then machine.note (.called name arguments.length hint)
    else machine
  let result ← atCallDepth depth do
    recordCall name
    invoke (setting.extended.answering interpret) evaluateBody function.extended.callable arguments
      hint
  ofExcept (setting.types.coerce .function function.signature.returns result)

/-- Carries out a call whose arguments are evaluated, and writes down the function that is carried
out. -/
def dispatchRecording (depth : Nat) (evaluateBody : Expression → Evaluation (Calls × Memory) Value)
    (name : String) (hint : Option String) (values : List Value) :
    Evaluation (Calls × Memory) Value :=
  if !setting.configuration.isFunctionAllowed name then fail (.functionNotAllowed name)
  else
    match setting.functions.get? name with
    | some function => callRecording setting interpret depth evaluateBody name function hint values
    | none =>
      if setting.configuration.strictMode then fail (.undefinedFunction name)
      else pure setting.configuration.undefinedValue

/-- Evaluates an expression with so many levels left, and writes down the functions that are
carried out. -/
def recordingWithin : Nat → Expression → Evaluation (Calls × Memory) Value
  | 0, _ => fail (.depthExceeded setting.depthLimit)
  | levels + 1, expression => do
    let depth := setting.depthLimit - levels
    let evaluateBody : Expression → Evaluation (Calls × Memory) Value :=
      match levels with
      | 0 => fun _ => fail (.depthExceeded setting.depthLimit)
      | deeper + 1 => recordingWithin deeper
    visit setting.extended depth expression
    stepWith (setting.extended.answering interpret) (readVariable setting.extended)
      (dispatchRecording setting interpret (depth + 1) evaluateBody) (recordingWithin levels)
      expression

/-- The recorded evaluation of the bodies of functions called from a node with so many levels
left. -/
def bodyRecording : Nat → Expression → Evaluation (Calls × Memory) Value
  | 0 => fun _ => fail (.depthExceeded setting.depthLimit)
  | deeper + 1 => recordingWithin setting interpret deeper

end Rules

/-- Evaluates a tree for a host function in the same way, with so many evaluations allowed inside
each other. -/
def recordingFor (setting : Setting Memory) :
    Nat → Nat → Expression → Evaluation (Calls × Memory) Value
  | 0, _, _ => fail .unfinished
  | nestings + 1, depth, tree =>
    recordingWithin setting (recordingFor setting nestings) (setting.depthLimit + 1 - depth) tree

/-- Evaluates an expression at a depth, and writes down the functions that are carried out, there
and in evaluations for host functions. -/
def evaluateRecording (setting : Setting Memory) (depth : Nat) (expression : Expression) :
    Evaluation (Calls × Memory) Value :=
  recordingWithin setting (recordingFor setting setting.nestings) (setting.depthLimit + 1 - depth)
    expression

theorem recordingWithin_succ (setting : Setting Memory)
    (interpret : Nat → Expression → Evaluation (Calls × Memory) Value) (levels : Nat)
    (expression : Expression) :
    recordingWithin setting interpret (levels + 1) expression =
      (do
        visit setting.extended (setting.depthLimit - levels) expression
        stepWith (setting.extended.answering interpret) (readVariable setting.extended)
          (dispatchRecording setting interpret (setting.depthLimit - levels + 1)
            (bodyRecording setting interpret levels))
          (recordingWithin setting interpret levels) expression) := by
  cases levels with
  | zero => rfl
  | succ deeper => rfl

end Evaluation

namespace Coupling

open Evaluation

variable {setting : Setting Memory} {level : Nat} {permitted : Calls → Prop}
  {interpret : Nat → Expression → Evaluation (Calls × Memory) Value}
  {interpret' : Nat → Expression → Evaluation Memory Value}
  {body : Expression → Evaluation (Calls × Memory) Value}
  {body' : Expression → Evaluation Memory Value}

/-- The coupling of an evaluation that is recorded with the one that is not. What is permitted is
true of the functions that were written down. -/
abbrev recording (permitted : Calls → Prop) : Coupling (Calls × Memory) Memory :=
  alike .identity (EngineState.Extends permitted) False

/-- A call goes together with the one that is recorded, if the record may grow by its name. -/
theorem simulates_callRecording {name : String}
    (interprets : ∀ depth tree,
      (recording permitted).Simulates 0 (interpret depth tree) (interpret' depth tree))
    (grows : ∀ calls, permitted calls → permitted (name :: calls))
    (bodies : ∀ level expression,
      (recording permitted).Simulates level (body expression) (body' expression))
    (depth : Nat) (function : RegisteredFunction Memory) (hint : Option String)
    (values : List Value) :
    (recording permitted).Simulates level
      (callRecording setting interpret depth body name function hint values)
      (callFunction (setting.answering interpret') depth body' name function hint values) := by
  have encloses : (recording permitted : Coupling (Calls × Memory) Memory).Encloses :=
    encloses_alike (EngineState.survivesNotes_extends permitted)
  refine (simulates_ofExcept _).bind fun arguments => ?_
  refine Simulates.bind (simulates_update (fun _ _ together => encloses.forbid _ together)
    fun _ _ _ parted => parted.1.elim) fun _ => ?_
  refine Simulates.bind (simulates_update (fun machine machine' together => ?_)
    fun _ _ _ parted => parted.1.elim) fun _ => ?_
  · rw [Setting.toSetting_answering]
    split
    · exact encloses.note _ together
    · exact together
  refine Simulates.bind ?_ fun result => simulates_ofExcept _
  have invoked := simulates_invoke encloses (by rfl)
    (functionsAlike_extended (answersAlike_extended setting interprets) function).callable
    False.elim (bodies level) arguments (hint <|> function.signature.defaultHint)
  rw [atCallDepth_eq_bracketed, atCallDepth_eq_bracketed]
  refine (invoked.after_update (fun machine machine' together => ?_)
    fun _ _ _ parted => parted.1.elim).bracketed
      (fun _ _ together => encloses.callDepth _ together)
      fun _ _ _ _ before after => encloses.callDepthBack before after
  exact { together with
    engine := ⟨together.engine.forget, grows _ together.engine.allowed⟩ }

theorem simulates_dispatchRecording
    (interprets : ∀ depth tree,
      (recording permitted).Simulates 0 (interpret depth tree) (interpret' depth tree))
    (grows : ∀ name calls, setting.configuration.isFunctionAllowed name = true →
      permitted calls → permitted (name :: calls))
    (bodies : ∀ level expression,
      (recording permitted).Simulates level (body expression) (body' expression))
    (depth : Nat) (name : String) (hint : Option String) (values : List Value) :
    (recording permitted).Simulates level
      (dispatchRecording setting interpret depth body name hint values)
      (dispatch (setting.answering interpret') depth body' name hint values) := by
  unfold dispatchRecording dispatch
  rw [Setting.toSetting_answering]
  cases may : setting.configuration.isFunctionAllowed name with
  | false => exact simulates_fail _
  | true =>
    rw [Bool.not_true, if_neg Bool.false_ne_true, if_neg Bool.false_ne_true]
    cases setting.functions.get? name with
    | some function =>
      exact simulates_callRecording interprets (fun calls => grows name calls may) bodies depth
        function hint values
    | none =>
      dsimp only
      split
      · exact simulates_fail _
      · exact simulates_pure _

/-- Only functions that may be called are added to the record. -/
theorem simulates_recordingWithin
    (interprets : ∀ depth tree,
      (recording permitted).Simulates 0 (interpret depth tree) (interpret' depth tree))
    (grows : ∀ name calls, setting.configuration.isFunctionAllowed name = true →
      permitted calls → permitted (name :: calls))
    (levels level : Nat) (expression : Expression) :
    (recording permitted).Simulates level (recordingWithin setting interpret levels expression)
      (evaluateWithin (setting.answering interpret') levels expression) := by
  -- The body of a function lies two levels deeper, so the induction reaches further back.
  induction levels using Nat.strongRecOn generalizing level expression with
  | ind levels inductionHypothesis =>
    cases levels with
    | zero => exact simulates_fail _
    | succ levels =>
      have fits : (recording permitted).Fits (setting.extended.answering interpret)
          (setting.answering interpret') :=
        fits_alike (EngineState.survivesNotes_extends permitted) rfl rfl rfl rfl
      have reads : ∀ name, (recording permitted).Simulates level
          (readVariable (setting.extended : Setting (Calls × Memory)) name)
          (readVariable setting name) :=
        readVariable_alike (by rfl)
      rw [evaluateWithin_succ, recordingWithin_succ, step_eq]
      refine (fits.records.visit rfl rfl _ rfl).bind fun _ => ?_
      refine simulates_stepWith fits.suits level expression
        (fun level part _ => inductionHypothesis levels levels.lt_succ_self level part)
        (fun name _ => sees_alike name) (fun name _ => reads name)
        (simulates_dispatchRecording interprets grows ?_ _)
      cases levels with
      | zero => exact fun _ _ => simulates_fail _
      | succ deeper => exact inductionHypothesis deeper (by omega)

theorem simulates_recordingFor
    (grows : ∀ name calls, setting.configuration.isFunctionAllowed name = true →
      permitted calls → permitted (name :: calls))
    (nestings depth : Nat) (tree : Expression) :
    (recording permitted).Simulates 0 (recordingFor setting nestings depth tree)
      (interpretWithin setting nestings depth tree) := by
  induction nestings generalizing depth tree with
  | zero => exact simulates_fail _
  | succ nestings inductionHypothesis =>
    exact simulates_recordingWithin inductionHypothesis grows _ 0 tree

end Coupling

/-- A recorded evaluation comes to what the evaluation comes to and leaves the same machine but
for its record, in which there are only functions that may be called. -/
theorem Evaluation.evaluateRecording_eq_evaluate (setting : Setting Memory) (depth : Nat)
    (expression : Expression) (machine : Machine Memory) :
    ∃ calls : Calls,
      evaluateRecording setting depth expression (machine.extend []) =
          ((evaluate setting depth expression machine).1,
            (evaluate setting depth expression machine).2.extend calls) ∧
        ∀ name ∈ calls, setting.configuration.isFunctionAllowed name = true := by
  have grows : ∀ name (calls : Calls), setting.configuration.isFunctionAllowed name = true →
      (∀ called ∈ calls, setting.configuration.isFunctionAllowed called = true) →
        ∀ called ∈ name :: calls, setting.configuration.isFunctionAllowed called = true :=
    fun _ _ may permitted => List.forall_mem_cons.2 ⟨may, permitted⟩
  rcases ((Coupling.simulates_recordingWithin
    (Coupling.simulates_recordingFor grows setting.nestings) grows (setting.depthLimit + 1 - depth)
    0 expression).1 (machine.extend []) machine ⟨rfl, rfl, rfl, rfl, rfl, nofun⟩).equal
      fun _ _ => id with ⟨same, alike⟩ | parted
  · obtain ⟨calls, permitted, left⟩ := Coupling.eq_extend_of_alike alike
    exact ⟨calls, Prod.ext same left, permitted⟩
  · exact parted.1.elim

/-! ### Functions that may not be called -/

/-- The setting with other functions. -/
def Setting.withFunctions (setting : Setting Memory) (functions : FunctionRegistry Memory) :
    Setting Memory :=
  { setting with functions }

namespace Evaluation

variable {setting : Setting Memory} {functions : FunctionRegistry Memory}
  {interpret : Nat → Expression → Evaluation Memory Value}

theorem runProgram_withFunctions (setting : Setting Memory) (functions : FunctionRegistry Memory)
    (program : HostProgram Memory) :
    runProgram ((setting.withFunctions functions).answering interpret) program =
      runProgram (setting.answering interpret) program := by
  induction program with
  | done result => rfl
  | ask request next inductionHypothesis =>
    show andThen (respond (setting.answering interpret) request) (fun answer =>
      runProgram ((setting.withFunctions functions).answering interpret) (next answer)) = _
    simp only [inductionHypothesis]
    rfl

/-- A call leaves the functions that it does not carry out alone. -/
theorem callFunction_withFunctions (setting : Setting Memory)
    (functions : FunctionRegistry Memory) (depth : Nat)
    (body : Expression → Evaluation Memory Value) (name : String)
    (function : RegisteredFunction Memory) :
    callFunction ((setting.withFunctions functions).answering interpret) depth body name function =
      callFunction (setting.answering interpret) depth body name function := by
  have invoked : invoke ((setting.withFunctions functions).answering interpret) body
      function.callable = invoke (setting.answering interpret) body function.callable := by
    funext arguments hint
    unfold invoke
    cases function.callable with
    | host host => exact runProgram_withFunctions setting functions (host arguments hint)
    | defined parameters inner => rfl
  funext hint values
  unfold callFunction
  rw [invoked]
  rfl

theorem dispatch_withFunctions
    (agree : ∀ name, setting.configuration.isFunctionAllowed name = true →
      functions.get? name = setting.functions.get? name)
    (depth : Nat) (body : Expression → Evaluation Memory Value) :
    dispatch ((setting.withFunctions functions).answering interpret) depth body =
      dispatch (setting.answering interpret) depth body := by
  have sameConfiguration : ((setting.withFunctions functions).answering interpret).configuration =
      (setting.answering interpret).configuration := rfl
  funext name hint values
  unfold dispatch
  rw [sameConfiguration]
  cases may : setting.configuration.isFunctionAllowed name with
  | false =>
    rw [show (setting.answering interpret).configuration.isFunctionAllowed name = false from may]
    rfl
  | true =>
    have same : ((setting.withFunctions functions).answering interpret).functions.get? name =
        (setting.answering interpret).functions.get? name := agree name may
    rw [same]
    cases (setting.answering interpret).functions.get? name with
    | none => rfl
    | some function =>
      dsimp only
      rw [callFunction_withFunctions]

/-- A function that may not be called makes no difference to an evaluation. -/
theorem evaluateWithin_withFunctions
    (agree : ∀ name, setting.configuration.isFunctionAllowed name = true →
      functions.get? name = setting.functions.get? name) (levels : Nat) :
    evaluateWithin ((setting.withFunctions functions).answering interpret) levels =
      evaluateWithin (setting.answering interpret) levels := by
  induction levels using Nat.strongRecOn with
  | ind levels inductionHypothesis =>
    funext expression
    cases levels with
    | zero => rfl
    | succ levels =>
      have bodies : bodyWithin ((setting.withFunctions functions).answering interpret) levels =
          bodyWithin (setting.answering interpret) levels := by
        cases levels with
        | zero => rfl
        | succ deeper => exact inductionHypothesis deeper (by omega)
      rw [evaluateWithin_succ, evaluateWithin_succ, step_eq, step_eq,
        inductionHypothesis levels levels.lt_succ_self, bodies, dispatch_withFunctions agree]
      cases expression <;> rfl

theorem interpretWithin_withFunctions
    (agree : ∀ name, setting.configuration.isFunctionAllowed name = true →
      functions.get? name = setting.functions.get? name) (nestings : Nat) :
    interpretWithin (setting.withFunctions functions) nestings =
      interpretWithin setting nestings := by
  induction nestings with
  | zero => rfl
  | succ nestings inductionHypothesis =>
    funext depth tree
    show evaluateWithin ((setting.withFunctions functions).answering
      (interpretWithin (setting.withFunctions functions) nestings)) _ tree = _
    rw [inductionHypothesis, evaluateWithin_withFunctions agree]
    rfl

theorem evaluate_withFunctions
    (agree : ∀ name, setting.configuration.isFunctionAllowed name = true →
      functions.get? name = setting.functions.get? name) (depth : Nat) (expression : Expression) :
    evaluate (setting.withFunctions functions) depth expression =
      evaluate setting depth expression := by
  show evaluateWithin ((setting.withFunctions functions).answering
    (interpretWithin (setting.withFunctions functions) setting.nestings)) _ expression = _
  rw [interpretWithin_withFunctions agree, evaluateWithin_withFunctions agree]
  rfl

end Evaluation

/-- The name filters let nothing through. Environments that differ in nothing but the bindings of
names that may not be read give the same answer and the same machine but for these bindings. The
functions that are carried out may all be called, and those that may not be called make no
difference. -/
theorem Evaluation.evaluate_filtered (setting : Setting Memory) (depth : Nat)
    (expression : Expression) (machine : Machine Memory) :
    let outcome := evaluate setting depth expression machine
    (∀ environment,
      machine.environment.AgreeWhere setting.configuration.isVariableAllowed environment →
        let outcome' := evaluate setting depth expression { machine with environment }
        outcome'.1 = outcome.1 ∧
          outcome'.2 = { outcome.2 with environment := outcome'.2.environment } ∧
          outcome.2.environment.AgreeWhere setting.configuration.isVariableAllowed
            outcome'.2.environment) ∧
      (∃ calls : Calls,
        evaluateRecording setting depth expression (machine.extend []) =
            (outcome.1, outcome.2.extend calls) ∧
          ∀ name ∈ calls, setting.configuration.isFunctionAllowed name = true) ∧
      ∀ functions : FunctionRegistry Memory,
        (∀ name, setting.configuration.isFunctionAllowed name = true →
          functions.get? name = setting.functions.get? name) →
        evaluate (setting.withFunctions functions) depth expression machine = outcome := by
  refine ⟨fun environment agree => evaluate_agreeWhere setting depth expression machine agree,
    evaluateRecording_eq_evaluate setting depth expression machine, fun functions agree => ?_⟩
  exact congrFun (evaluate_withFunctions agree depth expression) machine

/-- Settings that allow neither the variable `secret` nor the function `visited`. -/
def Configuration.guarded : Configuration :=
  { variableBlacklist := ⟨["secret"], by simp⟩, functionBlacklist := ⟨["visited"], by simp⟩ }

/-- A caller's secret. -/
def Environment.keeping (secret : Value) : Environment :=
  .ofVariables (Dictionary.empty.insert "secret" secret)

/-- The secret stays one in a cast, in an argument and behind a function that may not be called,
which might as well not exist. -/
theorem Evaluation.evaluate_filtered_guarded :
    let setting := Setting.few .guarded
    let expression : Expression :=
      .binary .or (.call "denied" none [.boolean true])
        (.cast "money" (.binding "given" (.cast "money" (.variable "secret")) .unlimited
          (.call "visited" none [.variable "given"])))
    let before := Machine.start (.keeping (.integer 1)) (.initial {} ())
    (Environment.keeping (.integer 1)).AgreeWhere setting.configuration.isVariableAllowed
        (.keeping (.integer 2)) ∧
      (evaluate setting 0 expression { before with environment := .keeping (.integer 2) }).1 =
        (evaluate setting 0 expression before).1 ∧
      (evaluate setting 0 expression before).1 = .error (.variableNotAllowed "secret") ∧
      (evaluateRecording setting 0 expression (before.extend [])).2.engine.memory.1 = ["denied"] ∧
      evaluate (setting.withFunctions (FunctionRegistry.few.unregister "visited")) 0 expression
          before =
        evaluate setting 0 expression before := by
  intro setting expression before
  obtain ⟨environments, -, functions⟩ := evaluate_filtered setting 0 expression before
  have agree : (Environment.keeping (.integer 1)).AgreeWhere
      setting.configuration.isVariableAllowed (.keeping (.integer 2)) := by
    refine ⟨.nil, fun name => ?_⟩
    unfold Environment.keeping Environment.ofVariables
    rw [Dictionary.get?_mapEntries, Dictionary.get?_mapEntries, Dictionary.get?_insert,
      Dictionary.get?_insert]
    split
    next secret =>
      rw [secret]
      exact .some fun may => absurd may (by decide)
    · exact .none
  refine ⟨agree, (environments _ agree).1, by decide +kernel, by decide +kernel,
    functions _ fun name may => ?_⟩
  unfold FunctionRegistry.get? FunctionRegistry.unregister
  rw [Dictionary.get?_erase, if_neg]
  · rfl
  · rintro rfl
    exact absurd may (by decide)

end Reckon
