/-
This file goes through a call of a function once, for all couplings that last
through what a call does around the function: it may find that the result is
not to be kept, leaves a trace, and replaces environment and call depth for a
while. Two calls then go together if the functions do, and the bodies of
functions written in the language.
-/

import Reckon.Proofs.Evaluation.Coupling

namespace Reckon

variable {Memory Memory' : Type}

/-- Whether a request is one for the evaluation of a tree. -/
def Request.IsForTree : Request Memory → Prop
  | .interpret _ _ _ => True
  | _ => False

namespace Coupling

/-- A coupling that lasts through what a call does around the function it calls. -/
structure Encloses (coupling : Coupling Memory Memory') : Prop where
  forbid : ∀ {level machine machine'} (may : Bool), coupling.together level machine machine' →
    coupling.together level { machine with cacheable := machine.cacheable && may }
      { machine' with cacheable := machine'.cacheable && may }
  note : ∀ {level machine machine'} event, coupling.together level machine machine' →
    coupling.together level (machine.note event) (machine'.note event)
  environment : ∀ {level machine machine'} environment, coupling.together level machine machine' →
    coupling.together level { machine with environment } { machine' with environment }
  environmentBack : ∀ {level machine machine' after after'},
    coupling.together level machine machine' → coupling.together level after after' →
      coupling.together level { after with environment := machine.environment }
        { after' with environment := machine'.environment }
  callDepth : ∀ {level machine machine'} callDepth, coupling.together level machine machine' →
    coupling.together level { machine with callDepth } { machine' with callDepth }
  callDepthBack : ∀ {level machine machine' after after'},
    coupling.together level machine machine' → coupling.together level after after' →
      coupling.together level { after with callDepth := machine.callDepth }
        { after' with callDepth := machine'.callDepth }
  keepsForbid : ∀ {machine failure machine'} (may : Bool),
    coupling.parted machine failure machine' →
      coupling.parted { machine with cacheable := machine.cacheable && may } failure machine'
  keepsNote : ∀ {machine failure machine'} event, coupling.parted machine failure machine' →
    coupling.parted (machine.note event) failure machine'

/-- Callables that do alike in both runs: the same definition, or host functions whose programs
do alike. Host functions may be left out where the runs part before they are called. -/
inductive CallablesAlike (coupling : Coupling Memory Memory') (setting : NestedSetting Memory)
    (setting' : NestedSetting Memory') (called : Prop) :
    Callable Memory → Callable Memory' → Prop where
  | host {function : HostFunction Memory} {function' : HostFunction Memory'}
      (keeps : ∀ arguments hint,
        coupling.Keeps (Evaluation.runProgram setting (function arguments hint)))
      (simulates : called → ∀ level arguments hint, coupling.Simulates level
        (Evaluation.runProgram setting (function arguments hint))
        (Evaluation.runProgram setting' (function' arguments hint))) :
      CallablesAlike coupling setting setting' called (.host function) (.host function')
  | defined (parameters : List String) (body : Expression) :
      CallablesAlike coupling setting setting' called (.defined parameters body)
        (.defined parameters body)

/-- What a call does after its arguments are coerced and it is known whether the result may be
kept: it leaves a trace, carries out the function and coerces the result. -/
def invokeTraced (setting : NestedSetting Memory) (depth : Nat)
    (body : Expression → Evaluation Memory Value) (name : String)
    (function : RegisteredFunction Memory) (hint : Option String) (arguments : List Value) :
    Evaluation Memory Value := do
  Evaluation.update fun machine =>
    if setting.configuration.debugMode then machine.note (.called name arguments.length hint)
    else machine
  let result ← Evaluation.atCallDepth depth
    (Evaluation.invoke setting body function.callable arguments hint)
  Evaluation.ofExcept (setting.types.coerce .function function.signature.returns result)

theorem callFunction_eq (setting : NestedSetting Memory) (depth : Nat)
    (body : Expression → Evaluation Memory Value) (name : String)
    (function : RegisteredFunction Memory) (hint : Option String) (values : List Value) :
    Evaluation.callFunction setting depth body name function hint values =
      (do
        let arguments ← Evaluation.ofExcept
          (Evaluation.coerceArguments setting.types name function.signature values)
        Evaluation.update fun machine =>
          { machine with cacheable := machine.cacheable && function.signature.cacheable }
        invokeTraced setting depth body name function
          (hint <|> function.signature.defaultHint) arguments) := rfl

variable {coupling : Coupling Memory Memory'} {setting : NestedSetting Memory}
  {setting' : NestedSetting Memory'} {level : Nat} {body : Expression → Evaluation Memory Value}
  {body' : Expression → Evaluation Memory' Value}

/-! ### Programs of host functions -/

/-- Carries out a program of a host function with a way to answer its requests. -/
def runWith (answer : (request : Request Memory) → Evaluation Memory' request.Answer) :
    HostProgram Memory → Evaluation Memory' Value
  | .done result => Evaluation.ofExcept result
  | .ask request next =>
    Evaluation.andThen (answer request) fun given => runWith answer (next given)

theorem runProgram_eq_runWith (setting : NestedSetting Memory) (program : HostProgram Memory) :
    Evaluation.runProgram setting program = runWith (Evaluation.respond setting) program := by
  induction program with
  | done result => rfl
  | ask request next inductionHypothesis =>
    exact congrArg (Evaluation.andThen (Evaluation.respond setting request))
      (funext inductionHypothesis)

theorem keeps_runWith {Host : Type} {coupling : Coupling Memory Memory'}
    {answer : (request : Request Host) → Evaluation Memory request.Answer}
    (keeps : ∀ request, coupling.Keeps (answer request)) (program : HostProgram Host) :
    coupling.Keeps (runWith answer program) := by
  induction program with
  | done result => exact keeps_ofExcept result
  | ask request next inductionHypothesis => exact (keeps request).bind inductionHypothesis

/-- A program goes together with itself if its requests are answered alike. -/
theorem simulates_runWith {Host : Type} {coupling : Coupling Memory Memory'}
    {answer : (request : Request Host) → Evaluation Memory request.Answer}
    {answer' : (request : Request Host) → Evaluation Memory' request.Answer}
    (answers : ∀ request, coupling.Simulates level (answer request) (answer' request))
    (program : HostProgram Host) :
    coupling.Simulates level (runWith answer program) (runWith answer' program) := by
  induction program with
  | done result => exact simulates_ofExcept result
  | ask request next inductionHypothesis => exact (answers request).bind inductionHypothesis

/-! ### Evaluations for host functions -/

theorem Keeps.attempt {Result : Type} {action : Evaluation Memory Result}
    (keeps : coupling.Keeps action) : coupling.Keeps (Evaluation.attempt action) := by
  intro machine failure machine' parted
  exact keeps machine failure machine' parted

/-- What is handed on goes together if the evaluations do, in machines with one environment. Runs
that have parted stay so if the second one is seen to have ended and goes on. -/
theorem Simulates.attempt {Result : Type} {first : Evaluation Memory Result}
    {second : Evaluation Memory' Result} (simulates : coupling.Simulates level first second)
    (same : ∀ error error', ¬ coupling.errors error error')
    (environment : ∀ machine machine', coupling.together level machine machine' →
      machine.environment = machine'.environment)
    (goesOn : ∀ machine failure machine', coupling.parted machine failure machine' →
      coupling.parted machine none machine') :
    coupling.Simulates level (Evaluation.attempt first) (Evaluation.attempt second) := by
  refine ⟨fun machine machine' together => ?_, simulates.2.attempt⟩
  have agree := (simulates.1 machine machine' together).equal same
  unfold Evaluation.attempt
  rcases outcome : first machine with ⟨answer, after⟩
  rcases outcome' : second machine' with ⟨answer', after'⟩
  rw [outcome, outcome'] at agree
  dsimp only at agree ⊢
  rcases agree with ⟨rfl, together⟩ | parted
  · rw [environment after after' together]
    exact Or.inl ⟨.same _, together⟩
  · refine Or.inr ?_
    show coupling.parted after (failure? (if Evaluation.isOver answer' = true then
      Except.ok (answer', after'.environment) else .error .unfinished)) after'
    split
    · exact goesOn _ _ _ parted
    next goesOn' =>
      obtain rfl : answer' = .error .unfinished := by
        unfold Evaluation.isOver at goesOn'
        split at goesOn'
        · rfl
        · exact absurd rfl goesOn'
      exact parted

/-- Two settings whose evaluators of trees for host functions go together. -/
def InterpretsAlike (coupling : Coupling Memory Memory') (setting : NestedSetting Memory)
    (setting' : NestedSetting Memory') : Prop :=
  ∀ depth tree, coupling.Simulates 0 (setting.interpret depth tree) (setting'.interpret depth tree)

theorem keeps_interpret
    (keeps : ∀ depth tree, coupling.Keeps (setting.interpret depth tree)) (tree : Expression)
    (environment : Environment) (depth : Nat) :
    coupling.Keeps (Evaluation.respond setting (.interpret tree environment depth)) :=
  (keeps depth tree).attempt.bracketed (fun machine => (environment, machine.callDepth))
    fun machine after => (machine.environment, after.callDepth)

/-- An evaluation for a host function goes together in a coupling if it does in a coupling of runs
in one environment, which holds inside. -/
theorem simulates_interpret {inner : Coupling Memory Memory'}
    (interprets : inner.InterpretsAlike setting setting')
    (same : ∀ error error', ¬ inner.errors error error')
    (sameEnvironment : ∀ machine machine', inner.together 0 machine machine' →
      machine.environment = machine'.environment)
    (goesOn : ∀ machine failure machine', inner.parted machine failure machine' →
      inner.parted machine none machine')
    (errors : coupling.errors = inner.errors) (parted : coupling.parted = inner.parted)
    (entering : ∀ machine machine' environment, coupling.together level machine machine' →
      inner.together 0 { machine with environment } { machine' with environment })
    (leaving : ∀ machine machine' after after', coupling.together level machine machine' →
      inner.together 0 after after' →
      coupling.together level { after with environment := machine.environment }
        { after' with environment := machine'.environment })
    (tree : Expression) (environment : Environment) (depth : Nat) :
    coupling.Simulates level
      (Evaluation.respond setting (.interpret tree environment depth))
      (Evaluation.respond setting' (.interpret tree environment depth)) := by
  have attempted := (interprets depth tree).attempt same sameEnvironment goesOn
  have inside : coupling.Simulates level
      (Evaluation.inEnvironment environment (Evaluation.attempt (setting.interpret depth tree)))
      (Evaluation.inEnvironment environment
        (Evaluation.attempt (setting'.interpret depth tree))) := by
    rw [inEnvironment_eq_bracketed, inEnvironment_eq_bracketed]
    exact attempted.bracketed_into errors parted
      (fun machine machine' together => entering machine machine' environment together) leaving
  exact inside

/-! ### Calls after the runs have parted -/

theorem keeps_invoke {called : Prop} {callable : Callable Memory} {callable' : Callable Memory'}
    (callables : CallablesAlike coupling setting setting' called callable callable')
    (bodies : ∀ expression, coupling.Keeps (body expression)) (arguments : List Value)
    (hint : Option String) :
    coupling.Keeps (Evaluation.invoke setting body callable arguments hint) := by
  cases callables with
  | host keeps _ => exact keeps arguments hint
  | defined parameters inner =>
    refine Keeps.bind ?_ fun result => ?_
    · rw [inEnvironment_eq_bracketed]
      exact (bodies inner).bracketed _ _
    · cases hint with
      | none => exact keeps_pure _
      | some typeName => exact keeps_ofExcept _

theorem keeps_invokeTraced (encloses : coupling.Encloses) {function : RegisteredFunction Memory}
    {hint : Option String} {arguments : List Value}
    (keeps : coupling.Keeps (Evaluation.invoke setting body function.callable arguments hint))
    (depth : Nat) (name : String) :
    coupling.Keeps (invokeTraced setting depth body name function hint arguments) := by
  refine Keeps.bind (fun machine failure machine' parted => ?_) fun _ => ?_
  · unfold Evaluation.update
    dsimp only
    split
    · exact encloses.keepsNote _ parted
    · exact parted
  · refine Keeps.bind ?_ fun result => keeps_ofExcept _
    rw [atCallDepth_eq_bracketed]
    exact keeps.bracketed _ _

/-! ### Calls that go together -/

theorem simulates_invoke (encloses : coupling.Encloses) (types : setting'.types = setting.types)
    {called : Prop} {callable : Callable Memory} {callable' : Callable Memory'}
    (callables : CallablesAlike coupling setting setting' called callable callable')
    (holds : called)
    (bodies : ∀ expression, coupling.Simulates level (body expression) (body' expression))
    (arguments : List Value) (hint : Option String) :
    coupling.Simulates level (Evaluation.invoke setting body callable arguments hint)
      (Evaluation.invoke setting' body' callable' arguments hint) := by
  cases callables with
  | host _ simulates => exact simulates holds level arguments hint
  | defined parameters inner =>
    refine Simulates.bind ?_ fun result => ?_
    · rw [inEnvironment_eq_bracketed, inEnvironment_eq_bracketed]
      exact (bodies inner).bracketed (fun _ _ together => encloses.environment _ together)
        fun _ _ _ _ before after => encloses.environmentBack before after
    · cases hint with
      | none => exact simulates_pure _
      | some typeName =>
        dsimp only
        rw [types]
        exact simulates_ofExcept _

/-- A function may be carried out at two depths, if the machines go together at these depths. -/
theorem simulates_invokeTraced_of_enters (encloses : coupling.Encloses)
    (debugMode : setting'.configuration.debugMode = setting.configuration.debugMode)
    (types : setting'.types = setting.types) {function : RegisteredFunction Memory}
    {function' : RegisteredFunction Memory'} (signature : function'.signature = function.signature)
    {hint : Option String} {arguments : List Value}
    (simulates : coupling.Simulates level
      (Evaluation.invoke setting body function.callable arguments hint)
      (Evaluation.invoke setting' body' function'.callable arguments hint))
    {depth depth' : Nat}
    (enters : ∀ machine machine', coupling.together level machine machine' →
      coupling.together level { machine with callDepth := depth }
        { machine' with callDepth := depth' })
    (name : String) :
    coupling.Simulates level (invokeTraced setting depth body name function hint arguments)
      (invokeTraced setting' depth' body' name function' hint arguments) := by
  unfold invokeTraced
  rw [debugMode, types, signature]
  refine Simulates.bind (simulates_update (fun machine machine' together => ?_)
    fun machine failure machine' parted => ?_) fun _ => ?_
  · split
    · exact encloses.note _ together
    · exact together
  · split
    · exact encloses.keepsNote _ parted
    · exact parted
  · refine Simulates.bind ?_ fun result => simulates_ofExcept _
    rw [atCallDepth_eq_bracketed, atCallDepth_eq_bracketed]
    exact simulates.bracketed enters
      fun _ _ _ _ before after => encloses.callDepthBack before after

theorem simulates_invokeTraced (encloses : coupling.Encloses)
    (debugMode : setting'.configuration.debugMode = setting.configuration.debugMode)
    (types : setting'.types = setting.types) {function : RegisteredFunction Memory}
    {function' : RegisteredFunction Memory'} (signature : function'.signature = function.signature)
    {hint : Option String} {arguments : List Value}
    (simulates : coupling.Simulates level
      (Evaluation.invoke setting body function.callable arguments hint)
      (Evaluation.invoke setting' body' function'.callable arguments hint))
    (depth : Nat) (name : String) :
    coupling.Simulates level (invokeTraced setting depth body name function hint arguments)
      (invokeTraced setting' depth body' name function' hint arguments) :=
  simulates_invokeTraced_of_enters encloses debugMode types signature simulates
    (fun _ _ together => encloses.callDepth _ together) name

/-- Functions of one signature are called alike, at two depths, if what carries them out does
alike and the machines go together at these depths. -/
theorem simulates_callFunction_of_enters (encloses : coupling.Encloses)
    (debugMode : setting'.configuration.debugMode = setting.configuration.debugMode)
    (types : setting'.types = setting.types) {function : RegisteredFunction Memory}
    {function' : RegisteredFunction Memory'} (signature : function'.signature = function.signature)
    (callables : CallablesAlike coupling setting setting' True function.callable
      function'.callable)
    (bodies : ∀ level expression, coupling.Simulates level (body expression) (body' expression))
    {depth depth' : Nat}
    (enters : ∀ machine machine', coupling.together level machine machine' →
      coupling.together level { machine with callDepth := depth }
        { machine' with callDepth := depth' })
    (name : String) (hint : Option String) (values : List Value) :
    coupling.Simulates level
      (Evaluation.callFunction setting depth body name function hint values)
      (Evaluation.callFunction setting' depth' body' name function' hint values) := by
  rw [callFunction_eq, callFunction_eq, signature, types]
  refine (simulates_ofExcept _).bind fun arguments => ?_
  refine Simulates.bind (simulates_update (fun _ _ together => encloses.forbid _ together)
    fun _ _ _ parted => encloses.keepsForbid _ parted) fun _ => ?_
  exact simulates_invokeTraced_of_enters encloses debugMode types signature
    (simulates_invoke encloses types callables trivial (bodies level) arguments _) enters name

/-- Functions of one signature are called alike if what carries them out does alike. -/
theorem simulates_callFunction_of_callable (encloses : coupling.Encloses)
    (debugMode : setting'.configuration.debugMode = setting.configuration.debugMode)
    (types : setting'.types = setting.types) {function : RegisteredFunction Memory}
    {function' : RegisteredFunction Memory'} (signature : function'.signature = function.signature)
    (callables : CallablesAlike coupling setting setting' True function.callable
      function'.callable)
    (bodies : ∀ level expression, coupling.Simulates level (body expression) (body' expression))
    (depth : Nat) (name : String) (hint : Option String) (values : List Value) :
    coupling.Simulates level
      (Evaluation.callFunction setting depth body name function hint values)
      (Evaluation.callFunction setting' depth body' name function' hint values) :=
  simulates_callFunction_of_enters encloses debugMode types signature callables bodies
    (fun _ _ together => encloses.callDepth _ together) name hint values

end Coupling

end Reckon
