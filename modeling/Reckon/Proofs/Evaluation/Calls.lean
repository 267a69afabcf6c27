/-
This file shows that a call whose arguments are evaluated does not see the
environment around it. A host function cannot ask for it, and the body of a
function written in the language has an environment of its own. So the call
comes to the same in every environment, and leaves it as it was.

The body of a function runs at the depth of its call, which the machine holds
for as long. Afterwards the depth of the call around it is back.
-/

import Reckon.Proofs.Evaluation.Alike

namespace Reckon

variable {Memory Result Other : Type}

namespace Evaluation

/-- A computation that does not see the environment. -/
def IsBlind (action : Evaluation Memory Result) : Prop :=
  ∀ machine environment, action { machine with environment } =
    ((action machine).1, { (action machine).2 with environment })

theorem IsBlind.environment {action : Evaluation Memory Result} (blind : action.IsBlind)
    (machine : Machine Memory) : (action machine).2.environment = machine.environment := by
  have same := blind machine machine.environment
  exact (congrArg (fun pair => pair.2.environment) same :)

theorem isBlind_pure (result : Result) : (pure result : Evaluation Memory Result).IsBlind :=
  fun _ _ => rfl

theorem isBlind_ofExcept (result : Except EvaluationError Result) :
    (ofExcept result : Evaluation Memory Result).IsBlind :=
  fun _ _ => rfl

theorem isBlind_fail (error : EvaluationError) :
    (fail error : Evaluation Memory Result).IsBlind :=
  fun _ _ => rfl

theorem IsBlind.bind {action : Evaluation Memory Result} {next : Result → Evaluation Memory Other}
    (blind : action.IsBlind) (nextBlind : ∀ result, (next result).IsBlind) :
    (action >>= next).IsBlind := by
  intro machine environment
  show andThen action next { machine with environment } =
    ((andThen action next machine).1, { (andThen action next machine).2 with environment })
  unfold andThen
  rw [blind machine environment]
  rcases action machine with ⟨error | result, after⟩
  · rfl
  · exact nextBlind result after environment

theorem IsBlind.atCallDepth {action : Evaluation Memory Result} (blind : action.IsBlind)
    (depth : Nat) : (atCallDepth depth action).IsBlind := by
  intro machine environment
  unfold Evaluation.atCallDepth
  rw [show action { machine with environment, callDepth := depth } = _ from
    blind { machine with callDepth := depth } environment]

/-- Whatever is done in an environment of its own does not see the one around it. -/
theorem isBlind_inEnvironment (own : Environment) (action : Evaluation Memory Result) :
    (inEnvironment own action).IsBlind :=
  fun _ _ => rfl

theorem isBlind_respond (setting : NestedSetting Memory) (request : Request Memory) :
    (respond setting request).IsBlind := by
  intro machine environment
  cases request <;> rfl

theorem isBlind_runProgram (setting : NestedSetting Memory) (program : HostProgram Memory) :
    (runProgram setting program).IsBlind := by
  induction program with
  | done result => exact isBlind_ofExcept result
  | ask request next inductionHypothesis =>
    exact (isBlind_respond setting request).bind inductionHypothesis

theorem isBlind_invoke (setting : NestedSetting Memory)
    (body : Expression → Evaluation Memory Value) (callable : Callable Memory)
    (arguments : List Value) (hint : Option String) :
    (invoke setting body callable arguments hint).IsBlind := by
  cases callable with
  | host function => exact isBlind_runProgram setting _
  | defined parameters inner =>
    refine (isBlind_inEnvironment _ _).bind fun result => ?_
    cases hint with
    | none => exact isBlind_pure result
    | some typeName => exact isBlind_ofExcept _

/-- A call does not see the environment around it. -/
theorem isBlind_callFunction (setting : NestedSetting Memory) (depth : Nat)
    (body : Expression → Evaluation Memory Value) (name : String)
    (function : RegisteredFunction Memory) (hint : Option String) (values : List Value) :
    (callFunction setting depth body name function hint values).IsBlind := by
  refine (isBlind_ofExcept _).bind fun arguments => ?_
  refine IsBlind.bind (fun _ _ => rfl) fun _ => ?_
  refine IsBlind.bind (fun machine environment => ?_) fun _ => ?_
  · unfold update
    dsimp only
    split <;> rfl
  · exact ((isBlind_invoke setting body _ arguments _).atCallDepth depth).bind fun result =>
      isBlind_ofExcept _

/-- A call does not see the environment around it, whether the function may be called and is known
or not. -/
theorem isBlind_dispatch (setting : NestedSetting Memory) (depth : Nat)
    (body : Expression → Evaluation Memory Value) (name : String) (hint : Option String)
    (values : List Value) : (dispatch setting depth body name hint values).IsBlind := by
  unfold dispatch
  split
  · exact isBlind_fail _
  · split
    · exact isBlind_callFunction setting depth body name _ hint values
    · split
      · exact isBlind_fail _
      · exact isBlind_pure _

/-- Counting a visit does not take the environment into account either. -/
theorem isBlind_visit (setting : Setting Memory) (depth : Nat) (expression : Expression) :
    (visit setting depth expression).IsBlind := by
  intro machine environment
  unfold visit
  dsimp only
  split
  · rfl
  · split <;> rfl

/-! ### Functions written in the language -/

/-- What is only a change of the result may as well take place at the depth around. -/
theorem atCallDepth_bind_ofExcept (depth : Nat) (action : Evaluation Memory Result)
    (change : Result → Except EvaluationError Other) :
    atCallDepth depth (do
        let result ← action
        ofExcept (change result)) =
      (do
        let result ← atCallDepth depth action
        ofExcept (change result)) := by
  funext machine
  show atCallDepth depth (andThen action fun result => ofExcept (change result)) machine =
    andThen (atCallDepth depth action) (fun result => ofExcept (change result)) machine
  unfold andThen atCallDepth
  dsimp only
  rcases action { machine with callDepth := depth } with ⟨error | result, after⟩ <;> rfl

/-- A function that is defined without a type of its result gives what its body comes to, cast into
the type of the hint if there is one. -/
theorem invokeTraced_toFunction {definition : FunctionDefinition}
    (returnType : definition.returnType = none) (setting : NestedSetting Memory) (depth : Nat)
    (body : Expression → Evaluation Memory Value) (name : String) (hint : Option String)
    (arguments : List Value) :
    Coupling.invokeTraced setting depth body name definition.toFunction hint arguments =
      (do
        update fun machine =>
          if setting.configuration.debugMode then
            machine.note (.called name arguments.length hint)
          else machine
        let result ← atCallDepth depth (inEnvironment
          (parameterEnvironment (definition.parameters.map Prod.fst) arguments)
          (body definition.body))
        ofExcept (hint.elim (.ok result) (setting.types.coerceTo result))) := by
  have returns : definition.signature.returns = .any := by
    unfold FunctionDefinition.signature
    rw [returnType]
    rfl
  have passesOn : ∀ result, (ofExcept (setting.types.coerce .function definition.signature.returns
      result) : Evaluation Memory Value) = pure result := by
    rw [returns]
    exact fun _ => rfl
  have invoked : atCallDepth depth
      (invoke setting body (definition.toFunction : RegisteredFunction Memory).callable arguments
        hint) =
        (do
          let result ← atCallDepth depth (inEnvironment
            (parameterEnvironment (definition.parameters.map Prod.fst) arguments)
            (body definition.body))
          ofExcept (hint.elim (.ok result) (setting.types.coerceTo result))) := by
    rw [← atCallDepth_bind_ofExcept]
    cases hint <;> rfl
  unfold Coupling.invokeTraced
  dsimp only [FunctionDefinition.toFunction] at invoked ⊢
  simp only [passesOn, bind_pure, invoked]

/-! ### The depth of the call around -/

/-- A computation after which the call depth is what it was. -/
def RestoresCallDepth (action : Evaluation Memory Result) : Prop :=
  ∀ machine, (action machine).2.callDepth = machine.callDepth

theorem RestoresCallDepth.bind {action : Evaluation Memory Result}
    {next : Result → Evaluation Memory Other} (restores : action.RestoresCallDepth)
    (nextRestores : ∀ result, (next result).RestoresCallDepth) :
    (action >>= next).RestoresCallDepth := by
  intro machine
  show (andThen action next machine).2.callDepth = machine.callDepth
  have before := restores machine
  unfold andThen
  rcases outcome : action machine with ⟨error | result, after⟩
  · rw [outcome] at before
    exact before
  · rw [outcome] at before
    exact (nextRestores result after).trans before

/-- A call puts the depth of the call around it back, whatever its body does. -/
theorem restoresCallDepth_callFunction (setting : NestedSetting Memory) (depth : Nat)
    (body : Expression → Evaluation Memory Value) (name : String)
    (function : RegisteredFunction Memory) (hint : Option String) (values : List Value) :
    (callFunction setting depth body name function hint values).RestoresCallDepth := by
  refine RestoresCallDepth.bind (fun _ => rfl) fun arguments => ?_
  refine RestoresCallDepth.bind (fun _ => rfl) fun _ => ?_
  refine RestoresCallDepth.bind (fun machine => ?_) fun _ => ?_
  · unfold update
    dsimp only
    split <;> rfl
  · exact RestoresCallDepth.bind (fun _ => rfl) fun _ _ => rfl

/-- A call asks for the evaluation of a body on machines at its own depth only. -/
theorem callFunction_congr (setting : NestedSetting Memory) {depth : Nat}
    {body body' : Expression → Evaluation Memory Value}
    (same : ∀ expression machine, machine.callDepth = depth →
      body expression machine = body' expression machine)
    (name : String) (function : RegisteredFunction Memory) (hint : Option String)
    (values : List Value) :
    callFunction setting depth body name function hint values =
      callFunction setting depth body' name function hint values := by
  have invoked : ∀ arguments hint,
      atCallDepth depth (invoke setting body function.callable arguments hint) =
        atCallDepth depth (invoke setting body' function.callable arguments hint) := by
    intro arguments hint
    funext machine
    unfold atCallDepth invoke
    cases function.callable with
    | host function => rfl
    | defined parameters inner =>
      have entered := same inner
        { machine with
          callDepth := depth, environment := parameterEnvironment parameters arguments } rfl
      dsimp only [bind, andThen, inEnvironment]
      rw [entered]
  unfold callFunction
  simp only [invoked]

end Evaluation

end Reckon
