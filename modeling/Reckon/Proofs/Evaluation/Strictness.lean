/-
This file shows that strict mode makes a difference to undefined names only. A
strict evaluation is watched: where it turns out that a name is not defined,
and the evaluation ends for that, the name is noted in an extension of the host
memory. An error that a function of the host or an operation raises is not
noted, even if it says that a name is undefined.

If no name is noted, the evaluation outside strict mode has come to the same
all the way. Otherwise it goes on where the strict one has ended.

A host function may ask for an evaluation that ends at an undefined name. It has
to pass the error on; if it makes something else of it, the modes can be told
apart by what it gives.
-/

import Reckon.Proofs.Evaluation.Extended
import Reckon.Proofs.Evaluation.Overlooked
import Reckon.Proofs.Evaluation.Pace

namespace Reckon

variable {Memory : Type}

/-- The setting with strict mode on or off. -/
def Setting.withStrictMode (setting : Setting Memory) (on : Bool) : Setting Memory :=
  { setting with configuration := { setting.configuration with strictMode := on } }

/-- Settings that differ at most in strict mode. -/
def Configuration.SameButStrictMode (first second : Configuration) : Prop :=
  second = { first with strictMode := second.strictMode }

/-! ### The watched evaluation -/

/-- A name that turns out to be undefined. -/
inductive UndefinedName where
  | variable (name : String)
  | function (name : String)
  deriving DecidableEq

namespace UndefinedName

/-- The error in which a strict evaluation ends at an undefined name. -/
def error : UndefinedName → EvaluationError
  | .variable name => .undefinedVariable name
  | .function name => .undefinedFunction name

end UndefinedName

/-- Whether an error is that of an undefined name. -/
def EvaluationError.IsOfUndefinedName : EvaluationError → Prop
  | .undefinedVariable _ | .undefinedFunction _ => True
  | _ => False

/-- The undefined name at which an evaluation has ended, if it has. -/
abbrev Note := Option UndefinedName

namespace Evaluation

/-- Ends the evaluation at an undefined name and notes the name. -/
def endAt (undefined : UndefinedName) : Evaluation (Note × Memory) Value :=
  fun machine =>
    (.error undefined.error,
      { machine with
        engine := { machine.engine with memory := (some undefined, machine.engine.memory.2) } })

/-- Reads a variable in strict mode and notes it if it is undefined. -/
def readNoting (setting : Setting Memory) (name : String) : Evaluation (Note × Memory) Value :=
  fun machine =>
    if setting.configuration.isVariableAllowed name && !machine.environment.contains name then
      endAt (.variable name) machine
    else readVariable (setting.withStrictMode true).extended name machine

theorem readVariable_of_undefined {setting : Setting Memory} {name : String}
    {machine : Machine Memory}
    (undefined : (setting.configuration.isVariableAllowed name &&
      !machine.environment.contains name) = true) :
    readVariable (setting.withStrictMode true) name machine =
      (.error (.undefinedVariable name), machine) := by
  obtain ⟨allowed, unbound⟩ := Bool.and_eq_true_iff.1 undefined
  have sameRule : (setting.withStrictMode true).configuration.isVariableAllowed name =
      setting.configuration.isVariableAllowed name := rfl
  unfold readVariable
  rw [sameRule, allowed, if_neg (by decide), if_neg (by simpa using unbound)]
  rfl

/-- A variable that is not undefined is read in one way whatever the mode. -/
theorem readVariable_of_defined {setting : Setting Memory} {name : String}
    {machine : Machine Memory}
    (defined : (setting.configuration.isVariableAllowed name &&
      !machine.environment.contains name) = false) (on : Bool) :
    readVariable (setting.withStrictMode on) name machine =
      readVariable (setting.withStrictMode true) name machine := by
  have sameRule : ∀ on, (setting.withStrictMode on).configuration.isVariableAllowed name =
      setting.configuration.isVariableAllowed name := fun _ => rfl
  unfold readVariable
  rw [sameRule, sameRule]
  split
  · rfl
  next allowed =>
    have bound : machine.environment.contains name = true := by simp_all
    rw [if_pos bound, if_pos bound]

/-- A function that is known and may be called is called. -/
theorem dispatch_of_known {setting : NestedSetting Memory} {name : String}
    {function : RegisteredFunction Memory}
    (allowed : setting.configuration.isFunctionAllowed name = true)
    (known : setting.functions.get? name = some function) (depth : Nat)
    (body : Expression → Evaluation Memory Value) (hint : Option String) (values : List Value) :
    dispatch setting depth body name hint values =
      callFunction setting depth body name function hint values := by
  unfold dispatch
  rw [allowed, known]
  rfl

theorem dispatch_of_refused {setting : NestedSetting Memory} {name : String}
    (refused : setting.configuration.isFunctionAllowed name = false) (depth : Nat)
    (body : Expression → Evaluation Memory Value) (hint : Option String) (values : List Value) :
    dispatch setting depth body name hint values = fail (.functionNotAllowed name) := by
  unfold dispatch
  rw [refused]
  rfl

theorem dispatch_of_undefined {setting : NestedSetting Memory} {name : String}
    (strict : setting.configuration.strictMode = true)
    (undefined : (setting.configuration.isFunctionAllowed name &&
      (setting.functions.get? name).isNone) = true) (depth : Nat)
    (body : Expression → Evaluation Memory Value) (hint : Option String) (values : List Value) :
    dispatch setting depth body name hint values = fail (.undefinedFunction name) := by
  obtain ⟨allowed, unknown⟩ := Bool.and_eq_true_iff.1 undefined
  unfold dispatch
  rw [allowed, Option.isNone_iff_eq_none.1 unknown, strict]
  rfl

section Rules

variable (setting : Setting Memory)
  (interpret : Nat → Expression → Evaluation (Note × Memory) Value)

/-- Carries out a call in strict mode and notes the function if it is undefined. The trees that
host functions ask about are evaluated in a way that is given. -/
def dispatchNoting (depth : Nat) (evaluateBody : Expression → Evaluation (Note × Memory) Value)
    (name : String) (hint : Option String) (values : List Value) :
    Evaluation (Note × Memory) Value :=
  if setting.configuration.isFunctionAllowed name && (setting.functions.get? name).isNone then
    endAt (.function name)
  else
    dispatch ((setting.withStrictMode true).extended.answering interpret) depth evaluateBody name
      hint values

/-- Evaluates an expression in strict mode with so many levels left, and notes the undefined name
that it ends at. -/
def notingWithin : Nat → Expression → Evaluation (Note × Memory) Value
  | 0, _ => fail (.depthExceeded setting.depthLimit)
  | levels + 1, expression => do
    let depth := setting.depthLimit - levels
    let evaluateBody : Expression → Evaluation (Note × Memory) Value :=
      match levels with
      | 0 => fun _ => fail (.depthExceeded setting.depthLimit)
      | deeper + 1 => notingWithin deeper
    visit (setting.withStrictMode true).extended depth expression
    stepWith (setting.extended.answering interpret) (readNoting setting)
      (dispatchNoting setting interpret (depth + 1) evaluateBody) (notingWithin levels) expression

/-- The watched evaluation of the bodies of functions called from a node with so many levels
left. -/
def bodyNoting : Nat → Expression → Evaluation (Note × Memory) Value
  | 0 => fun _ => fail (.depthExceeded setting.depthLimit)
  | deeper + 1 => notingWithin setting interpret deeper

end Rules

/-- Evaluates a tree for a host function in the same way, with so many evaluations allowed inside
each other. -/
def notingFor (setting : Setting Memory) :
    Nat → Nat → Expression → Evaluation (Note × Memory) Value
  | 0, _, _ => fail .unfinished
  | nestings + 1, depth, tree =>
    notingWithin setting (notingFor setting nestings) (setting.depthLimit + 1 - depth) tree

/-- Evaluates an expression in strict mode at a depth, and notes the undefined name that it ends
at, be it in an evaluation for a host function. -/
def evaluateNoting (setting : Setting Memory) (depth : Nat) (expression : Expression) :
    Evaluation (Note × Memory) Value :=
  notingWithin setting (notingFor setting setting.nestings) (setting.depthLimit + 1 - depth)
    expression

theorem notingWithin_succ (setting : Setting Memory)
    (interpret : Nat → Expression → Evaluation (Note × Memory) Value) (levels : Nat)
    (expression : Expression) :
    notingWithin setting interpret (levels + 1) expression =
      (do
        visit (setting.withStrictMode true).extended (setting.depthLimit - levels) expression
        stepWith (setting.extended.answering interpret) (readNoting setting)
          (dispatchNoting setting interpret (setting.depthLimit - levels + 1)
            (bodyNoting setting interpret levels))
          (notingWithin setting interpret levels) expression) := by
  cases levels with
  | zero => rfl
  | succ deeper => rfl

end Evaluation

/-! ### The watched evaluation beside the others -/

/-- An evaluation, in strict mode or not, and after it the one that is watched. They keep pace all
along if the first one is strict as well; otherwise they part where a name is noted. -/
def Pace.noting (strict : Bool) : Pace Memory (Note × Memory) where
  linked machine machine' := machine.visits = machine'.visits ∧
    machine.cacheable = machine'.cacheable ∧ machine.engine = machine'.engine.forget ∧
    (strict = false → machine'.engine.memory.1 = none)
  parted _ failure machine' := strict = false ∧ ∃ undefined : UndefinedName,
    failure = some undefined.error ∧ machine'.engine.memory.1 = some undefined
  linked_restore _ _ linked := linked
  linked_forbid may linked := ⟨linked.1, congrArg (· && may) linked.2.1, linked.2.2⟩
  linked_note event linked :=
    ⟨linked.1, linked.2.1, congrArg (EngineState.note · event) linked.2.2.1, linked.2.2.2⟩
  parted_restore _ _ _ _ parted := parted
  parted_forbid _ parted := parted
  parted_note _ parted := parted
  parted_failure parted := by
    obtain ⟨-, undefined, failed, -⟩ := parted
    cases failed

namespace Pace

open Coupling Evaluation

variable {setting : Setting Memory} {strict : Bool} {level : Nat}

/-- What the first evaluation does after the runs have parted concerns nobody. -/
theorem keeps_noting {Result : Type} (action : Evaluation Memory Result) :
    (noting strict).coupling.Keeps action :=
  fun _ _ _ parted => parted

theorem forget_of_noting {machine : Machine Memory} {machine' : Machine (Note × Memory)}
    (together : (noting strict).Together machine machine') : machine = machine'.forget := by
  obtain ⟨visits, cacheable, engine, -⟩ := together.linked
  exact Machine.eq_of_fields together.environment visits together.callDepth cacheable engine

/-- Where the watched evaluation ends at an undefined name, a strict one ends as well, and one
that is not strict parts from it. -/
theorem agree_endAt (undefined : UndefinedName) {machine : Machine Memory}
    {machine' : Machine (Note × Memory)} (together : (noting strict).Together machine machine')
    {outcome : Except EvaluationError Value × Machine Memory}
    (ends : strict = true → outcome = (.error undefined.error, machine)) :
    (noting strict).coupling.Agree level outcome (endAt undefined machine') := by
  cases strict with
  | true =>
    rw [ends rfl]
    exact Or.inl ⟨.same _, together.environment, together.callDepth, together.linked.1,
      together.linked.2.1, together.linked.2.2.1, fun lenient => absurd lenient (by decide)⟩
  | false => exact Or.inr ⟨rfl, undefined, rfl, rfl⟩

theorem simulates_readNoting (name : String) :
    (noting strict).coupling.Simulates level
      (readVariable (setting.withStrictMode strict) name) (readNoting setting name) := by
  refine ⟨fun machine machine' together => ?_, keeps_noting _⟩
  unfold readNoting
  rw [← together.environment]
  split
  next undefined =>
    refine agree_endAt (.variable name) together fun on => ?_
    subst on
    exact readVariable_of_undefined undefined
  next defined =>
    rw [readVariable_of_defined (Bool.eq_false_iff.2 defined)]
    have reads : (noting strict).coupling.Simulates level
        (readVariable (setting.withStrictMode true) name)
        (readVariable (setting.withStrictMode true).extended name) :=
      simulates_readVariable (by rfl) (by rfl) (by rfl) name
    exact reads.1 machine machine' together

/-- What leaves the note alone keeps pace with what it does without it. -/
theorem simulates_extended_noting {Result : Type} (action : Evaluation Memory Result) :
    (noting strict).coupling.Simulates level action action.extended := by
  refine ⟨fun machine machine' together => Or.inl ?_, keeps_noting _⟩
  obtain rfl := forget_of_noting together
  exact ⟨.same _, rfl, rfl, rfl, rfl, rfl, together.linked.2.2.2⟩

variable {interpret : Nat → Expression → Evaluation Memory Value}
  {interpret' : Nat → Expression → Evaluation (Note × Memory) Value}

/-- What a host function asks for is answered in pace, unless an evaluation of a tree ends at an
undefined name. -/
theorem answersAlike_noting
    (interprets : ∀ depth tree, (noting strict).coupling.Simulates 0 (interpret depth tree)
      (interpret' depth tree)) (request : Request Memory) :
    (noting strict).AnswersAlike (Request.AlikeIn Configuration.SameButStrictMode)
      EvaluationError.IsOfUndefinedName request
      (respond ((setting.withStrictMode strict).answering interpret) request)
      (respondBeside ((setting.withStrictMode true).extended.answering interpret') request) := by
  have plainly : ¬ request.IsForTree → request ≠ .configuration →
      (noting strict).AnswersAlike (Request.AlikeIn Configuration.SameButStrictMode)
        EvaluationError.IsOfUndefinedName request
        (respond ((setting.withStrictMode strict).answering interpret) request)
        (respondBeside ((setting.withStrictMode true).extended.answering interpret') request) := by
    intro plain other
    have same : ∀ on, respond ((setting.withStrictMode on).answering interpret) request =
        respond (setting.answering interpret) request :=
      fun on => respond_withConfiguration setting _ interpret other
    rw [respondBeside_eq_extended (setting.withStrictMode true) interpret' interpret plain, same,
      same]
    refine .of_simulates (simulates_extended_noting _) fun quick machine failure machine'
      parted => ?_
    obtain ⟨given, after, asked, -⟩ :=
      respond_of_plain (setting.answering interpret) quick machine'.forget
    refine ⟨given, after.extend machine'.engine.memory.1, ?_, parted⟩
    unfold Evaluation.extended
    rw [asked]
  cases request with
  | configuration =>
    exact ⟨keeps_noting _, fun machine machine' _ => Or.inr (Or.inl
      ⟨(setting.withStrictMode strict).configuration, (setting.withStrictMode true).configuration,
        rfl, rfl, rfl⟩), fun _ _ _ machine' parted => ⟨_, machine', rfl, parted⟩⟩
  | interpret tree environment depth =>
    have inner : (noting strict).coupling.InterpretsAlike
        ((setting.withStrictMode strict).answering interpret)
        ((setting.withStrictMode true).extended.answering interpret') := interprets
    refine AnswersAlike.interpret inner (fun parted => ?_) tree environment depth
    obtain ⟨-, undefined, failed, -⟩ := parted
    obtain rfl := Option.some.inj failed
    cases undefined <;> exact ⟨trivial, nofun⟩
  | _ => exact plainly id nofun

theorem callablesAlike_noting
    (interprets : ∀ depth tree, (noting strict).coupling.Simulates 0 (interpret depth tree)
      (interpret' depth tree))
    (overlooks : setting.functions.Overlooks (Request.AlikeIn Configuration.SameButStrictMode))
    (passesOn : setting.functions.PassesOn EvaluationError.IsOfUndefinedName) {name : String}
    {function : RegisteredFunction Memory}
    (found : setting.functions.get? name = some function) :
    CallablesAlike (noting strict).coupling ((setting.withStrictMode strict).answering interpret)
      ((setting.withStrictMode true).extended.answering interpret') True function.callable
      function.callable.extended := by
  cases callable : function.callable with
  | defined parameters body => exact .defined parameters body
  | host host =>
    refine .host (fun _ _ => keeps_noting _) fun _ level arguments hint => ?_
    show (noting strict).coupling.Simulates level
      (runProgram ((setting.withStrictMode strict).answering interpret) (host arguments hint))
      (runProgram ((setting.withStrictMode true).extended.answering interpret')
        (host arguments hint).extended)
    rw [runProgram_extended_eq_runWith, runProgram_eq_runWith]
    exact simulates_runWith (answersAlike_noting interprets)
      (overlooks name function host found callable arguments hint)
      (passesOn name function host found callable arguments hint)

theorem simulates_dispatchNoting
    (interprets : ∀ depth tree, (noting strict).coupling.Simulates 0 (interpret depth tree)
      (interpret' depth tree))
    (overlooks : setting.functions.Overlooks (Request.AlikeIn Configuration.SameButStrictMode))
    (passesOn : setting.functions.PassesOn EvaluationError.IsOfUndefinedName)
    {depth : Nat} {body : Expression → Evaluation Memory Value}
    {body' : Expression → Evaluation (Note × Memory) Value}
    (bodies : ∀ level expression,
      (noting strict).coupling.Simulates level (body expression) (body' expression))
    (name : String) (hint : Option String) (values : List Value) :
    (noting strict).coupling.Simulates level
      (dispatch ((setting.withStrictMode strict).answering interpret) depth body name hint values)
      (dispatchNoting setting interpret' depth body' name hint values) := by
  unfold dispatchNoting
  split
  next undefined =>
    refine ⟨fun machine machine' together => ?_, keeps_noting _⟩
    refine agree_endAt (.function name) together fun on => ?_
    exact congrFun (dispatch_of_undefined on undefined depth body hint values) machine
  next defined =>
    cases may : setting.configuration.isFunctionAllowed name with
    | false =>
      have refused : ((setting.withStrictMode strict).answering
          interpret).configuration.isFunctionAllowed name = false := may
      have refused' : ((setting.withStrictMode true).extended.answering
          interpret').configuration.isFunctionAllowed name = false := may
      rw [dispatch_of_refused refused, dispatch_of_refused refused']
      exact simulates_fail _
    | true =>
      obtain ⟨function, found⟩ : ∃ function, setting.functions.get? name = some function := by
        rw [may, Bool.true_and, Option.isNone_iff_eq_none] at defined
        exact Option.ne_none_iff_exists'.1 defined
      have allowed : ((setting.withStrictMode strict).answering
          interpret).configuration.isFunctionAllowed name = true := may
      have allowed' : ((setting.withStrictMode true).extended.answering
          interpret').configuration.isFunctionAllowed name = true := may
      have found' : ((setting.withStrictMode true).extended.answering
          interpret').functions.get? name = some function.extended := by
        rw [Setting.toSetting_answering, get?_extended]
        exact congrArg (Option.map _) found
      rw [dispatch_of_known allowed found, dispatch_of_known allowed' found']
      exact simulates_callFunction_of_callable encloses (by rfl) (by rfl) (by rfl)
        (callablesAlike_noting interprets overlooks passesOn found) bodies depth name hint values

theorem records_noting : (noting strict : Pace Memory (Note × Memory)).coupling.Records :=
  records (fun linked => linked.1)
    (fun linked => ⟨congrArg (· + 1) linked.1, linked.2⟩) fun parted => parted

theorem simulates_notingWithin
    (interprets : ∀ depth tree, (noting strict).coupling.Simulates 0 (interpret depth tree)
      (interpret' depth tree))
    (overlooks : setting.functions.Overlooks (Request.AlikeIn Configuration.SameButStrictMode))
    (passesOn : setting.functions.PassesOn EvaluationError.IsOfUndefinedName)
    (levels level : Nat) (expression : Expression) :
    (noting strict).coupling.Simulates level
      (evaluateWithin ((setting.withStrictMode strict).answering interpret) levels expression)
      (notingWithin setting interpret' levels expression) := by
  induction levels using Nat.strongRecOn generalizing level expression with
  | ind levels inductionHypothesis =>
    cases levels with
    | zero => exact simulates_fail _
    | succ levels =>
      have parts := inductionHypothesis levels levels.lt_succ_self
      have bodies : ∀ level expression, (noting strict).coupling.Simulates level
          (bodyWithin ((setting.withStrictMode strict).answering interpret) levels expression)
          (bodyNoting setting interpret' levels expression) := by
        cases levels with
        | zero => exact fun _ _ => simulates_fail _
        | succ deeper => exact inductionHypothesis deeper (by omega)
      have visits : (noting strict).coupling.Simulates level
          (visit (setting.withStrictMode true) (setting.depthLimit - levels) expression)
          (visit (setting.withStrictMode true).extended (setting.depthLimit - levels)
            expression) :=
        records_noting.visit rfl rfl _ rfl
      have suits : (noting strict).coupling.Suits
          ((setting.withStrictMode strict).answering interpret)
          (setting.extended.answering interpret') := suits rfl rfl
      rw [evaluateWithin_succ, notingWithin_succ, step_eq]
      refine Simulates.bind visits fun _ => ?_
      exact simulates_stepWith suits level expression (fun level part _ => parts level part)
        (fun name _ => sees name) (fun name _ => simulates_readNoting name)
        (simulates_dispatchNoting interprets overlooks passesOn bodies)

theorem simulates_notingFor
    (overlooks : setting.functions.Overlooks (Request.AlikeIn Configuration.SameButStrictMode))
    (passesOn : setting.functions.PassesOn EvaluationError.IsOfUndefinedName)
    (nestings depth : Nat) (tree : Expression) :
    (noting strict).coupling.Simulates 0
      (interpretWithin (setting.withStrictMode strict) nestings depth tree)
      (notingFor setting nestings depth tree) := by
  induction nestings generalizing depth tree with
  | zero => exact simulates_fail _
  | succ nestings inductionHypothesis =>
    exact simulates_notingWithin inductionHypothesis overlooks passesOn _ 0 tree

/-- Beside the watched evaluation runs the one in strict mode, and the one outside it. -/
theorem simulates_evaluateNoting
    (overlooks : setting.functions.Overlooks (Request.AlikeIn Configuration.SameButStrictMode))
    (passesOn : setting.functions.PassesOn EvaluationError.IsOfUndefinedName)
    (depth : Nat) (expression : Expression) :
    (noting strict).coupling.Simulates 0
      (evaluate (setting.withStrictMode strict) depth expression)
      (evaluateNoting setting depth expression) :=
  simulates_notingWithin (simulates_notingFor overlooks passesOn setting.nestings) overlooks
    passesOn _ 0 expression

end Pace

/-- The watched evaluation comes to what the strict one comes to, and leaves the same machine but
for the name that it may have noted. -/
theorem Evaluation.evaluateNoting_eq_evaluate {setting : Setting Memory}
    (overlooks : setting.functions.Overlooks (Request.AlikeIn Configuration.SameButStrictMode))
    (passesOn : setting.functions.PassesOn EvaluationError.IsOfUndefinedName)
    (depth : Nat) (expression : Expression) (machine : Machine Memory) :
    ∃ note : Note,
      evaluateNoting setting depth expression (machine.extend none) =
        ((evaluate (setting.withStrictMode true) depth expression machine).1,
          (evaluate (setting.withStrictMode true) depth expression machine).2.extend note) := by
  rcases ((Pace.simulates_evaluateNoting overlooks passesOn depth expression).1 machine
    (machine.extend none) ⟨rfl, rfl, rfl, rfl, rfl, fun _ => rfl⟩).equal fun _ _ => id with
    ⟨same, together⟩ | parted
  · refine ⟨(evaluateNoting setting depth expression (machine.extend none)).2.engine.memory.1,
      Prod.ext same.symm ?_⟩
    rw [Pace.forget_of_noting together]
    rfl
  · exact absurd parted.1 (by decide)

/-- Strict mode makes a difference to undefined names only, as long as host functions pass the
errors of undefined names on. Let the strict evaluation be watched. If it notes no name that is
undefined, the evaluation outside strict mode comes to the same and leaves the same machine. If it
notes a name, it has ended in the error for that name. -/
theorem Evaluation.evaluate_withStrictMode (setting : Setting Memory)
    (overlooks : setting.functions.Overlooks (Request.AlikeIn Configuration.SameButStrictMode))
    (passesOn : setting.functions.PassesOn EvaluationError.IsOfUndefinedName)
    (depth : Nat) (expression : Expression) (machine : Machine Memory) :
    let strict := evaluate (setting.withStrictMode true) depth expression machine
    let lenient := evaluate (setting.withStrictMode false) depth expression machine
    ∃ note : Note,
      evaluateNoting setting depth expression (machine.extend none) =
          (strict.1, strict.2.extend note) ∧
        (note = none → lenient = strict) ∧
        ∀ undefined, note = some undefined → strict.1 = .error undefined.error := by
  intro strict lenient
  obtain ⟨note, watched⟩ := evaluateNoting_eq_evaluate overlooks passesOn depth expression machine
  -- Beside the evaluation outside strict mode the watched one parts where it notes a name.
  have noted : (evaluateNoting setting depth expression (machine.extend none)).2.engine.memory.1 =
      note := by
    rw [watched]
    rfl
  rcases ((Pace.simulates_evaluateNoting overlooks passesOn depth expression).1 machine
    (machine.extend none) ⟨rfl, rfl, rfl, rfl, rfl, fun _ => rfl⟩).equal fun _ _ => id with
    ⟨same, together⟩ | parted
  · refine ⟨note, watched, fun _ => Prod.ext ?_ ?_, fun undefined some => ?_⟩
    · exact same.trans (congrArg Prod.fst watched)
    · rw [show lenient.2 = _ from Pace.forget_of_noting together, watched]
      rfl
    · exact absurd (noted.symm.trans (together.linked.2.2.2 rfl)) (by rw [some]; exact nofun)
  · obtain ⟨-, undefined, failed, found⟩ := parted
    have same : note = some undefined := noted.symm.trans found
    refine ⟨note, watched, fun none => absurd same (by rw [none]; exact nofun),
      fun other some => ?_⟩
    obtain rfl := Option.some.inj (same.symm.trans some)
    have ended := eq_error_of_failure? failed
    rw [watched] at ended
    exact ended

/-- The mode makes no difference to a disjunction whose first part decides. -/
theorem Evaluation.evaluate_withStrictMode_decided :
    FunctionRegistry.few.Overlooks (Request.AlikeIn Configuration.SameButStrictMode) ∧
      FunctionRegistry.few.PassesOn EvaluationError.IsOfUndefinedName ∧
      evaluate ((Setting.few {}).withStrictMode false) 0
          (.binary .or (.call "denied" none [.boolean false]) (.variable "missing"))
          (.start .empty (.initial {} ())) =
        evaluate ((Setting.few {}).withStrictMode true) 0
          (.binary .or (.call "denied" none [.boolean false]) (.variable "missing"))
          (.start .empty (.initial {} ())) := by
  have overlooks : FunctionRegistry.few.Overlooks
      (Request.AlikeIn Configuration.SameButStrictMode) :=
    FunctionRegistry.overlooks_few fun _ _ => False.elim
  obtain ⟨note, watched, same, -⟩ := evaluate_withStrictMode (Setting.few {}) overlooks
    (FunctionRegistry.passesOn_few _) 0
    (.binary .or (.call "denied" none [.boolean false]) (.variable "missing"))
    (.start .empty (.initial {} ()))
  refine ⟨overlooks, FunctionRegistry.passesOn_few _, same ?_⟩
  exact (congrArg (·.2.engine.memory.1) watched).symm.trans (by rfl)

/-- Without the condition that errors are passed on, the modes may give different values. A
function that has a name evaluated, and gives another value if the name is undefined, does not read
the mode, but in strict mode that value is its answer. -/
theorem Evaluation.evaluate_withStrictMode_attempting :
    let setting := Setting.attempting {} (.variable "missing") (.integer 7)
    let machine := Machine.start .empty (.initial {} ())
    setting.functions.Overlooks (Request.AlikeIn Configuration.SameButStrictMode) ∧
      (evaluate (setting.withStrictMode true) 0 (.call "attempt" none []) machine).1 =
        .ok (.integer 7) ∧
      (evaluate (setting.withStrictMode false) 0 (.call "attempt" none []) machine).1 =
        .ok .null :=
  ⟨FunctionRegistry.overlooks_attempting (fun _ _ => False.elim) fun _ _ _ _ _ => False.elim, rfl,
    rfl⟩

end Reckon
