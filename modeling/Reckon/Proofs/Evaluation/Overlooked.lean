/-
This file says what a host function leaves unread. It does not read something
if its program goes on in one way whatever the answers it gets say about that.

There is one more way to learn of a setting: to have a tree evaluated, and to
look at the error in which that ends. A function that passes the errors of a
kind on ends in them as well, and has nothing more evaluated until then, so that
nothing comes of what it may have learned.

Two evaluations that keep pace until one of them ends in such an error then keep
pace through the programs of the host functions as well.
-/

import Reckon.Proofs.Evaluation.Extended
import Reckon.Proofs.Evaluation.Pace

namespace Reckon

variable {Memory : Type}

/-! ### Programs -/

namespace HostProgram

/-- Whether a program goes on in one way after answers that are alike. -/
def Overlooks (alike : (request : Request Memory) → request.Answer → request.Answer → Prop) :
    HostProgram Memory → Prop
  | .done _ => True
  | .ask request next =>
    (∀ answer answer', alike request answer answer' → next answer = next answer') ∧
      ∀ answer, Overlooks alike (next answer)

end HostProgram

namespace Request

/-- Answers to a request that are alike because the settings of the evaluation are. -/
def AlikeIn (settings : Configuration → Configuration → Prop) :
    (request : Request Memory) → request.Answer → request.Answer → Prop
  | .configuration, first, second => settings first second
  | _, _, _ => False

/-- The error in which an evaluation has ended that was asked for. -/
def failure? : (request : Request Memory) → request.Answer → Option EvaluationError
  | .interpret _ _ _, (.error error, _) => some error
  | _, _ => none

end Request

/-- Whether a request has something evaluated. -/
def Request.HasEvaluated : Request Memory → Prop
  | .interpret _ _ _ | .evaluate _ _ => True
  | _ => False

namespace HostProgram

/-- Whether a program ends in an error, and has nothing evaluated until then. -/
def EndsIn (error : EvaluationError) : HostProgram Memory → Prop
  | .done result => result = .error error
  | .ask request next => ¬ request.HasEvaluated ∧ ∀ answer, EndsIn error (next answer)

/-- Whether a program ends in an error of a kind when an evaluation it has asked for ends in it. -/
def PassesOn (errors : EvaluationError → Prop) : HostProgram Memory → Prop
  | .done _ => True
  | .ask request next => ∀ answer,
    (∀ error, request.failure? answer = some error → errors error →
      (next answer).EndsIn error) ∧
      PassesOn errors (next answer)

end HostProgram

namespace FunctionRegistry

/-- Whether the programs of all host functions go on in one way after answers that are alike. -/
def Overlooks (alike : (request : Request Memory) → request.Answer → request.Answer → Prop)
    (registry : FunctionRegistry Memory) : Prop :=
  ∀ name function host, registry.get? name = some function → function.callable = .host host →
    ∀ arguments hint, (host arguments hint).Overlooks alike

/-- Whether the programs of all host functions pass the errors of a kind on. -/
def PassesOn (errors : EvaluationError → Prop) (registry : FunctionRegistry Memory) : Prop :=
  ∀ name function host, registry.get? name = some function → function.callable = .host host →
    ∀ arguments hint, (host arguments hint).PassesOn errors

end FunctionRegistry

/-- Another configuration changes the answer to the request for it, and no other as long as trees
are evaluated in one way. -/
theorem Evaluation.respond_withConfiguration (setting : Setting Memory)
    (configuration : Configuration) (interpret : Nat → Expression → Evaluation Memory Value)
    {request : Request Memory} (other : request ≠ .configuration) :
    respond (({ setting with configuration } : Setting Memory).answering interpret) request =
      respond (setting.answering interpret) request := by
  cases request with
  | configuration => exact absurd rfl other
  | _ => rfl

/-- A request is answered at once if nothing has to be evaluated for it. -/
theorem Evaluation.respond_of_plain (setting : NestedSetting Memory) {request : Request Memory}
    (plain : ¬ request.HasEvaluated) (machine : Machine Memory) :
    ∃ given after, respond setting request machine = (.ok given, after) ∧
      after.visits = machine.visits := by
  cases request with
  | interpret tree environment depth => exact absurd trivial plain
  | evaluate source given => exact absurd trivial plain
  | _ => exact ⟨_, _, rfl, rfl⟩

/-! ### Programs beside each other -/

namespace Pace

open Coupling Evaluation

variable {First Second : Type} {pace : Pace First Second} {level : Nat}
  {alike : (request : Request Memory) → request.Answer → request.Answer → Prop}
  {errors : EvaluationError → Prop}

/-- Two ways to answer a request of a program that overlooks what is alike and passes errors of a
kind on: the answers are the same, as long as the evaluations keep pace, or they are alike and
nothing else happens, or the second one says that an evaluation has ended in such an error. What is
known then lasts while the second program has nothing evaluated. -/
structure AnswersAlike (pace : Pace First Second)
    (alike : (request : Request Memory) → request.Answer → request.Answer → Prop)
    (errors : EvaluationError → Prop) (request : Request Memory)
    (answer : Evaluation First request.Answer) (answer' : Evaluation Second request.Answer) :
    Prop where
  keeps : pace.coupling.Keeps answer
  agree : ∀ machine machine', pace.Together machine machine' →
    pace.coupling.Agree 0 (answer machine) (answer' machine') ∨
      (∃ given given', alike request given given' ∧
        answer machine = (.ok given, machine) ∧ answer' machine' = (.ok given', machine')) ∨
      ∃ given after error, answer' machine' = (.ok given, after) ∧
        request.failure? given = some error ∧ errors error ∧
          pace.parted (answer machine).2 (some error) after
  lasts : ¬ request.HasEvaluated → ∀ machine failure machine',
    pace.parted machine failure machine' →
      ∃ given after, answer' machine' = (.ok given, after) ∧ pace.parted machine failure after

theorem AnswersAlike.of_simulates {request : Request Memory}
    {answer : Evaluation First request.Answer} {answer' : Evaluation Second request.Answer}
    (simulates : pace.coupling.Simulates 0 answer answer')
    (lasts : ¬ request.HasEvaluated → ∀ machine failure machine',
      pace.parted machine failure machine' →
        ∃ given after, answer' machine' = (.ok given, after) ∧ pace.parted machine failure after) :
    pace.AnswersAlike alike errors request answer answer' :=
  ⟨simulates.2, fun machine machine' together => Or.inl (simulates.1 machine machine' together),
    lasts⟩

/-- An evaluation of a tree is answered alike if evaluations part only by errors that are passed
on. -/
theorem AnswersAlike.interpret {setting : NestedSetting First} {setting' : NestedSetting Second}
    (interprets : pace.coupling.InterpretsAlike setting setting')
    (fails : ∀ {machine error machine'}, pace.parted machine (some error) machine' →
      errors error ∧ error ≠ .unfinished)
    (tree : Expression) (environment : Environment) (depth : Nat) :
    pace.AnswersAlike alike errors (.interpret tree environment depth : Request Memory)
      (respond setting (.interpret tree environment depth))
      (respond setting' (.interpret tree environment depth)) := by
  refine ⟨keeps_interpret (fun depth tree => (interprets depth tree).2) tree environment depth,
    fun machine machine' together => ?_, fun plain => absurd trivial plain⟩
  have inside : pace.Together { machine with environment } { machine' with environment } :=
    Together.restore together.linked rfl together.callDepth
  have agree := ((interprets depth tree).1 _ _ inside).equal fun _ _ => id
  show pace.coupling.Agree 0 (inEnvironment environment (attempt (setting.interpret depth tree))
      machine) (inEnvironment environment (attempt (setting'.interpret depth tree)) machine') ∨ _ ∨
    ∃ given after error,
      inEnvironment environment (attempt (setting'.interpret depth tree)) machine' =
        (.ok given, after) ∧ _ ∧ _ ∧ pace.parted
          (inEnvironment environment (attempt (setting.interpret depth tree)) machine).2 _ _
  unfold inEnvironment attempt
  rcases outcome : setting.interpret depth tree { machine with environment } with ⟨answer, after⟩
  rcases outcome' : setting'.interpret depth tree { machine' with environment } with
    ⟨answer', after'⟩
  rw [outcome, outcome'] at agree
  dsimp only at agree ⊢
  rcases agree with ⟨rfl, later⟩ | parted
  · have back : pace.Together { after with environment := machine.environment }
        { after' with environment := machine'.environment } :=
      Together.restore later.linked together.environment later.callDepth
    refine Or.inl ?_
    rw [later.environment]
    exact Or.inl ⟨.same _, back⟩
  · -- The second evaluation has ended in an error that is passed on.
    cases answer' with
    | ok result => exact (pace.parted_failure parted).elim
    | error error =>
      obtain ⟨kind, isOver'⟩ := fails parted
      have ended : isOver (Except.error error : Except EvaluationError Value) = true := by
        unfold isOver
        split
        next same => exact absurd (Except.error.inj same) isOver'
        · rfl
      refine Or.inr (Or.inr ⟨(.error error, after'.environment),
        { after' with environment := machine'.environment }, error, ?_, rfl, kind, ?_⟩)
      · rw [if_pos ended]
      · exact pace.parted_restore machine.environment machine'.environment after.callDepth
          after'.callDepth parted

/-- A program that passes an error on ends in it, with what is known of the machines. -/
theorem parted_runWith {answer : (request : Request Memory) → Evaluation First request.Answer}
    {answer' : (request : Request Memory) → Evaluation Second request.Answer}
    (answers : ∀ request, pace.AnswersAlike alike errors request (answer request) (answer' request))
    {error : EvaluationError} {program : HostProgram Memory} (endsIn : program.EndsIn error)
    {machine : Machine First} {machine' : Machine Second}
    (parted : pace.parted machine (some error) machine') :
    ∃ after, runWith answer' program machine' = (.error error, after) ∧
      pace.parted machine (some error) after := by
  induction program generalizing machine' with
  | done result => exact ⟨machine', congrArg (·, machine') endsIn, parted⟩
  | ask request next inductionHypothesis =>
    obtain ⟨given, after, asked, later⟩ :=
      (answers request).lasts endsIn.1 machine _ machine' parted
    obtain ⟨final, ended, lasting⟩ := inductionHypothesis given (endsIn.2 given) later
    refine ⟨final, ?_, lasting⟩
    show andThen (answer' request) (fun given => runWith answer' (next given)) machine' = _
    unfold andThen
    rw [asked]
    exact ended

/-- Programs keep pace if their requests are answered alike. -/
theorem simulates_runWith {answer : (request : Request Memory) → Evaluation First request.Answer}
    {answer' : (request : Request Memory) → Evaluation Second request.Answer}
    (answers : ∀ request, pace.AnswersAlike alike errors request (answer request) (answer' request))
    {program : HostProgram Memory} (overlooks : program.Overlooks alike)
    (passesOn : program.PassesOn errors) :
    pace.coupling.Simulates level (runWith answer program) (runWith answer' program) := by
  have keeps : ∀ program : HostProgram Memory, pace.coupling.Keeps (runWith answer program) :=
    keeps_runWith fun request => (answers request).keeps
  induction program with
  | done result => exact simulates_ofExcept result
  | ask request next inductionHypothesis =>
    obtain ⟨same, later⟩ := overlooks
    have goesOn := fun given => inductionHypothesis given (later given) (passesOn given).2
    refine ⟨fun machine machine' together => ?_, keeps _⟩
    show pace.coupling.Agree level
      (andThen (answer request) (fun given => runWith answer (next given)) machine)
      (andThen (answer' request) (fun given => runWith answer' (next given)) machine')
    rcases (answers request).agree machine machine' together with
      agree | ⟨given, given', differ, asked, asked'⟩ |
      ⟨given, after', error, asked', failed, kind, parted⟩
    · exact Agree.andThen agree goesOn
    · unfold andThen
      rw [asked, asked']
      dsimp only
      rw [same given given' differ]
      exact (goesOn given').1 machine machine' together
    · -- The second program ends in the error, and the first one may go on.
      obtain ⟨final, ended, lasting⟩ := parted_runWith answers
        ((passesOn given).1 error failed kind) parted
      have onward : pace.parted
          (andThen (answer request) (fun given => runWith answer (next given)) machine).2
          (some error) final := by
        unfold andThen
        rcases outcome : answer request machine with ⟨cause | result, after⟩
        · rw [outcome] at lasting
          exact lasting
        · rw [outcome] at lasting
          exact keeps (next result) after _ _ lasting
      have done : andThen (answer' request) (fun given => runWith answer' (next given)) machine' =
          (.error error, final) := by
        unfold andThen
        rw [asked']
        exact ended
      rw [done]
      exact Or.inr onward

end Pace

/-! ### Three functions -/

namespace FunctionRegistry

/-- A host function that gives the number of visited nodes, a function that negates its argument,
and one that does nothing but call itself. -/
def few : FunctionRegistry Unit where
  table :=
    { entries := [
        ("visited", ⟨"visited", .any, .host fun _ _ =>
          .ask .visits fun visits => .give (.integer (Int64.ofNat visits))⟩),
        ("denied", ⟨"denied", .any, .defined ["x"] (.unary .not (.variable "x"))⟩),
        ("endless", ⟨"endless", .any, .defined [] (.call "endless" none [])⟩)] }

/-- The one function of the host among the three. -/
theorem eq_visited_of_few {name : String} {function : RegisteredFunction Unit}
    {host : HostFunction Unit} (found : few.get? name = some function)
    (callable : function.callable = .host host) :
    host = fun _ _ => .ask .visits fun visits => .give (.integer (Int64.ofNat visits)) := by
  have member := (Dictionary.mem_entries_iff few.table name function).2 found
  simp only [few, List.mem_cons, List.not_mem_nil, or_false, Prod.mk.injEq] at member
  rcases member with ⟨-, rfl⟩ | ⟨-, rfl⟩ | ⟨-, rfl⟩
  · exact (Callable.host.inj callable).symm
  · cases callable
  · cases callable

/-- The host function overlooks whatever is not the number of visits. -/
theorem overlooks_few {alike : (request : Request Unit) → request.Answer → request.Answer → Prop}
    (sees : ∀ visits visits', alike .visits visits visits' → visits = visits') :
    few.Overlooks alike := by
  intro name function host found callable arguments hint
  rw [eq_visited_of_few found callable]
  exact ⟨fun visits visits' alike => by rw [sees visits visits' alike], fun _ => trivial⟩

/-- It asks for no evaluation. -/
theorem passesOn_few (errors : EvaluationError → Prop) : few.PassesOn errors := by
  intro name function host found callable arguments hint
  rw [eq_visited_of_few found callable]
  exact fun _ => ⟨nofun, trivial⟩

end FunctionRegistry

/-- A setting with these functions and no operations. -/
def Setting.few (configuration : Configuration) : Setting Unit where
  configuration
  operations := .empty
  functions := .few
  types := .empty
  deadline := none
  reenter _ _ state := (.error .emptyExpression, state)
  nestings := 0

/-! ### A function that makes something of errors -/

/-- A host function that has a tree evaluated below its call, and gives another value if that ends
in an error. -/
def HostFunction.attempting (tree : Expression) (otherwise : Value) : HostFunction Unit :=
  fun _ _ =>
    .ask .callDepth fun (depth : Nat) => .ask (.interpret tree .empty (depth + 1)) fun answer =>
      match answer.1 with
      | .ok value => .give value
      | .error _ => .give otherwise

/-- The function under the name `attempt`, and no other one. -/
def FunctionRegistry.attempting (tree : Expression) (otherwise : Value) :
    FunctionRegistry Unit where
  table := { entries := [("attempt", ⟨"attempt", .any, .host (.attempting tree otherwise)⟩)] }

namespace FunctionRegistry

variable {tree : Expression} {otherwise : Value} {name : String}
  {function : RegisteredFunction Unit} {host : HostFunction Unit}

theorem eq_attempting (found : (attempting tree otherwise).get? name = some function)
    (callable : function.callable = .host host) : host = .attempting tree otherwise := by
  have member := (Dictionary.mem_entries_iff (attempting tree otherwise).table name function).2
    found
  simp only [attempting, List.mem_singleton, Prod.mk.injEq] at member
  rw [member.2] at callable
  exact (Callable.host.inj callable).symm

/-- The function asks for nothing but its depth and the value of the tree. -/
theorem overlooks_attempting
    {alike : (request : Request Unit) → request.Answer → request.Answer → Prop}
    (depth : ∀ depth depth', alike .callDepth depth depth' → depth = depth')
    (interprets : ∀ tree environment depth answer answer',
      alike (.interpret tree environment depth) answer answer' → answer = answer') :
    (attempting tree otherwise).Overlooks alike := by
  intro name function host found callable arguments hint
  rw [eq_attempting found callable]
  refine ⟨fun level level' same => by rw [depth level level' same], fun level => ?_⟩
  refine ⟨fun answer answer' same => ?_, fun answer => ?_⟩
  · obtain rfl := interprets _ _ _ answer answer' same
    rfl
  · dsimp only
    split <;> trivial

/-- It ends in no error, unless the evaluation it asks for goes on. -/
theorem ne_error_attempting (found : (attempting tree otherwise).get? name = some function)
    (callable : function.callable = .host host) (setting : NestedSetting Unit)
    (arguments : List Value) (hint : Option String) (machine : Machine Unit)
    {error : EvaluationError} (finished : error ≠ .unfinished) :
    (Evaluation.runProgram setting (host arguments hint) machine).1 ≠ .error error := by
  rw [eq_attempting found callable]
  show (Evaluation.andThen (Evaluation.inEnvironment .empty
    (Evaluation.attempt (setting.interpret (machine.callDepth + 1) tree))) _ machine).1 ≠ _
  unfold Evaluation.andThen Evaluation.inEnvironment Evaluation.attempt
  dsimp only
  split
  next finishes =>
    split at finishes
    · obtain rfl := Except.ok.inj (Prod.mk.inj finishes).1
      dsimp only
      split <;> exact nofun
    · cases (Prod.mk.inj finishes).1
  next goesOn =>
    split at goesOn
    · cases (Prod.mk.inj goesOn).1
    · obtain rfl := Except.error.inj (Prod.mk.inj goesOn).1
      exact fun failed => finished (Except.error.inj failed).symm

end FunctionRegistry

/-- A setting with the function and no operations, in which no evaluation nests but the one it asks
for. -/
def Setting.attempting (configuration : Configuration) (tree : Expression) (otherwise : Value) :
    Setting Unit :=
  { Setting.few configuration with functions := .attempting tree otherwise, nestings := 1 }

end Reckon
