/-
This file shows that an engine keeps no stale result, however evaluations and
invalidations overlap: at every moment each kept result was computed by an
evaluation that began after the latest invalidation.

The generation of an engine counts the invalidations. An evaluation whose
generation still lasts when it ends has seen none since it began, and only then
its result is kept. This holds for evaluations inside each other as well, since
what one of them writes into the chronicle comes on top of what was there
before.
-/

import Reckon.Proofs.Engine.Caching
import Reckon.Proofs.Engine.Chronicle
import Reckon.Proofs.Evaluation.Invariant

namespace Reckon

variable {Memory : Type}

/-! ### Fresh results -/

/-- Whether work on a task that begins in a state has a key and finds no result kept under it. -/
structure Task.Misses (task : Task) (state : EngineState Memory) (key : CacheKey) : Prop where
  under : task.key? state.configuration (trimmed task.source)
    (task.mergedVariables state.defaults) = some key
  missing : state.results.get? key = none

namespace Chronicle

/-- An evaluation that a chronicle tells of and that computed a value for a key. -/
structure Computation (chronicle : Chronicle Memory) (key : CacheKey) (value : Value) where
  task : Task
  start : EngineState Memory
  finish : EngineState Memory
  earlier : Chronicle Memory
  later : Chronicle Memory
  told : chronicle = later ++ .began task start :: earlier
  misses : task.Misses start key
  ended : .ended earlier.length (.ok value) finish ∈ later

/-- Whether nothing was invalidated after a computation began. -/
def Computation.IsCurrent {chronicle : Chronicle Memory} {key : CacheKey} {value : Value}
    (computation : chronicle.Computation key value) : Prop :=
  ∀ happening ∈ computation.later, happening.isInvalidation = false

end Chronicle

/-- Whether every result that is kept in a state was computed after the latest invalidation a
chronicle tells of. -/
def EngineState.IsFresh (state : EngineState Memory) (chronicle : Chronicle Memory) : Prop :=
  ∀ key kept, state.results.get? key = some kept →
    ∃ computation : chronicle.Computation key kept.value, computation.IsCurrent

/-- Whether every state that a chronicle tells of was fresh at its time. -/
def Chronicle.WasFresh : Chronicle Memory → Prop
  | [] => True
  | happening :: earlier =>
    happening.state.IsFresh (happening :: earlier) ∧ WasFresh earlier

/-- The results that were kept when something happened last. -/
def Chronicle.results : Chronicle Memory → Dictionary CacheKey KeptResult
  | [] => .empty
  | happening :: _ => happening.state.results

variable {chronicle : Chronicle Memory} {key : CacheKey} {value : Value}
  {happening : Happening Memory}

/-- A computation stays current until something is invalidated. -/
theorem Chronicle.Computation.cons (computation : chronicle.Computation key value)
    (current : computation.IsCurrent) (valid : happening.isInvalidation = false) :
    ∃ computation : Chronicle.Computation (happening :: chronicle) key value,
      computation.IsCurrent :=
  ⟨{ computation with
      later := happening :: computation.later
      told := congrArg (happening :: ·) computation.told
      ended := List.mem_cons_of_mem _ computation.ended },
    List.forall_mem_cons.2 ⟨valid, current⟩⟩

theorem EngineState.IsFresh.cons {state : EngineState Memory} (fresh : state.IsFresh chronicle)
    (valid : happening.isInvalidation = false) : state.IsFresh (happening :: chronicle) := by
  intro key kept found
  obtain ⟨computation, current⟩ := fresh key kept found
  exact computation.cons current valid

theorem EngineState.isFresh_of_noResults {state : EngineState Memory}
    (results : state.results = .empty) (chronicle : Chronicle Memory) :
    state.IsFresh chronicle := by
  intro key kept found
  rw [results, Dictionary.get?_empty] at found
  cases found

/-- A state in which the same results are kept as at the latest happening is fresh as well. -/
theorem Chronicle.WasFresh.isFresh (past : chronicle.WasFresh) {state : EngineState Memory}
    (told : state.results = chronicle.results) : state.IsFresh chronicle := by
  cases chronicle with
  | nil => exact EngineState.isFresh_of_noResults told []
  | cons happening earlier =>
    intro key kept found
    rw [told] at found
    exact past.1 key kept found

/-! ### States with a chronicle -/

/-- A state whose chronicle goes on from another one, and tells what is kept. No result was ever
stale. The generation is the number of invalidations. -/
structure EngineState.Chronicled (start : Chronicle Memory)
    (state : EngineState (Chronicle Memory × Memory)) : Prop where
  since : start <:+ state.chronicle
  past : state.chronicle.WasFresh
  told : state.results = state.chronicle.results
  generation : state.generation = state.chronicle.countP Happening.isInvalidation

namespace EngineState.Chronicled

variable {start : Chronicle Memory} {state after : EngineState (Chronicle Memory × Memory)}

theorem fresh (chronicled : state.Chronicled start) : state.forget.IsFresh state.chronicle :=
  chronicled.past.isFresh chronicled.told

theorem since_trans (chronicled : state.Chronicled start) {earlier : Chronicle Memory}
    (suffix : earlier <:+ start) : state.Chronicled earlier :=
  { chronicled with since := suffix.trans chronicled.since }

/-- Only the chronicle, the kept results and the generation count. -/
theorem congr (chronicled : state.Chronicled start) (chronicle : after.chronicle = state.chronicle)
    (results : after.results = state.results) (generation : after.generation = state.generation) :
    after.Chronicled start := by
  refine ⟨chronicle ▸ chronicled.since, chronicle ▸ chronicled.past, ?_, ?_⟩
  · rw [results, chronicle, chronicled.told]
  · rw [generation, chronicle, chronicled.generation]

theorem noted (chronicled : state.Chronicled start) (noted : state.NotedFrom after) :
    after.Chronicled start := by
  refine chronicled.congr ?_ ?_ ?_ <;> rw [noted]
  rfl

theorem treeOf (chronicled : state.Chronicled start) (configuration : Configuration)
    (text : String) : (state.treeOf configuration text).2.Chronicled start := by
  obtain ⟨trees, searched⟩ := state.notedFrom_treeOf configuration text
  have same : ({ state with trees } : EngineState _).Chronicled start :=
    chronicled.congr rfl rfl rfl
  exact same.noted searched

/-- What may be written down of a state: something that happens in it, and leaves it fresh. -/
theorem recorded (chronicled : state.Chronicled start)
    (chronicle : after.chronicle = state.chronicle)
    {happening : EngineState Memory → Happening Memory}
    (now : (happening after.forget).state = after.forget)
    (fresh : after.forget.IsFresh (happening after.forget :: state.chronicle))
    (generation : after.generation =
      (happening after.forget :: state.chronicle).countP Happening.isInvalidation) :
    (after.record happening).Chronicled start := by
  have goesOn : (after.record happening).chronicle = happening after.forget :: state.chronicle :=
    congrArg (happening after.forget :: ·) chronicle
  refine ⟨?_, ?_, ?_, ?_⟩ <;> rw [goesOn]
  · exact chronicled.since.trans (List.suffix_cons _ _)
  · refine ⟨?_, chronicled.past⟩
    rw [now]
    exact fresh
  · exact congrArg EngineState.results now.symm
  · exact generation

/-- Whatever happens without an invalidation, nothing becomes stale. -/
theorem record (chronicled : state.Chronicled start)
    {happening : EngineState Memory → Happening Memory}
    (now : (happening state.forget).state = state.forget)
    (valid : (happening state.forget).isInvalidation = false) :
    (state.record happening).Chronicled start := by
  refine chronicled.recorded rfl now (chronicled.fresh.cons valid) ?_
  rw [List.countP_cons, valid, chronicled.generation]
  rfl

/-- An invalidation leaves nothing that could be stale. -/
theorem invalidated (chronicled : state.Chronicled start)
    (chronicle : after.chronicle = state.chronicle) (results : after.results = .empty)
    (generation : after.generation = state.generation + 1) :
    (after.record .invalidated).Chronicled start := by
  have empty : after.forget.results = .empty := results
  refine chronicled.recorded chronicle rfl (isFresh_of_noResults empty _) ?_
  rw [List.countP_cons_of_pos rfl, generation, chronicled.generation]

/-- As long as the generation lasts in which work began, nothing has been invalidated since. -/
theorem noInvalidation_since {begun : Happening Memory} {earlier later : Chronicle Memory}
    (chronicled : state.Chronicled start) (goesOn : later ++ begun :: earlier = state.chronicle)
    (valid : begun.isInvalidation = false)
    (lasts : state.generation = earlier.countP Happening.isInvalidation) :
    ∀ happening ∈ later, happening.isInvalidation = false := by
  have count := chronicled.generation
  rw [← goesOn, List.countP_append, List.countP_cons_of_neg (Bool.eq_false_iff.1 valid), lasts]
    at count
  have none : later.countP Happening.isInvalidation = 0 := by omega
  intro happening member
  exact Bool.eq_false_iff.2 (List.countP_eq_zero.1 none happening member)

/-- In the generation in which work began its result may be kept when it ends. -/
theorem keep {task : Task} {begun : EngineState Memory} {earlier : Chronicle Memory}
    (chronicled : state.Chronicled (.began task begun :: earlier))
    (lasts : state.generation = earlier.countP Happening.isInvalidation)
    (misses : task.Misses begun key) (chronicle : after.chronicle = state.chronicle)
    (results : after.results =
      state.results.insert key ⟨value, earlier.countP Happening.isInvalidation⟩)
    (generation : after.generation = state.generation) :
    (after.record (.ended earlier.length (.ok value))).Chronicled
      (.began task begun :: earlier) := by
  obtain ⟨later, goesOn⟩ := chronicled.since
  have current := chronicled.noInvalidation_since goesOn rfl lasts
  refine chronicled.recorded chronicle rfl ?_ ?_
  · intro other found is
    rw [show after.forget.results = _ from results, Dictionary.get?_insert] at is
    by_cases same : other = key
    · -- The evaluation that ends now is the one that computed this result.
      rw [if_pos same] at is
      cases is
      subst same
      exact ⟨{
        task, start := begun, finish := after.forget, earlier
        later := .ended earlier.length (.ok value) after.forget :: later
        told := congrArg (_ :: ·) goesOn.symm
        misses
        ended := List.mem_cons_self }, List.forall_mem_cons.2 ⟨rfl, current⟩⟩
    · rw [if_neg same] at is
      obtain ⟨computation, current⟩ := chronicled.fresh other found is
      exact computation.cons current rfl
  · rw [List.countP_cons_of_neg (by exact Bool.false_ne_true), generation, chronicled.generation]

end EngineState.Chronicled

/-! ### Evaluations -/

namespace Registries

open Evaluation EngineState

variable {reenter : Reenter (Chronicle Memory × Memory)} {start : Chronicle Memory}
  {state : EngineState (Chronicle Memory × Memory)}

/-- A way back into the engine on which nothing becomes stale. -/
def StaysFresh (reenter : Reenter (Chronicle Memory × Memory)) : Prop :=
  ∀ start source given state, state.Chronicled start →
    (reenter source given state).2.Chronicled start

/-- Whatever a host function asks for, nothing becomes stale. -/
theorem maintains_chronicled_runProgram (registries : Registries Memory) (begun : Nat)
    (fresh : StaysFresh reenter) (configuration : Configuration)
    {interpret : Nat → Expression → Evaluation (Chronicle Memory × Memory) Value}
    (interprets : ∀ depth tree, (interpret depth tree).Maintains fun machine =>
      machine.engine.Chronicled start) (program : HostProgram Memory) :
    (runProgram
      ((registries.recorded.setting begun (recordingSignals reenter) configuration).answering
        interpret)
      program.signalling.extended).Maintains fun machine => machine.engine.Chronicled start := by
  induction program with
  | done result => exact fun _ chronicled => chronicled
  | ask request next inductionHypothesis =>
    intro machine chronicled
    cases request with
    | putContext name value =>
      exact inductionHypothesis ()
        { machine with engine := (machine.engine.putContext name value).record .invalidated }
        (chronicled.invalidated rfl rfl rfl)
    | setStrictMode on =>
      exact inductionHypothesis ()
        { machine with engine := (machine.engine.setStrictMode on).record .invalidated }
        (chronicled.invalidated rfl rfl rfl)
    | evaluate source given =>
      refine Maintains.bind (fun machine chronicled => ?_) inductionHypothesis machine chronicled
      show (recordingSignals reenter (lettered source) given machine.engine).2.Chronicled start
      rw [recordingSignals_lettered]
      exact fresh start source given machine.engine chronicled
    | interpret tree environment depth =>
      exact Maintains.bind
        (maintains_interpret (Chronicled start) interprets tree environment depth)
        inductionHypothesis machine chronicled
    | store memory =>
      exact inductionHypothesis ()
        { machine with
          engine := { machine.engine with memory := (machine.engine.memory.1, memory) } }
        (chronicled.congr rfl rfl rfl)
    | forbidCaching => exact inductionHypothesis () { machine with cacheable := false } chronicled
    | _ => exact inductionHypothesis _ machine chronicled

/-- An evaluation leaves no stale result. -/
theorem evaluation_chronicled (registries : Registries Memory) (fresh : StaysFresh reenter)
    (configuration : Configuration) (given : Dictionary String Value) (tree : Expression)
    (chronicled : state.Chronicled start) :
    (registries.recorded.evaluation (recordingSignals reenter) configuration given tree
      state).2.engine.Chronicled start := by
  refine maintains_evaluate
    (registries.recorded.setting state.begun (recordingSignals reenter) configuration)
    (Chronicled start) (fun _ _ _ chronicled => chronicled.congr rfl rfl rfl) ?_ 0 tree
    (.start (.ofVariables given) state) chronicled
  intro interpret interprets name function program found callable arguments hint
  rw [show (registries.recorded.setting _ _ configuration).functions.get? name = _ from
    get?_recorded registries name] at found
  obtain ⟨plain, -, rfl⟩ := Option.map_eq_some_iff.1 found
  unfold RegisteredFunction.extended RegisteredFunction.signalling Callable.extended at callable
  dsimp only at callable
  cases is : plain.callable with
  | defined parameters body =>
    rw [is] at callable
    cases callable
  | host host =>
    rw [is] at callable
    cases callable
    exact maintains_chronicled_runProgram registries state.begun fresh configuration interprets
      (host arguments hint)

/-! ### Work on a task -/

/-- Nothing is stale when it is written down that work has ended. -/
def EndsFresh (task : Task) (begun : EngineState Memory) (earlier : Chronicle Memory)
    (work : Except EngineError Value × EngineState (Chronicle Memory × Memory)) : Prop :=
  (work.2.record (.ended earlier.length work.1)).Chronicled (.began task begun :: earlier)

section Work

variable {task : Task} {begun : EngineState Memory} {earlier : Chronicle Memory}

theorem endsFresh_evaluateTree (registries : Registries Memory) (fresh : StaysFresh reenter)
    (configuration : Configuration) {key : Option CacheKey}
    (misses : ∀ own, key = some own → task.Misses begun own)
    (given : Dictionary String Value) (tree : Expression)
    (chronicled : state.Chronicled (.began task begun :: earlier)) :
    EndsFresh task begun earlier (registries.recorded.evaluateTree (recordingSignals reenter)
      configuration (earlier.countP Happening.isInvalidation) key given tree state) := by
  have evaluated := evaluation_chronicled registries fresh configuration given tree chronicled
  rw [evaluateTree_eq]
  generalize registries.recorded.evaluation (recordingSignals reenter) configuration given tree
    state = evaluation at evaluated ⊢
  rcases evaluation with ⟨error | result, machine⟩
  · exact evaluated.record rfl rfl
  · have noted := notedFrom_note_log
      (afterResult (earlier.countP Happening.isInvalidation) key result machine)
      (.completed result machine.visits) configuration
      "Expression evaluation completed. Result: \x7b\x7d" [result]
    dsimp only
    generalize EngineState.log _ configuration
      "Expression evaluation completed. Result: \x7b\x7d" [result] = final at noted ⊢
    unfold afterResult at noted
    cases key with
    | none => exact (evaluated.noted noted).record rfl rfl
    | some own =>
      dsimp only at noted
      split at noted
      next =>
        unfold keepResult at noted
        split at noted
        next lasts =>
          refine evaluated.keep lasts (misses own rfl) ?_ ?_ ?_ <;> rw [noted]
          rfl
        next => exact (evaluated.noted noted).record rfl rfl
      next => exact (evaluated.noted noted).record rfl rfl

theorem endsFresh_workAfresh (registries : Registries Memory) (fresh : StaysFresh reenter)
    (text : String) (configuration : Configuration) {key : Option CacheKey}
    (misses : ∀ own, key = some own → task.Misses begun own) (given : Dictionary String Value)
    (chronicled : state.Chronicled (.began task begun :: earlier)) :
    EndsFresh task begun earlier (registries.recorded.workAfresh (recordingSignals reenter) task
      text configuration (earlier.countP Happening.isInvalidation) key given state) := by
  have searched := chronicled.treeOf configuration text
  unfold workAfresh
  generalize state.treeOf configuration text = search at searched ⊢
  rcases search with ⟨error | tree, after⟩
  · exact searched.record rfl rfl
  · exact endsFresh_evaluateTree registries fresh configuration misses given _ searched

theorem endsFresh_runText (registries : Registries Memory) (fresh : StaysFresh reenter)
    (task : Task) (chronicled : state.Chronicled start) :
    EndsFresh task state.forget state.chronicle (registries.recorded.runText
      (recordingSignals reenter) task (trimmed task.source) (state.record (.began task))) := by
  have own : state.Chronicled state.chronicle :=
    { chronicled with since := List.suffix_refl _ }
  have begun : (state.record (.began task)).Chronicled
      (.began task state.forget :: state.chronicle) :=
    { own.record rfl rfl with since := List.suffix_refl _ }
  have generation : (state.record (.began task)).generation =
      state.chronicle.countP Happening.isInvalidation := chronicled.generation
  rw [runText_eq, generation]
  dsimp only
  have counted : (state.record (.began task)).begin.Chronicled
      (.began task state.forget :: state.chronicle) := begun.congr rfl rfl rfl
  have logged := notedFrom_log (state.record (.began task)).begin state.configuration
    "Evaluating expression: \x7b\x7d" [.text (trimmed task.source)]
  rw [show (state.record (.began task)).configuration = state.configuration from rfl]
  generalize EngineState.log _ state.configuration "Evaluating expression: \x7b\x7d"
    [.text (trimmed task.source)] = noted at logged ⊢
  have defaults : noted.defaults = state.defaults := by rw [logged]; rfl
  have results : noted.results = state.results := by rw [logged]; rfl
  rw [defaults]
  cases under : task.key? state.configuration (trimmed task.source)
      (task.mergedVariables state.defaults) with
  | none =>
    exact endsFresh_workAfresh registries fresh _ _ (fun _ is => by cases is) _
      (counted.noted logged)
  | some key =>
    obtain ⟨asked, found⟩ := keptResult_eq noted state.configuration (trimmed task.source) key
    rw [results] at asked
    dsimp only
    generalize noted.keptResult state.configuration (trimmed task.source) key = lookup
      at asked found ⊢
    rcases lookup with ⟨_ | result, after⟩
    · refine endsFresh_workAfresh registries fresh _ _ (fun own is => ?_) _
        ((counted.noted logged).noted found)
      cases is
      exact ⟨under, Option.map_eq_none_iff.1 asked.symm⟩
    · exact ((counted.noted logged).noted found).record rfl rfl

/-- However evaluations are nested, work on a task leaves no stale result. -/
theorem runRecorded_chronicled (registries : Registries Memory) (reentries : Nat) (task : Task)
    (chronicled : state.Chronicled start) :
    (registries.runRecorded reentries task state).2.Chronicled start := by
  induction reentries generalizing task state start with
  | zero => exact chronicled
  | succ reentries inductionHypothesis =>
    have fresh : StaysFresh (backThrough (registries.runRecorded reentries)) := by
      intro start source given state chronicled
      have worked := inductionHypothesis ⟨source, some given, none⟩ chronicled
      unfold backThrough
      generalize registries.runRecorded reentries ⟨source, some given, none⟩ state = work
        at worked ⊢
      rcases work with ⟨error | result, after⟩
      · exact worked.noted (notedFrom_report after error)
      · exact worked
    unfold runRecorded
    dsimp only
    split
    · exact chronicled
    · exact (endsFresh_runText registries fresh task chronicled).since_trans
        (chronicled.since.trans (List.suffix_cons _ _))

end Work

end Registries

/-! ### Calls -/

namespace Engine

theorem notedFrom_reporting {Result : Type} (engine : Engine Memory)
    (pair : Except EngineError Result × EngineState Memory) :
    pair.2.NotedFrom (engine.reporting pair).2.state := by
  rcases pair with ⟨error | result, state⟩
  · exact EngineState.notedFrom_report state error
  · rfl

theorem notedFrom_reporting_extracted (Result : Type) [Extractable Result] (engine : Engine Memory)
    (pair : Except EngineError Value × EngineState Memory) :
    pair.2.NotedFrom
      (engine.reporting (extracted pair : Except EngineError Result × _)).2.state := by
  rw [extracted_eq]
  exact notedFrom_reporting engine _

theorem results_compile (engine : Engine Memory) (source : String) :
    (engine.compile source).2.state.results = engine.state.results ∧
      (engine.compile source).2.state.generation = engine.state.generation := by
  unfold compile
  dsimp only
  split
  · have noted := notedFrom_reporting engine
      ((.error .emptyExpression, engine.state) : Except EngineError Expression × _)
    rw [noted]
    exact ⟨rfl, rfl⟩
  · obtain ⟨trees, searched⟩ :=
      engine.state.notedFrom_treeOf engine.state.configuration (trimmed source)
    have noted := notedFrom_reporting engine
      (engine.state.treeOf engine.state.configuration (trimmed source))
    rw [noted, searched]
    exact ⟨rfl, rfl⟩

end Engine

namespace Call

open Engine

/-- A call that has a task carried out does nothing else to an engine. -/
theorem notedFrom_perform (engine : Engine Memory) {call : Call Memory} {task : Task}
    (is : call.task? = some task) :
    (engine.registries.run task engine.state).2.NotedFrom (call.perform engine).2.state := by
  cases call with
  | evaluate source given =>
    cases is
    dsimp only [perform, Answer.ofOutcome, Engine.evaluate]
    exact notedFrom_reporting engine _
  | evaluateAs Result extractable source =>
    cases is
    dsimp only [perform, Answer.ofOutcome, Engine.evaluateAs]
    exact notedFrom_reporting_extracted Result engine _
  | evaluateAsWith Result extractable source given =>
    cases is
    dsimp only [perform, Answer.ofOutcome, Engine.evaluateAsWith]
    exact notedFrom_reporting_extracted Result engine _
  | evaluateNamed source typeName =>
    cases is
    dsimp only [perform, Answer.ofOutcome, Engine.evaluateNamed]
    exact notedFrom_reporting engine _
  | _ => cases is

/-- Any other call drops the results in a new generation, or leaves them as they are. -/
theorem results_perform (engine : Engine Memory) {call : Call Memory} (is : call.task? = none) :
    (call.invalidates engine = true ∧ (call.perform engine).2.state.results = .empty ∧
        (call.perform engine).2.state.generation = engine.state.generation + 1) ∨
      (call.invalidates engine = false ∧
        (call.perform engine).2.state.results = engine.state.results ∧
        (call.perform engine).2.state.generation = engine.state.generation) := by
  cases call with
  | evaluate source given => cases is
  | evaluateAs Result extractable source => cases is
  | evaluateAsWith Result extractable source given => cases is
  | evaluateNamed source typeName => cases is
  | compile source =>
    dsimp only [perform, Answer.ofOutcome]
    exact Or.inr ⟨rfl, results_compile engine source⟩
  | validate source =>
    dsimp only [perform, Answer.ofOutcome]
    rw [validate_eq]
    dsimp only
    exact Or.inr ⟨rfl, results_compile engine source⟩
  | format source layout =>
    dsimp only [perform, Answer.ofOutcome]
    rw [format_eq]
    dsimp only
    exact Or.inr ⟨rfl, results_compile engine source⟩
  | defineFunction definition =>
    dsimp only [perform, Answer.ofOutcome, invalidates]
    unfold Engine.defineFunction
    cases FunctionDefinition.parse definition with
    | error cause =>
      have noted := notedFrom_reporting engine
        ((.error (.definition cause), engine.state) : Except EngineError Unit × _)
      dsimp only
      rw [noted]
      exact Or.inr ⟨rfl, rfl, rfl⟩
    | ok definition => exact Or.inl ⟨rfl, rfl, rfl⟩
  | unregisterFunction name =>
    dsimp only [perform, invalidates]
    unfold Engine.unregisterFunction
    cases engine.hasFunction name with
    | false => exact Or.inr ⟨rfl, rfl, rfl⟩
    | true => exact Or.inl ⟨rfl, rfl, rfl⟩
  | removeContext name =>
    dsimp only [perform, invalidates]
    unfold Engine.removeContext
    cases engine.context? name with
    | none => exact Or.inr ⟨rfl, rfl, rfl⟩
    | some value => exact Or.inl ⟨rfl, rfl, rfl⟩
  | registerOperationUnnoticed operation => exact Or.inr ⟨rfl, rfl, rfl⟩
  | setVariable name value => exact Or.inr ⟨rfl, rfl, rfl⟩
  | removeVariable name => exact Or.inr ⟨rfl, rfl, rfl⟩
  | clearVariables => exact Or.inr ⟨rfl, rfl, rfl⟩
  | setLogger present => exact Or.inr ⟨rfl, rfl, rfl⟩
  | setErrorHandler present => exact Or.inr ⟨rfl, rfl, rfl⟩
  | _ => exact Or.inl ⟨rfl, rfl, rfl⟩

/-- Whatever an engine is called for, it keeps no stale result. -/
theorem chronicled_perform (engine : Engine Memory) (before : Chronicle Memory)
    (chronicled : (engine.state.extend before).Chronicled []) (call : Call Memory) :
    ((call.perform engine).2.state.extend (call.chronicle engine before)).Chronicled [] := by
  unfold chronicle
  cases is : call.task? with
  | some task =>
    have noted := notedFrom_perform engine is
    unfold Registries.run at noted
    generalize engine.registries.platform.nestings + 1 = within at noted
    have worked := Registries.runRecorded_chronicled engine.registries within task chronicled
    have same := Registries.runRecorded_forget engine.registries within task
      (engine.state.extend before)
    rw [← show forgetting _ = engine.registries.runWithin within task engine.state from same]
      at noted
    dsimp only
    generalize engine.registries.runRecorded within task (engine.state.extend before) = work
      at worked noted ⊢
    refine worked.congr rfl ?_ ?_
    · show (call.perform engine).2.state.results = work.2.results
      rw [noted]
      rfl
    · show (call.perform engine).2.state.generation = work.2.generation
      rw [noted]
      rfl
  | none =>
    rcases results_perform engine is with ⟨invalidates, results, generation⟩ |
      ⟨stays, results, generation⟩
    · dsimp only
      rw [if_pos invalidates]
      exact chronicled.invalidated (rfl :
        ((call.perform engine).2.state.extend before).chronicle = _) results generation
    · dsimp only
      rw [if_neg (Bool.eq_false_iff.1 stays)]
      exact chronicled.congr rfl results generation

end Call

namespace Engine

theorem chronicled_answerAll (calls : List (Call Memory)) (engine : Engine Memory)
    (before : Chronicle Memory) (chronicled : (engine.state.extend before).Chronicled []) :
    ((engine.answerAll id calls).2.state.extend (engine.chronicle before calls)).Chronicled [] := by
  induction calls generalizing engine before with
  | nil => exact chronicled
  | cons call rest inductionHypothesis =>
    rw [answerAll_cons]
    exact inductionHypothesis _ _ (call.chronicled_perform engine before chronicled)

theorem chronicled_new (platform : Platform) (configuration : Configuration) (memory : Memory) :
    ((Engine.new platform configuration memory).state.extend
      ([] : Chronicle Memory)).Chronicled [] where
  since := List.suffix_refl []
  past := trivial
  told := rfl
  generation := rfl

/-- The chronicle of an engine tells of every invalidation that the engine knows of. -/
theorem generation_eq_invalidations (platform : Platform) (configuration : Configuration)
    (memory : Memory) (calls : List (Call Memory)) :
    ((Engine.new platform configuration memory).answerAll id calls).2.state.generation =
      ((Engine.new platform configuration memory).chronicle [] calls).countP
        Happening.isInvalidation :=
  (chronicled_answerAll calls _ [] (chronicled_new platform configuration memory)).generation

/-- The kept results change at the moments of the chronicle only. -/
theorem results_eq_told (platform : Platform) (configuration : Configuration)
    (memory : Memory) (calls : List (Call Memory)) :
    ((Engine.new platform configuration memory).answerAll id calls).2.state.results =
      ((Engine.new platform configuration memory).chronicle [] calls).results :=
  (chronicled_answerAll calls _ [] (chronicled_new platform configuration memory)).told

/-- Whatever a new engine is called for, and whatever its host functions do while they run: at
every moment each result that it keeps was computed by an evaluation that began after the latest
invalidation. -/
theorem keeps_nothing_stale (platform : Platform) (configuration : Configuration)
    (memory : Memory) (calls : List (Call Memory)) :
    ((Engine.new platform configuration memory).chronicle [] calls).WasFresh ∧
      ((Engine.new platform configuration memory).answerAll id calls).2.state.IsFresh
        ((Engine.new platform configuration memory).chronicle [] calls) :=
  have chronicled := chronicled_answerAll calls _ [] (chronicled_new platform configuration memory)
  ⟨chronicled.past, chronicled.fresh⟩

-- The function invalidates while the first evaluation goes on, whose result is then not kept.
example :
    let calls : List (Call Unit) := [
      .registerFunction "poke" .any fun _ _ =>
        .ask (.putContext "mode" .null) fun _ => .give .null,
      .evaluate "poke()" .empty,
      .evaluate "1" .empty]
    ((Engine.new ⟨fun _ _ => .distant, 1⟩ {} ()).chronicle [] calls).map Happening.isInvalidation =
        [false, false, false, true, false, true] ∧
      ((Engine.new ⟨fun _ _ => .distant, 1⟩ {} ()).answerAll id calls).2.state.results.keys.map
        CacheKey.expression = ["1"] := by
  decide +kernel

end Engine

end Reckon
