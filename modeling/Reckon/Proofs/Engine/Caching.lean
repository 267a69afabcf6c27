/-
This file shows that caching cannot be noticed: the answers to a sequence of
calls are those of an engine to which both caches always miss.

Two engines are followed side by side that know the same functions, operations
and types and agree in all of their state but caches and journals. What either
of them keeps is right. Each call gets the same answer from both and leaves
them so. It does not matter which of the two keeps more.
-/

import Reckon.Proofs.Engine.Kept

namespace Reckon

universe u

variable {Memory : Type}

/-! ### Functions that ask for no more than they may -/

namespace Registries

variable {registries : Registries Memory}

theorem isOrderly_builtIn (platform : Platform) :
    (⟨.builtIn, .empty, .empty, platform⟩ : Registries Memory).IsOrderly := by
  intro name function host found
  cases found

theorem IsOrderly.congr (orderly : registries.IsOrderly) (operations : OperationRegistry)
    (types : TypeRegistry) :
    Registries.IsOrderly { registries with operations, types } :=
  orderly

theorem IsOrderly.register (orderly : registries.IsOrderly) (function : RegisteredFunction Memory)
    (asks : ∀ host, function.callable = .host host →
      ∀ arguments hint, (host arguments hint).AsksOnly function.signature.Permits) :
    IsOrderly { registries with functions := registries.functions.register function } :=
  fun name found host known =>
    FunctionRegistry.forall_register
      (fun name function known host => orderly name function host known) asks name found known host

theorem IsOrderly.unregister (orderly : registries.IsOrderly) (removed : String) :
    IsOrderly { registries with functions := registries.functions.unregister removed } :=
  fun name found host known =>
    FunctionRegistry.forall_unregister
      (fun name function known host => orderly name function host known) removed name found known
      host

end Registries

/-! ### Engines that keep nothing wrong -/

/-- What the answers of an engine depend on where nothing is kept. -/
structure Standing (Memory : Type) where
  registries : Registries Memory
  configuration : Configuration
  context : Dictionary String Value
  defaults : Dictionary String Value
  memory : Memory

namespace Engine

/-- Where an engine stands. -/
def standing (engine : Engine Memory) : Standing Memory where
  registries := engine.registries
  configuration := engine.state.configuration
  context := engine.state.context
  defaults := engine.state.defaults
  memory := engine.state.memory

/-- An engine whose host functions are orderly and whose caches hold nothing wrong. -/
structure Sound (used : List (String × Dictionary String Value)) (engine : Engine Memory) :
    Prop where
  orderly : engine.registries.IsOrderly
  kept : engine.state.Sound engine.registries used

/-- Two engines that stand at the same point and keep nothing wrong. -/
structure Matching (used : List (String × Dictionary String Value))
    (first second : Engine Memory) : Prop where
  standing : first.standing = second.standing
  first : first.Sound used
  second : second.Sound used

variable {used : List (String × Dictionary String Value)} {engine first second : Engine Memory}
  {Result : Type}

theorem sound_new {platform : Platform} {configuration : Configuration}
    (inTime : platform.LeavesTime configuration) (memory : Memory) :
    (Engine.new platform configuration memory).Sound used :=
  ⟨Registries.isOrderly_builtIn platform,
    EngineState.sound_of_noResults inTime (fun _ _ found => by cases found) rfl⟩

theorem Sound.withoutKept (sound : engine.Sound used) : engine.withoutKept.Sound used :=
  ⟨sound.orderly,
    EngineState.sound_of_noResults sound.kept.inTime (fun _ _ found => by cases found) rfl⟩

/-- A change of the state that concerns neither caches nor settings nor context. -/
theorem Sound.withState (sound : engine.Sound used) {state : EngineState Memory}
    (trees : state.trees = engine.state.trees) (results : state.results = engine.state.results)
    (configuration : state.configuration = engine.state.configuration)
    (context : state.context = engine.state.context) : (engine.withState state).Sound used :=
  ⟨sound.orderly, sound.kept.congr trees results configuration context⟩

/-- Any change that drops the results, adds no tree and leaves time. -/
theorem Sound.invalidate (sound : engine.Sound used) {registries : Registries Memory}
    (orderly : registries.IsOrderly) {state : EngineState Memory}
    (inTime : registries.platform.LeavesTime state.configuration)
    (trees : state.trees = engine.state.trees) (results : state.results = .empty) :
    Engine.Sound used ⟨registries, state⟩ := by
  refine ⟨orderly, EngineState.sound_of_noResults inTime ?_ results⟩
  rw [trees]
  exact sound.kept.trees

/-- A change that leads from where an engine stands to where it stands next, and adds nothing
wrong to the caches, leads matching engines to matching engines. -/
theorem Matching.change (matching : Matching used first second)
    {change : Engine Memory → Engine Memory} (next : Standing Memory → Standing Memory)
    (stands : ∀ engine, (change engine).standing = next engine.standing)
    (sound : ∀ engine, engine.registries.platform = first.registries.platform →
      engine.Sound used → (change engine).Sound used) :
    Matching used (change first) (change second) := by
  have platform : second.registries.platform = first.registries.platform :=
    congrArg (fun standing => standing.registries.platform) matching.standing.symm
  refine ⟨?_, sound first rfl matching.first, sound second platform matching.second⟩
  rw [stands, stands, matching.standing]

/-! ### Work on texts -/

/-- Two answers that are the same, of engines that match afterwards and have the given default
variables. -/
structure SameAnswer {Answer : Type u} (used : List (String × Dictionary String Value))
    (defaults : Dictionary String Value) (one other : Answer × Engine Memory) : Prop where
  answer : one.1 = other.1
  matching : Matching used one.2 other.2
  defaults : one.2.state.defaults = defaults

theorem SameAnswer.map {Other : Type} {defaults : Dictionary String Value}
    {one other : Result × Engine Memory} (same : SameAnswer used defaults one other)
    (change : Result → Other) :
    SameAnswer used defaults (change one.1, one.2) (change other.1, other.2) :=
  ⟨congrArg change same.answer, same.matching, same.defaults⟩

theorem SameAnswer.ofOutcome {defaults : Dictionary String Value}
    {one other : Except EngineError Result × Engine Memory}
    (same : SameAnswer used defaults one other) :
    SameAnswer used defaults (Answer.ofOutcome one) (Answer.ofOutcome other) :=
  ⟨congrArg (Answer.outcome Result) same.answer, same.matching, same.defaults⟩

theorem standing_reporting (engine : Engine Memory)
    (pair : Except EngineError Result × EngineState Memory) :
    (engine.reporting pair).2.standing = (engine.withState pair.2).standing := by
  rcases pair with ⟨error | result, state⟩
  · have noted := EngineState.notedFrom_report state error
    unfold reporting standing
    dsimp only [Engine.withState]
    rw [noted]
  · rfl

theorem reporting_spec (pair : Except EngineError Result × EngineState Memory)
    (sound : (engine.withState pair.2).Sound used) :
    (engine.reporting pair).1 = pair.1 ∧
      (engine.reporting pair).2.standing = (engine.withState pair.2).standing ∧
      (engine.reporting pair).2.Sound used := by
  refine ⟨engine.fst_reporting pair, engine.standing_reporting pair, ?_⟩
  rcases pair with ⟨error | result, state⟩
  · have noted := EngineState.notedFrom_report state error
    exact ⟨sound.orderly, sound.kept.followsFrom noted.follows⟩
  · exact sound

/-- The report of an error makes no difference to an answer. -/
theorem sameAnswer_reporting (one other : Except EngineError Result × EngineState Memory)
    (same : one.1 = other.1)
    (matching : Matching used (first.withState one.2) (second.withState other.2)) :
    SameAnswer used one.2.defaults (first.reporting one) (second.reporting other) := by
  obtain ⟨answer, standing, sound⟩ := reporting_spec one matching.first
  obtain ⟨answer', standing', sound'⟩ := reporting_spec other matching.second
  refine ⟨?_, ⟨?_, sound, sound'⟩, congrArg Standing.defaults standing⟩
  · rw [answer, answer', same]
  · rw [standing, standing', matching.standing]

theorem standing_of_worked {state : EngineState Memory} (worked : engine.state.WorkedFrom state) :
    (engine.withState state).standing = { engine.standing with memory := state.memory } := by
  unfold standing Engine.withState
  rw [worked]

/-- Matching engines that accomplish one outcome give one answer, also when the result is read as
another type afterwards. -/
theorem sameAnswer_of_accomplishes (matching : Matching used first second)
    {outcome : Except EngineError Value × Memory}
    {work work' : Except EngineError Value × EngineState Memory}
    (accomplishes : first.registries.Accomplishes used first.state outcome work)
    (accomplishes' : second.registries.Accomplishes used second.state outcome work')
    (read : Except EngineError Value → Except EngineError Result) :
    SameAnswer used first.state.defaults (first.reporting (read work.1, work.2))
      (second.reporting (read work'.1, work'.2)) := by
  rw [← accomplishes.worked.defaults]
  refine sameAnswer_reporting (read work.1, work.2) (read work'.1, work'.2) ?_
    ⟨?_, ⟨matching.first.orderly, accomplishes.sound⟩,
      ⟨matching.second.orderly, accomplishes'.sound⟩⟩
  · rw [accomplishes.result, accomplishes'.result]
  · rw [standing_of_worked accomplishes.worked, standing_of_worked accomplishes'.worked,
      accomplishes.memory, accomplishes'.memory, matching.standing]

/-- Work on a task gives matching engines the same result. -/
theorem Matching.run (matching : Matching used first second) (apart : KeysTellApart used)
    (task : Task)
    (uses : ∀ given, task.given = some given →
      (trimmed task.source, first.state.defaults.merge given) ∈ used)
    (read : Except EngineError Value → Except EngineError Result) :
    let work := first.registries.run task first.state
    let work' := second.registries.run task second.state
    SameAnswer used first.state.defaults (first.reporting (read work.1, work.2))
      (second.reporting (read work'.1, work'.2)) := by
  have registries : first.registries = second.registries :=
    congrArg Standing.registries matching.standing
  have defaults : first.state.defaults = second.state.defaults :=
    congrArg Standing.defaults matching.standing
  let reenter : Registries.Reenter Memory := fun _ _ state => (.error .emptyExpression, state)
  have accomplishes := Registries.run_of_sound reenter matching.first.orderly
    matching.first.kept apart task uses
  have accomplishes' := Registries.run_of_sound reenter matching.second.orderly
    matching.second.kept apart task (defaults ▸ uses)
  have sameOutcome : first.registries.outcome reenter task first.state =
      second.registries.outcome reenter task second.state := by
    rw [← registries]
    exact Registries.outcome_congr matching.first.orderly matching.first.kept.inTime
      (congrArg Standing.configuration matching.standing)
      (congrArg Standing.context matching.standing) defaults
      (congrArg Standing.memory matching.standing) task
  rw [← sameOutcome] at accomplishes'
  exact sameAnswer_of_accomplishes matching accomplishes accomplishes' read

/-- What an evaluation that is read as another type answers. -/
def readAs (Result : Type) [Extractable Result] :
    Except EngineError Value → Except EngineError Result
  | .error error => .error error
  | .ok value => (Extractable.coerceFrom value).mapError fun cause => .evaluation (.cast cause)

theorem extracted_eq [Extractable Result] (pair : Except EngineError Value × EngineState Memory) :
    extracted pair = (readAs Result pair.1, pair.2) := by
  rcases pair with ⟨error | value, state⟩
  · rfl
  · rfl

/-- Two engines that match find the same tree for a text, or the same error. -/
theorem Matching.compile (matching : Matching used first second) (source : String) :
    SameAnswer used first.state.defaults (first.compile source) (second.compile source) := by
  unfold Engine.compile
  obtain ⟨found, worked, memory, sound⟩ := EngineState.treeOf_of_sound matching.first.kept
    first.state.configuration (trimmed source)
  obtain ⟨found', worked', memory', sound'⟩ := EngineState.treeOf_of_sound matching.second.kept
    second.state.configuration (trimmed source)
  dsimp only
  split
  · exact sameAnswer_reporting (_, first.state) (_, second.state) rfl matching
  · rw [← worked.defaults]
    refine sameAnswer_reporting _ _ ?_ ⟨?_, ⟨matching.first.orderly, sound⟩,
      ⟨matching.second.orderly, sound'⟩⟩
    · rw [found, found']
    · rw [standing_of_worked worked, standing_of_worked worked', memory, memory',
        matching.standing, show first.state.memory = second.state.memory from
          congrArg Standing.memory matching.standing]

theorem validate_eq (engine : Engine Memory) (source : String) :
    engine.validate source =
      ((engine.compile source).1.map fun _ => (), (engine.compile source).2) := by
  unfold validate
  rcases engine.compile source with ⟨result, after⟩
  rfl

theorem format_eq (engine : Engine Memory) (source : String) (layout : Layout) :
    engine.format source layout =
      ((engine.compile source).1.map fun tree => tree.render layout,
        (engine.compile source).2) := by
  unfold format
  rcases engine.compile source with ⟨result, after⟩
  rfl

end Engine

/-! ### Calls -/

namespace Call

open Engine

/-- An engine stays on its platform. -/
theorem platform_perform (call : Call Memory) (engine : Engine Memory) :
    (call.perform engine).2.registries.platform = engine.registries.platform := by
  cases call with
  | evaluate | evaluateAs | evaluateAsWith | evaluateNamed | compile | validate | format =>
    simp only [perform, Answer.ofOutcome, Engine.evaluate, Engine.evaluateAs,
      Engine.evaluateAsWith, Engine.evaluateNamed, Engine.compile, validate_eq, format_eq,
      registries_reporting]
  | defineFunction definition =>
    dsimp only [perform, Answer.ofOutcome]
    unfold Engine.defineFunction
    cases FunctionDefinition.parse definition with
    | error cause => rw [registries_reporting]
    | ok definition => rfl
  | unregisterFunction name =>
    dsimp only [perform]
    unfold Engine.unregisterFunction
    split <;> rfl
  | removeContext name =>
    dsimp only [perform]
    unfold Engine.removeContext
    split <;> rfl
  | _ => rfl

variable {used : List (String × Dictionary String Value)} {first second : Engine Memory}

/-- A call that is answered from where an engine stands and changes that alone. -/
theorem sameAnswer_of_change (matching : Matching used first second)
    (change : Engine Memory → Engine Memory) (next : Standing Memory → Standing Memory)
    (stands : ∀ engine, (change engine).standing = next engine.standing)
    (sound : ∀ engine, engine.registries.platform = first.registries.platform →
      engine.Sound used → (change engine).Sound used)
    (answer : Standing Memory → Answer) :
    SameAnswer used (next first.standing).defaults (answer first.standing, change first)
      (answer second.standing, change second) :=
  ⟨congrArg answer matching.standing, matching.change next stands sound,
    congrArg Standing.defaults (stands first)⟩

/-- A call gets the same answer from engines that match, and leaves them so. -/
theorem sameAnswer_perform (matching : Matching used first second) (apart : KeysTellApart used)
    (call : Call Memory) (orderly : call.IsOrderly first.registries.platform)
    (uses : ∀ pair, call.usedVariables? first.state.defaults = some pair → pair ∈ used) :
    SameAnswer used (call.defaultsAfter first.state.defaults) (call.perform first)
      (call.perform second) := by
  cases call with
  | evaluate source given =>
    have same := matching.run apart ⟨source, some given, none⟩
      (fun given is => uses _ (by cases is; rfl)) id
    dsimp only [id, Prod.eta] at same
    exact same.ofOutcome
  | evaluateAs Result extractable source =>
    have same := matching.run apart ⟨source, none, none⟩ (fun given is => by cases is)
      (readAs Result)
    dsimp only at same
    rw [← extracted_eq, ← extracted_eq] at same
    exact same.ofOutcome
  | evaluateAsWith Result extractable source given =>
    have same := matching.run apart ⟨source, some given, none⟩
      (fun given is => uses _ (by cases is; rfl)) (readAs Result)
    dsimp only at same
    rw [← extracted_eq, ← extracted_eq] at same
    exact same.ofOutcome
  | evaluateNamed source typeName =>
    have same := matching.run apart ⟨source, none, some typeName⟩ (fun given is => by cases is) id
    dsimp only [id, Prod.eta] at same
    exact same.ofOutcome
  | compile source => exact (matching.compile source).ofOutcome
  | validate source =>
    have same := (matching.compile source).map (Except.map fun _ => ())
    rw [← validate_eq, ← validate_eq] at same
    exact same.ofOutcome
  | format source layout =>
    have same := (matching.compile source).map (Except.map fun tree => tree.render layout)
    rw [← format_eq, ← format_eq] at same
    exact same.ofOutcome
  | setVariable name value =>
    exact sameAnswer_of_change matching (·.setVariable name value)
      (fun standing => { standing with defaults := standing.defaults.insert name value })
      (fun _ => rfl) (fun _ _ sound => sound.withState rfl rfl rfl rfl) fun _ => .done
  | removeVariable name =>
    exact sameAnswer_of_change matching (fun engine => (engine.removeVariable name).2)
      (fun standing => { standing with defaults := standing.defaults.erase name })
      (fun _ => rfl) (fun _ _ sound => sound.withState rfl rfl rfl rfl)
      fun standing => .found (standing.defaults.get? name)
  | clearVariables =>
    exact sameAnswer_of_change matching (·.clearVariables)
      (fun standing => { standing with defaults := .empty })
      (fun _ => rfl) (fun _ _ sound => sound.withState rfl rfl rfl rfl) fun _ => .done
  | registerFunction name signature function =>
    exact sameAnswer_of_change matching (·.registerFunction name signature function)
      (fun standing => { standing with registries := { standing.registries with
        functions := standing.registries.functions.register ⟨name, signature, .host function⟩ } })
      (fun _ => rfl)
      (fun _ _ sound => sound.invalidate
        (sound.orderly.register _ fun host is => by cases is; exact orderly)
        sound.kept.inTime rfl rfl) fun _ => .done
  | defineFunction definition =>
    show SameAnswer used _ (Answer.ofOutcome (first.defineFunction definition))
      (Answer.ofOutcome (second.defineFunction definition))
    unfold Engine.defineFunction
    cases FunctionDefinition.parse definition with
    | error cause =>
      exact (sameAnswer_reporting (.error (.definition cause), first.state)
        (.error (.definition cause), second.state) rfl matching).ofOutcome
    | ok definition =>
      exact sameAnswer_of_change matching
        (fun engine =>
          (engine.withState (engine.state.note (.defined definition.name))).withFunctions
            (engine.registries.functions.register definition.toFunction))
        (fun standing => { standing with registries := { standing.registries with
          functions := standing.registries.functions.register definition.toFunction } })
        (fun _ => rfl)
        (fun _ _ sound => sound.invalidate
          (sound.orderly.register _ fun host is => by cases is) sound.kept.inTime rfl rfl)
        fun _ => .outcome Unit (.ok ())
  | unregisterFunction name =>
    have sameKnown : first.hasFunction name = second.hasFunction name :=
      congrArg (fun standing => standing.registries.functions.contains name) matching.standing
    show SameAnswer used _
      (Answer.truth (first.unregisterFunction name).1, (first.unregisterFunction name).2)
      (Answer.truth (second.unregisterFunction name).1, (second.unregisterFunction name).2)
    unfold Engine.unregisterFunction
    rw [← sameKnown]
    cases first.hasFunction name with
    | false => exact ⟨rfl, matching, rfl⟩
    | true =>
      exact sameAnswer_of_change matching
        (fun engine => engine.withFunctions (engine.registries.functions.unregister name))
        (fun standing => { standing with registries := { standing.registries with
          functions := standing.registries.functions.unregister name } })
        (fun _ => rfl)
        (fun _ _ sound =>
          sound.invalidate (sound.orderly.unregister name) sound.kept.inTime rfl rfl)
        fun _ => .truth true
  | registerOperation operation =>
    exact sameAnswer_of_change matching (·.registerOperation operation)
      (fun standing => { standing with registries := { standing.registries with
        operations := standing.registries.operations.register operation } })
      (fun _ => rfl)
      (fun _ _ sound => sound.invalidate (sound.orderly.congr _ _) sound.kept.inTime rfl rfl)
      fun _ => .done
  | registerOperationUnnoticed operation => exact orderly.elim
  | registerType table name resolver =>
    exact sameAnswer_of_change matching (·.registerType table name resolver)
      (fun standing => { standing with registries := { standing.registries with
        types := standing.registries.types.register table name resolver } })
      (fun _ => rfl)
      (fun _ _ sound => sound.invalidate (sound.orderly.congr _ _) sound.kept.inTime rfl rfl)
      fun _ => .done
  | configure change =>
    exact sameAnswer_of_change matching (·.configure change)
      (fun standing => { standing with configuration := change standing.configuration })
      (fun _ => rfl)
      (fun _ platform sound => sound.invalidate sound.orderly
        (platform ▸ orderly _ (platform ▸ sound.kept.inTime)) rfl rfl)
      fun _ => .done
  | setLogger present =>
    exact sameAnswer_of_change matching (·.setLogger present) id (fun _ => rfl)
      (fun _ _ sound => sound.withState rfl rfl rfl rfl) fun _ => .done
  | setErrorHandler present =>
    exact sameAnswer_of_change matching (·.setErrorHandler present) id (fun _ => rfl)
      (fun _ _ sound => sound.withState rfl rfl rfl rfl) fun _ => .done
  | putContext name value =>
    exact sameAnswer_of_change matching (·.putContext name value)
      (fun standing => { standing with context := standing.context.insert name value })
      (fun _ => rfl)
      (fun _ _ sound => sound.invalidate sound.orderly sound.kept.inTime rfl rfl) fun _ => .done
  | removeContext name =>
    have sameValue : first.context? name = second.context? name :=
      congrArg (fun standing => standing.context.get? name) matching.standing
    show SameAnswer used _
      (Answer.found (first.removeContext name).1, (first.removeContext name).2)
      (Answer.found (second.removeContext name).1, (second.removeContext name).2)
    unfold Engine.removeContext
    rw [← sameValue]
    cases first.context? name with
    | none => exact ⟨rfl, matching, rfl⟩
    | some value =>
      exact sameAnswer_of_change matching
        (fun engine => engine.withState
          { engine.state with context := engine.state.context.erase name }.invalidate)
        (fun standing => { standing with context := standing.context.erase name })
        (fun _ => rfl)
        (fun _ _ sound => sound.invalidate sound.orderly sound.kept.inTime rfl rfl)
        fun _ => .found (some value)
  | clearContext =>
    exact sameAnswer_of_change matching (·.clearContext)
      (fun standing => { standing with context := .empty })
      (fun _ => rfl)
      (fun _ _ sound => sound.invalidate sound.orderly sound.kept.inTime rfl rfl) fun _ => .done
  | clearCaches =>
    exact sameAnswer_of_change matching (·.clearCaches) id (fun _ => rfl)
      (fun _ _ sound =>
        sound.withoutKept.invalidate sound.orderly sound.kept.inTime rfl rfl) fun _ => .done

end Call

/-! ### Sequences of calls -/

namespace Engine

variable {used : List (String × Dictionary String Value)}

/-- Engines that match answer a sequence of calls alike, also if either is prepared for each call
in a way that does not show. -/
theorem sameAnswers_answerAll {prepare prepare' : Engine Memory → Engine Memory}
    (prepares : ∀ first second, Matching used first second →
      Matching used (prepare first) (prepare' second))
    (keeps : ∀ engine, (prepare engine).registries = engine.registries ∧
      (prepare engine).state.defaults = engine.state.defaults)
    (apart : KeysTellApart used) (calls : List (Call Memory)) {first second : Engine Memory}
    (matching : Matching used first second)
    (orderly : ∀ call ∈ calls, call.IsOrderly first.registries.platform)
    (uses : ∀ pair ∈ Call.usedVariables first.state.defaults calls, pair ∈ used) :
    (first.answerAll prepare calls).1 = (second.answerAll prepare' calls).1 ∧
      Matching used (first.answerAll prepare calls).2 (second.answerAll prepare' calls).2 := by
  induction calls generalizing first second with
  | nil => exact ⟨rfl, matching⟩
  | cons call rest inductionHypothesis =>
    obtain ⟨registries, defaults⟩ := keeps first
    have same := Call.sameAnswer_perform (prepares first second matching) apart call
      (by rw [registries]; exact orderly call List.mem_cons_self) fun pair found => by
        rw [defaults] at found
        refine uses pair (List.mem_append_left _ ?_)
        rw [found]
        exact List.mem_singleton_self pair
    have platform := call.platform_perform (prepare first)
    rw [registries] at platform
    have sameRest := inductionHypothesis same.matching
      (fun call member => by
        rw [platform]
        exact orderly call (List.mem_cons_of_mem _ member)) fun pair member => by
        rw [same.defaults, defaults] at member
        exact uses pair (List.mem_append_right _ member)
    rw [answerAll_cons, answerAll_cons, same.answer, sameRest.1]
    exact ⟨rfl, sameRest.2⟩

/-- A new engine answers calls as it would if both caches were emptied before each of them. -/
theorem sameAnswers_withoutKept {platform : Platform} {configuration : Configuration}
    (inTime : platform.LeavesTime configuration) (memory : Memory) (apart : KeysTellApart used)
    (calls : List (Call Memory)) (orderly : ∀ call ∈ calls, call.IsOrderly platform)
    (uses : ∀ pair ∈ Call.usedVariables .empty calls, pair ∈ used) :
    ((Engine.new platform configuration memory).answerAll id calls).1 =
        ((Engine.new platform configuration memory).answerAll withoutKept calls).1 ∧
      Matching used ((Engine.new platform configuration memory).answerAll id calls).2
        ((Engine.new platform configuration memory).answerAll withoutKept calls).2 := by
  have new : (Engine.new platform configuration memory).Sound used :=
    sound_new inTime memory
  refine sameAnswers_answerAll (fun first second matching => ?_) (fun _ => ⟨rfl, rfl⟩) apart
    calls ⟨rfl, new, new⟩ orderly uses
  exact ⟨matching.standing, matching.first, matching.second.withoutKept⟩

end Engine

end Reckon
