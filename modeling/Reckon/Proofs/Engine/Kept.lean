/-
This file shows that an engine that keeps trees and results answers as if it
kept none, as long as what it keeps is right: a kept tree is the tree of its
text, and a kept result is what its text comes to under the settings and the
context of the moment, whatever the host memory is. Settings under which an
evaluation may run out of time are left out: under them a text may come to
different results.

Work on a text leaves what is kept right. A tree is kept under the text it was
read from, and a result only if its evaluation ended with leave to keep it.
-/

import Reckon.Proofs.Engine.Fresh

namespace Reckon

variable {Memory : Type}

/-! ### What is kept -/

namespace EngineState

/-- Every kept tree is the tree of the text it is kept under. -/
def KeepsRightTrees (state : EngineState Memory) : Prop :=
  ∀ text tree, state.trees.get? text = some tree → Expression.parse text = .ok tree

/-- No evaluation runs out of time, and what the caches hold is right under the registries of the
engine. The results belong to texts and variables that were used. -/
structure Sound (registries : Registries Memory) (used : List (String × Dictionary String Value))
    (state : EngineState Memory) : Prop where
  inTime : registries.platform.LeavesTime state.configuration
  trees : ∀ text tree, state.trees.get? text = some tree → Expression.parse text = .ok tree
  results : ∀ key kept, state.results.get? key = some kept →
    ∃ text given tree, (text, given) ∈ used ∧ key = .ofVariables text given.entries ∧
      Expression.parse text = .ok tree ∧
      registries.Settles state.configuration state.context given tree kept.value

/-- A state that work on a text may lead to from another one: the caches, the host memory, the
journal and the number of evaluations begun may have changed. -/
def WorkedFrom (start state : EngineState Memory) : Prop :=
  state = { start with
    trees := state.trees, results := state.results, memory := state.memory,
    journal := state.journal, begun := state.begun }

/-- A state that differs from another one in the journal only. -/
def NotedFrom (start state : EngineState Memory) : Prop :=
  state = { start with journal := state.journal }

variable {registries : Registries Memory} {used : List (String × Dictionary String Value)}
  {start middle state state' : EngineState Memory}

theorem WorkedFrom.refl (state : EngineState Memory) : state.WorkedFrom state := rfl

theorem WorkedFrom.trans (first : start.WorkedFrom middle) (second : middle.WorkedFrom state) :
    start.WorkedFrom state := by
  unfold WorkedFrom at *
  rw [second, first]

theorem worked_begin (state : EngineState Memory) : state.WorkedFrom state.begin := rfl

theorem FollowsFrom.worked (follows : start.FollowsFrom state) : start.WorkedFrom state := by
  unfold FollowsFrom at follows
  unfold WorkedFrom
  rw [follows]

theorem NotedFrom.follows (noted : start.NotedFrom state) : start.FollowsFrom state := by
  unfold NotedFrom at noted
  unfold FollowsFrom
  rw [noted]

theorem NotedFrom.trans (first : start.NotedFrom middle) (second : middle.NotedFrom state) :
    start.NotedFrom state := by
  unfold NotedFrom at *
  rw [second, first]

theorem NotedFrom.memory (noted : start.NotedFrom state) : state.memory = start.memory := by
  rw [noted]

theorem WorkedFrom.configuration (worked : start.WorkedFrom state) :
    state.configuration = start.configuration := by
  rw [worked]

theorem WorkedFrom.context (worked : start.WorkedFrom state) : state.context = start.context := by
  rw [worked]

theorem WorkedFrom.defaults (worked : start.WorkedFrom state) :
    state.defaults = start.defaults := by
  rw [worked]

theorem WorkedFrom.generation (worked : start.WorkedFrom state) :
    state.generation = start.generation := by
  rw [worked]

theorem WorkedFrom.hasLogger (worked : start.WorkedFrom state) :
    state.hasLogger = start.hasLogger := by
  rw [worked]

theorem WorkedFrom.hasErrorHandler (worked : start.WorkedFrom state) :
    state.hasErrorHandler = start.hasErrorHandler := by
  rw [worked]

/-- Whether the caches are right depends on nothing but the caches, the settings and the
context. -/
theorem Sound.congr (sound : state.Sound registries used) (trees : state'.trees = state.trees)
    (results : state'.results = state.results)
    (configuration : state'.configuration = state.configuration)
    (context : state'.context = state.context) : state'.Sound registries used := by
  refine ⟨?_, ?_, ?_⟩
  · rw [configuration]
    exact sound.inTime
  · rw [trees]
    exact sound.trees
  · rw [results, configuration, context]
    exact sound.results

theorem Sound.followsFrom (sound : start.Sound registries used)
    (follows : start.FollowsFrom state) : state.Sound registries used := by
  refine sound.congr ?_ ?_ ?_ ?_ <;> rw [follows]

/-- Without results the caches are right under any settings that leave time, if the trees are. -/
theorem sound_of_noResults (inTime : registries.platform.LeavesTime state.configuration)
    (trees : ∀ text tree, state.trees.get? text = some tree → Expression.parse text = .ok tree)
    (results : state.results = .empty) : state.Sound registries used := by
  refine ⟨inTime, trees, fun key kept found => ?_⟩
  rw [results, Dictionary.get?_empty] at found
  cases found

theorem KeepsRightTrees.congr (right : state.KeepsRightTrees)
    (trees : state'.trees = state.trees) : state'.KeepsRightTrees := by
  unfold KeepsRightTrees
  rw [trees]
  exact right

theorem KeepsRightTrees.noted (right : start.KeepsRightTrees) (noted : start.NotedFrom state) :
    state.KeepsRightTrees :=
  right.congr (by rw [noted])

/-- A tree may be kept under the text it was read from. -/
theorem KeepsRightTrees.keep (right : state.KeepsRightTrees) {text : String} {tree : Expression}
    (parsed : Expression.parse text = .ok tree) :
    KeepsRightTrees { state with trees := state.trees.insert text tree } := by
  intro other otherTree found
  rw [Dictionary.get?_insert] at found
  by_cases same : other = text
  · rw [if_pos same] at found
    cases found
    rw [same]
    exact parsed
  · rw [if_neg same] at found
    exact right other otherTree found

/-- A result may be kept if it is settled what its text comes to. -/
theorem Sound.keepResult (sound : state.Sound registries used) {text : String}
    {given : Dictionary String Value} {tree : Expression} {value : Value}
    (member : (text, given) ∈ used) (parsed : Expression.parse text = .ok tree)
    (settles : registries.Settles state.configuration state.context given tree value)
    (generation : Nat) :
    (state.keepResult generation (.ofVariables text given.entries) value).Sound
      registries used := by
  unfold EngineState.keepResult
  split
  · refine ⟨sound.inTime, sound.trees, fun key kept found => ?_⟩
    dsimp only at found
    rw [Dictionary.get?_insert] at found
    by_cases same : key = .ofVariables text given.entries
    · rw [if_pos same] at found
      cases found
      exact ⟨text, given, tree, member, same, parsed, settles⟩
    · rw [if_neg same] at found
      exact sound.results key kept found
  · exact sound

/-! ### The look-ups -/

theorem notedFrom_log (state : EngineState Memory) (configuration : Configuration)
    (message : String) (arguments : List Value) :
    state.NotedFrom (state.log configuration message arguments) := by
  unfold EngineState.log
  split <;> rfl

theorem notedFrom_note_log (state : EngineState Memory) (event : Event)
    (configuration : Configuration) (message : String) (arguments : List Value) :
    state.NotedFrom ((state.note event).log configuration message arguments) := by
  unfold EngineState.log
  split <;> rfl

theorem notedFrom_report (state : EngineState Memory) (error : EngineError) :
    state.NotedFrom (state.report error) := by
  unfold EngineState.report
  dsimp only
  split <;> rfl

theorem worked_keepResult (state : EngineState Memory) (generation : Nat) (key : CacheKey)
    (value : Value) : state.WorkedFrom (state.keepResult generation key value) := by
  unfold EngineState.keepResult
  split <;> rfl

theorem memory_keepResult (state : EngineState Memory) (generation : Nat) (key : CacheKey)
    (value : Value) : (state.keepResult generation key value).memory = state.memory := by
  unfold EngineState.keepResult
  split <;> rfl

/-- The tree of a text is found if and only if the text is an expression, kept or not, and only
right trees are kept afterwards. -/
theorem KeepsRightTrees.treeOf (right : state.KeepsRightTrees) (configuration : Configuration)
    (text : String) :
    (state.treeOf configuration text).1 = (Expression.parse text).mapError .syntactic ∧
      (state.treeOf configuration text).2.KeepsRightTrees := by
  unfold EngineState.treeOf
  cases found : state.trees.get? text with
  | some tree =>
    have noted := notedFrom_note_log state (.treeLookup true text) configuration
      "Cache hit for parse: \x7b\x7d" [.text text]
    refine ⟨?_, right.noted noted⟩
    rw [right text tree found]
    rfl
  | none =>
    have noted := notedFrom_note_log state (.treeLookup false text) configuration
      "Cache miss for parse: \x7b\x7d" [.text text]
    have still := right.noted noted
    dsimp only
    cases parsed : Expression.parse text with
    | error cause => exact ⟨rfl, still⟩
    | ok tree => exact ⟨rfl, still.keep parsed⟩

/-- The search for a tree changes the kept trees and the journal only. -/
theorem notedFrom_treeOf (state : EngineState Memory) (configuration : Configuration)
    (text : String) :
    ∃ trees, ({ state with trees } : EngineState Memory).NotedFrom
      (state.treeOf configuration text).2 := by
  unfold EngineState.treeOf
  cases state.trees.get? text with
  | some tree => exact ⟨state.trees, notedFrom_note_log _ _ _ _ _⟩
  | none =>
    have missed := notedFrom_note_log state (.treeLookup false text) configuration
      "Cache miss for parse: \x7b\x7d" [.text text]
    dsimp only
    generalize EngineState.log _ configuration "Cache miss for parse: \x7b\x7d" [.text text] =
      after at missed ⊢
    cases Expression.parse text with
    | error cause => exact ⟨state.trees, missed⟩
    | ok tree =>
      refine ⟨after.trees.insert text tree, ?_⟩
      unfold NotedFrom at missed ⊢
      rw [missed]

/-- The search for a tree leaves what is kept right. -/
theorem treeOf_of_sound (sound : state.Sound registries used) (configuration : Configuration)
    (text : String) :
    (state.treeOf configuration text).1 = (Expression.parse text).mapError .syntactic ∧
      state.WorkedFrom (state.treeOf configuration text).2 ∧
      (state.treeOf configuration text).2.memory = state.memory ∧
      (state.treeOf configuration text).2.Sound registries used := by
  have trees : state.KeepsRightTrees := sound.trees
  obtain ⟨found, right⟩ := trees.treeOf configuration text
  obtain ⟨trees, searched⟩ := state.notedFrom_treeOf configuration text
  have inTime := sound.inTime
  have results := sound.results
  refine ⟨found, ?_, ?_, ?_, right, ?_⟩
  · rw [searched]
    rfl
  · rw [searched]
  · rw [searched]
    exact inTime
  · rw [searched]
    exact results

/-- The tree a state has for a text depends on nothing but the kept trees. -/
theorem treeOf_congr (trees : state.trees = state'.trees) (configuration : Configuration)
    (text : String) :
    (state.treeOf configuration text).1 = (state'.treeOf configuration text).1 := by
  unfold EngineState.treeOf
  rw [trees]
  cases state'.trees.get? text with
  | some tree => rfl
  | none => cases Expression.parse text <;> rfl

theorem keptResult_eq (state : EngineState Memory) (configuration : Configuration) (text : String)
    (key : CacheKey) :
    (state.keptResult configuration text key).1 =
        (state.results.get? key).map KeptResult.value ∧
      state.NotedFrom (state.keptResult configuration text key).2 := by
  unfold EngineState.keptResult
  cases state.results.get? key with
  | some kept => exact ⟨rfl, notedFrom_note_log _ _ _ _ _⟩
  | none => exact ⟨rfl, notedFrom_note_log _ _ _ _ _⟩

end EngineState

/-! ### Work on a task -/

namespace Registries

/-- What a task comes to where nothing is kept, and the host memory afterwards. -/
def outcome (registries : Registries Memory) (reenter : Reenter Memory) (task : Task)
    (state : EngineState Memory) : Except EngineError Value × Memory :=
  if trimmed task.source = "" then (.error .emptyExpression, state.memory)
  else
    match Expression.parse (trimmed task.source) with
    | .error cause => (.error (.syntactic cause), state.memory)
    | .ok tree =>
      let (result, machine) := registries.evaluation reenter state.configuration
        (task.mergedVariables state.defaults) (task.wrap tree) state
      (result.mapError .evaluation, machine.engine.memory)

variable {registries : Registries Memory} {reenter reenter' : Reenter Memory}
  {used : List (String × Dictionary String Value)} {state state' : EngineState Memory}

/-- Where no evaluation runs out of time, what a task comes to depends on settings, context, default
variables and host memory. -/
theorem outcome_congr (orderly : registries.IsOrderly)
    (inTime : registries.platform.LeavesTime state.configuration)
    (configuration : state.configuration = state'.configuration)
    (context : state.context = state'.context) (defaults : state.defaults = state'.defaults)
    (memory : state.memory = state'.memory) (task : Task) :
    registries.outcome reenter task state = registries.outcome reenter' task state' := by
  rw [configuration] at inTime
  unfold outcome
  rw [configuration, defaults, memory]
  split
  · rfl
  · cases Expression.parse (trimmed task.source) with
    | error cause => rfl
    | ok tree =>
      have clock := inTime.deadline_eq state.begun state'.begun
      obtain ⟨result, sameMemory⟩ := evaluation_congr reenter reenter' state'.configuration
        orderly clock context memory (task.mergedVariables state'.defaults) (task.wrap tree)
      dsimp only
      rw [result, sameMemory]

/-- The state after an evaluation that gave a result: the result is kept under the key, if there
is one and the evaluation ended with leave to keep it. -/
def afterResult (generation : Nat) (key : Option CacheKey) (result : Value)
    (machine : Machine Memory) : EngineState Memory :=
  match key with
  | some key =>
    if machine.cacheable then machine.engine.keepResult generation key result
    else machine.engine
  | none => machine.engine

theorem evaluateTree_eq (registries : Registries Memory) (reenter : Reenter Memory)
    (configuration : Configuration) (generation : Nat) (key : Option CacheKey)
    (merged : Dictionary String Value) (tree : Expression) (state : EngineState Memory) :
    registries.evaluateTree reenter configuration generation key merged tree state =
      match registries.evaluation reenter configuration merged tree state with
      | (.error cause, machine) => (.error (.evaluation cause), machine.engine)
      | (.ok result, machine) =>
        (.ok result,
          ((afterResult generation key result machine).note
            (.completed result machine.visits)).log configuration
              "Expression evaluation completed. Result: \x7b\x7d" [result]) := by
  unfold evaluateTree evaluation
  dsimp only
  rcases Evaluation.evaluate _ 0 tree (Machine.start (.ofVariables merged) state) with
    ⟨_ | result, machine⟩
  · rfl
  · cases key with
    | none => rfl
    | some key => rfl

theorem worked_afterResult (generation : Nat) (key : Option CacheKey) (result : Value)
    (machine : Machine Memory) :
    machine.engine.WorkedFrom (afterResult generation key result machine) ∧
      (afterResult generation key result machine).memory = machine.engine.memory := by
  unfold afterResult
  cases key with
  | none => exact ⟨rfl, rfl⟩
  | some key =>
    dsimp only
    split
    · exact ⟨EngineState.worked_keepResult _ _ _ _, EngineState.memory_keepResult _ _ _ _⟩
    · exact ⟨rfl, rfl⟩

theorem sound_afterResult {machine : Machine Memory}
    (sound : machine.engine.Sound registries used) {key : Option CacheKey} {text : String}
    {merged : Dictionary String Value} {tree : Expression} {result : Value}
    (fitting : ∀ kept, key = some kept → (text, merged) ∈ used ∧
      kept = .ofVariables text merged.entries ∧ Expression.parse text = .ok tree)
    (settled : machine.cacheable = true → registries.Settles machine.engine.configuration
      machine.engine.context merged tree result) (generation : Nat) :
    (afterResult generation key result machine).Sound registries used := by
  unfold afterResult
  cases key with
  | none => exact sound
  | some key =>
    obtain ⟨member, rfl, parsed⟩ := fitting key rfl
    dsimp only
    split
    next cacheable => exact sound.keepResult member parsed (settled cacheable) generation
    next => exact sound

/-- Work on a tree gives what its evaluation gives. If there is a key, the result may be kept
under it. -/
theorem evaluateTree_of_sound (reenter : Reenter Memory) (orderly : registries.IsOrderly)
    (sound : state.Sound registries used) {key : Option CacheKey} {text : String}
    {merged : Dictionary String Value} {tree : Expression} (generation : Nat)
    (fitting : ∀ kept, key = some kept → (text, merged) ∈ used ∧
      kept = .ofVariables text merged.entries ∧ Expression.parse text = .ok tree) :
    let work := registries.evaluateTree reenter state.configuration generation key merged tree state
    let evaluation := registries.evaluation reenter state.configuration merged tree state
    work.1 = evaluation.1.mapError .evaluation ∧
      work.2.memory = evaluation.2.engine.memory ∧
      state.WorkedFrom work.2 ∧ work.2.Sound registries used := by
  have follows := evaluation_followsFrom reenter state.configuration orderly state merged tree
  have settled := fun result : Value => @settles_of_cacheable _ _ reenter state.configuration
    orderly sound.inTime state merged tree result
  dsimp only
  rw [evaluateTree_eq]
  generalize registries.evaluation reenter state.configuration merged tree state = evaluation
    at follows settled ⊢
  have still : evaluation.2.engine.Sound registries used := sound.followsFrom follows
  rcases evaluation with ⟨error | result, machine⟩
  · exact ⟨rfl, rfl, follows.worked, still⟩
  · have worked := worked_afterResult generation key result machine
    have noted := EngineState.notedFrom_note_log (afterResult generation key result machine)
      (.completed result machine.visits) state.configuration
      "Expression evaluation completed. Result: \x7b\x7d" [result]
    have kept : (afterResult generation key result machine).Sound registries used := by
      refine sound_afterResult still fitting (fun cacheable => ?_) generation
      have settles := settled result rfl cacheable
      rwa [← follows.worked.configuration, ← follows.worked.context] at settles
    exact ⟨rfl, noted.memory.trans worked.2,
      follows.worked.trans (worked.1.trans noted.follows.worked), kept.followsFrom noted.follows⟩

/-- The key of a task fits its tree: there is no cast, and the variables are the merged ones. -/
theorem key?_eq_some {task : Task} {configuration : Configuration} {text : String}
    {merged : Dictionary String Value} {key : CacheKey}
    (found : task.key? configuration text merged = some key) :
    (∃ given, task.given = some given) ∧ (∀ tree, task.wrap tree = tree) ∧
      key = .ofVariables text merged.entries := by
  unfold Task.key? at found
  split at found
  next conditions =>
    simp only [Bool.and_eq_true, Option.isSome_iff_exists, Option.isNone_iff_eq_none]
      at conditions
    refine ⟨conditions.1.1, fun tree => ?_, (Option.some.inj found).symm⟩
    unfold Task.wrap
    rw [conditions.1.2]
  next => cases found

/-- Work on a text for which no result is kept. -/
def workAfresh (registries : Registries Memory) (reenter : Reenter Memory) (task : Task)
    (text : String) (configuration : Configuration) (generation : Nat) (key : Option CacheKey)
    (merged : Dictionary String Value) (state : EngineState Memory) :
    Except EngineError Value × EngineState Memory :=
  match state.treeOf configuration text with
  | (.error error, state) => (.error error, state)
  | (.ok tree, state) =>
    registries.evaluateTree reenter configuration generation key merged (task.wrap tree) state

theorem runText_eq (registries : Registries Memory) (reenter : Reenter Memory) (task : Task)
    (text : String) (state : EngineState Memory) :
    registries.runText reenter task text state =
      let logged :=
        state.begin.log state.configuration "Evaluating expression: \x7b\x7d" [.text text]
      let merged := task.mergedVariables logged.defaults
      let key := task.key? state.configuration text merged
      let afresh := registries.workAfresh reenter task text state.configuration state.generation
        key merged
      match key with
      | none => afresh logged
      | some key =>
        match logged.keptResult state.configuration text key with
        | (some result, state) => (.ok result, state)
        | (none, state) => afresh state := by
  unfold runText
  dsimp only
  cases task.key? state.configuration text _ with
  | none => rfl
  | some key =>
    dsimp only
    rcases EngineState.keptResult _ state.configuration text key with ⟨_ | result, state⟩
    · rfl
    · rfl

/-- What becomes of a task: its outcome, and a state in which what is kept is right again. -/
structure Accomplishes (registries : Registries Memory)
    (used : List (String × Dictionary String Value)) (state : EngineState Memory)
    (outcome : Except EngineError Value × Memory)
    (work : Except EngineError Value × EngineState Memory) : Prop where
  result : work.1 = outcome.1
  memory : work.2.memory = outcome.2
  worked : state.WorkedFrom work.2
  sound : work.2.Sound registries used

theorem workAfresh_of_sound (orderly : registries.IsOrderly)
    (sound : state.Sound registries used) (task : Task) (filled : trimmed task.source ≠ "")
    (generation : Nat) {key : Option CacheKey}
    (fitting : ∀ kept, key = some kept →
      (trimmed task.source, task.mergedVariables state.defaults) ∈ used ∧
      (∀ tree, task.wrap tree = tree) ∧
      kept = .ofVariables (trimmed task.source) (task.mergedVariables state.defaults).entries) :
    registries.Accomplishes used state (registries.outcome reenter' task state)
      (registries.workAfresh reenter task (trimmed task.source) state.configuration generation
        key (task.mergedVariables state.defaults) state) := by
  obtain ⟨found, worked, memory, still⟩ := EngineState.treeOf_of_sound sound state.configuration
    (trimmed task.source)
  unfold workAfresh outcome
  rw [if_neg filled]
  generalize state.treeOf state.configuration (trimmed task.source) = search
    at found worked memory still
  cases parsed : Expression.parse (trimmed task.source) with
  | error cause =>
    rw [parsed] at found
    rcases search with ⟨error | tree, after⟩
    · cases found
      exact ⟨rfl, memory, worked, still⟩
    · cases found
  | ok tree =>
    rw [parsed] at found
    rcases search with ⟨error | tree', after⟩
    · cases found
    · cases found
      have wrapped : ∀ kept, key = some kept →
          Expression.parse (trimmed task.source) = .ok (task.wrap tree) := by
        intro kept is
        rw [(fitting kept is).2.1, parsed]
      have work := evaluateTree_of_sound reenter orderly still generation fun kept is =>
        ⟨(fitting kept is).1, (fitting kept is).2.2, wrapped kept is⟩
      have clock := sound.inTime.deadline_eq after.begun state.begun
      obtain ⟨result, sameMemory⟩ := evaluation_congr reenter reenter' state.configuration
        orderly clock worked.context memory (task.mergedVariables state.defaults) (task.wrap tree)
      rw [show after.configuration = state.configuration from worked.configuration] at work
      obtain ⟨workResult, workMemory, workWorked, workSound⟩ := work
      dsimp only
      exact ⟨by rw [workResult, result], by rw [workMemory, sameMemory],
        worked.trans workWorked, workSound⟩

/-- A result that is kept is the outcome of the task. -/
theorem outcome_of_kept (sound : state.Sound registries used) (apart : KeysTellApart used)
    {task : Task} (filled : trimmed task.source ≠ "")
    (member : (trimmed task.source, task.mergedVariables state.defaults) ∈ used)
    (bare : ∀ tree, task.wrap tree = tree) {kept : KeptResult}
    (found : state.results.get? (.ofVariables (trimmed task.source)
      (task.mergedVariables state.defaults).entries) = some kept) :
    registries.outcome reenter task state = (.ok kept.value, state.memory) := by
  obtain ⟨text, given, tree, member', sameKey, parsed, settles⟩ := sound.results _ _ found
  obtain rfl : trimmed task.source = text := congrArg CacheKey.expression sameKey
  have same := apart _ _ _ member' member sameKey.symm
  obtain ⟨result, memory⟩ := settles reenter state _ rfl same
  unfold outcome
  rw [if_neg filled, parsed]
  dsimp only
  rw [bare, result, memory]
  rfl

theorem outcome_worked (orderly : registries.IsOrderly)
    (inTime : registries.platform.LeavesTime state.configuration) (worked : state.WorkedFrom state')
    (memory : state'.memory = state.memory) (task : Task) :
    registries.outcome reenter task state' = registries.outcome reenter task state :=
  (outcome_congr orderly inTime worked.configuration.symm worked.context.symm
    worked.defaults.symm memory.symm task).symm

theorem Accomplishes.after {outcome : Except EngineError Value × Memory}
    {work : Except EngineError Value × EngineState Memory}
    (accomplishes : registries.Accomplishes used state' outcome work)
    (worked : state.WorkedFrom state') : registries.Accomplishes used state outcome work :=
  { accomplishes with worked := worked.trans accomplishes.worked }

/-- Work on a task gives its outcome, and leaves what is kept right. -/
theorem runText_of_sound (orderly : registries.IsOrderly) (sound : state.Sound registries used)
    (apart : KeysTellApart used) (task : Task) (filled : trimmed task.source ≠ "")
    (uses : ∀ given, task.given = some given →
      (trimmed task.source, state.defaults.merge given) ∈ used) :
    registries.Accomplishes used state (registries.outcome reenter' task state)
      (registries.runText reenter task (trimmed task.source) state) := by
  rw [runText_eq]
  dsimp only
  have logged := EngineState.notedFrom_log state.begin state.configuration
    "Evaluating expression: \x7b\x7d" [.text (trimmed task.source)]
  generalize state.begin.log state.configuration "Evaluating expression: \x7b\x7d"
    [.text (trimmed task.source)] = begun at logged ⊢
  have worked := state.worked_begin.trans logged.follows.worked
  have begins : state.begin.Sound registries used := sound.congr rfl rfl rfl rfl
  have still := begins.followsFrom logged.follows
  rw [← outcome_worked orderly sound.inTime worked logged.memory task, ← worked.configuration]
  refine Accomplishes.after ?_ worked
  cases key : task.key? begun.configuration (trimmed task.source)
      (task.mergedVariables begun.defaults) with
  | none => exact workAfresh_of_sound orderly still task filled _ fun _ is => by cases is
  | some key' =>
    obtain ⟨⟨given, is⟩, bare, rfl⟩ := key?_eq_some key
    dsimp only
    have member : (trimmed task.source, task.mergedVariables begun.defaults) ∈ used := by
      unfold Task.mergedVariables
      rw [is, worked.defaults]
      exact uses given is
    obtain ⟨asked, noted⟩ := EngineState.keptResult_eq begun begun.configuration
      (trimmed task.source)
      (.ofVariables (trimmed task.source) (task.mergedVariables begun.defaults).entries)
    generalize begun.keptResult begun.configuration (trimmed task.source)
      (.ofVariables (trimmed task.source) (task.mergedVariables begun.defaults).entries) = lookup
      at asked noted ⊢
    have stillAfter := still.followsFrom noted.follows
    rcases lookup with ⟨_ | result, after⟩
    · dsimp only at noted stillAfter ⊢
      have searched := noted.follows.worked
      rw [← outcome_worked orderly still.inTime searched noted.memory task,
        ← searched.configuration]
      refine Accomplishes.after ?_ searched
      rw [← searched.defaults] at member ⊢
      refine workAfresh_of_sound orderly stillAfter task filled _ fun kept same => ?_
      exact ⟨member, bare, (Option.some.inj same).symm⟩
    · obtain ⟨kept, found, rfl⟩ := Option.map_eq_some_iff.1 asked.symm
      rw [outcome_of_kept still apart filled member bare found]
      exact ⟨rfl, noted.memory, noted.follows.worked, stillAfter⟩

/-- A task whose text is not blank is carried out with some way back into the engine for the host
functions. -/
theorem run_eq (registries : Registries Memory) (task : Task) (state : EngineState Memory) :
    ∃ reenter, registries.run task state =
      if trimmed task.source = "" then (.error .emptyExpression, state)
      else registries.runText reenter task (trimmed task.source) state := by
  unfold run runWithin
  exact ⟨_, rfl⟩

/-- Whatever an engine keeps, a task comes to its outcome. -/
theorem run_of_sound (reenter : Reenter Memory) (orderly : registries.IsOrderly)
    (sound : state.Sound registries used)
    (apart : KeysTellApart used) (task : Task)
    (uses : ∀ given, task.given = some given →
      (trimmed task.source, state.defaults.merge given) ∈ used) :
    registries.Accomplishes used state (registries.outcome reenter task state)
      (registries.run task state) := by
  obtain ⟨reenter', same⟩ := registries.run_eq task state
  rw [same]
  by_cases blank : trimmed task.source = ""
  · rw [if_pos blank]
    unfold outcome
    rw [if_pos blank]
    exact ⟨rfl, rfl, .refl state, sound⟩
  · rw [if_neg blank]
    exact runText_of_sound orderly sound apart task blank uses

end Registries

end Reckon
