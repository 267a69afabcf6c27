/-
This file compares the two ways to have an engine cast all of a text to the type
of a name: to name the type in the call, or to write a cast around the text. In
the first the tree of the text becomes the inside of a cast, in the second the
text does, and the trees are the same.

The two differ where the text is no expression. Parentheses of the cast may
close what the text left open; a call that names the type is not taken in by
that, since it reads the text alone.
-/

import Reckon.Proofs.Engine.KeptTrees
import Reckon.Proofs.Grammar.CastText

namespace Reckon

variable {Memory : Type}

/-! ### Pure functions -/

/-- A host function that neither calls back into the engine nor uses the host memory. -/
def HostFunction.IsPure (host : HostFunction Memory) : Prop :=
  ∀ arguments hint,
    (host arguments hint).AsksOnly fun request => ¬ request.CallsBack ∧ ¬ request.UsesMemory

namespace Registries

open Evaluation EngineState

/-- Every host function is pure. -/
def IsPure (registries : Registries Memory) : Prop :=
  ∀ name function host, registries.functions.get? name = some function →
    function.callable = .host host → HostFunction.IsPure host

variable {registries : Registries Memory} {state : EngineState Memory} {tree : Expression}

theorem isPure_builtIn (platform : Platform) :
    (⟨.builtIn, .empty, .empty, platform⟩ : Registries Memory).IsPure := by
  intro name function host found
  cases found

theorem IsPure.register (pure : registries.IsPure) (name : String) (signature : Signature)
    {host : HostFunction Memory} (isPure : HostFunction.IsPure host) :
    IsPure { registries with
      functions := registries.functions.register ⟨name, signature, .host host⟩ } :=
  fun other function otherHost known =>
    FunctionRegistry.forall_register (fun name function known host => pure name function host known)
      (fun _ is => by cases is; exact isPure) other function known otherHost

theorem IsPure.isOrderly (pure : registries.IsPure) : registries.IsOrderly :=
  fun name function host found callable arguments hint =>
    (pure name function host found callable arguments hint).mono
      fun _ allowed => ⟨allowed.1, fun _ => allowed.2⟩

/-- An evaluation that calls pure functions only leaves the host memory alone. -/
theorem IsPure.memory_evaluation (pure : registries.IsPure) (reenter : Reenter Memory)
    (configuration : Configuration) (given : Dictionary String Value) (tree : Expression)
    (state : EngineState Memory) :
    (registries.evaluation reenter configuration given tree state).2.engine.memory =
      state.memory := by
  refine maintains_evaluate (registries.setting state.begun reenter configuration)
    (fun engine => engine.memory = state.memory) (fun _ _ _ same => same) ?_ 0 tree
    (.start (.ofVariables given) state) rfl
  intro interpret interprets name function host found callable arguments hint
  have asks := pure name function host found callable arguments hint
  generalize host arguments hint = program at asks ⊢
  induction program with
  | done result => exact fun _ same => same
  | ask request next inductionHypothesis =>
    refine Maintains.bind (fun machine same => ?_)
      fun answer => inductionHypothesis answer (asks.2 answer)
    cases request with
    | store memory => exact absurd trivial asks.1.2
    | putContext name value => exact absurd trivial asks.1.1
    | setStrictMode on => exact absurd trivial asks.1.1
    | evaluate source given => exact absurd trivial asks.1.1
    | interpret inner environment depth =>
      exact maintains_interpret (fun engine => engine.memory = state.memory) interprets inner
        environment depth machine same
    | _ => exact same

/-! ### Texts without variables of their own -/

/-- Work on a text for which nothing is kept: the text is no expression, or its tree is
evaluated. -/
theorem workAfresh_of_rightTrees (right : state.KeepsRightTrees) (reenter : Reenter Memory)
    (task : Task) (text : String) (configuration : Configuration) (generation : Nat)
    (key : Option CacheKey) (merged : Dictionary String Value) :
    (∀ cause, Expression.parse text = .error cause →
      (registries.workAfresh reenter task text configuration generation key merged state).1 =
        .error (.syntactic cause)) ∧
    ∀ tree, Expression.parse text = .ok tree → ∃ searched,
      state.WorkedFrom searched ∧ searched.memory = state.memory ∧
        registries.workAfresh reenter task text configuration generation key merged state =
          registries.evaluateTree reenter configuration generation key merged (task.wrap tree)
            searched := by
  obtain ⟨found, -⟩ := right.treeOf configuration text
  obtain ⟨trees, noted⟩ := state.notedFrom_treeOf configuration text
  unfold workAfresh
  generalize state.treeOf configuration text = search at found noted ⊢
  rcases search with ⟨result, searched⟩
  obtain rfl : result = (Expression.parse text).mapError .syntactic := found
  dsimp only at noted
  constructor
  · intro cause parsed
    rw [parsed]
    rfl
  · intro tree parsed
    rw [parsed]
    refine ⟨searched, ?_, noted.memory, rfl⟩
    rw [noted]
    rfl

/-- A text without variables of its own is always worked on afresh. -/
theorem run_withoutVariables (registries : Registries Memory) {source : String}
    (filled : trimmed source ≠ "") (castType : Option String) (state : EngineState Memory) :
    ∃ reenter begun, state.begin.NotedFrom begun ∧
      registries.run ⟨source, none, castType⟩ state =
        registries.workAfresh reenter ⟨source, none, castType⟩ (trimmed source)
          state.configuration state.generation none state.defaults begun := by
  obtain ⟨reenter, same⟩ := registries.run_eq ⟨source, none, castType⟩ state
  have logged := notedFrom_log state.begin state.configuration "Evaluating expression: \x7b\x7d"
    [.text (trimmed source)]
  have worked := state.worked_begin.trans logged.follows.worked
  refine ⟨reenter, _, logged, ?_⟩
  rw [same, if_neg filled, runText_eq, ← worked.defaults]
  rfl

theorem run_of_blank (registries : Registries Memory) (task : Task)
    (blank : trimmed task.source = "") (state : EngineState Memory) :
    registries.run task state = (.error .emptyExpression, state) := by
  obtain ⟨reenter, same⟩ := registries.run_eq task state
  rw [same, if_pos blank]

/-- A text that is no expression gives the same error in every state that keeps right trees. -/
theorem run_of_unparsable (right : state.KeepsRightTrees) {source : String} {cause : SyntaxError}
    (filled : trimmed source ≠ "") (parsed : Expression.parse (trimmed source) = .error cause)
    (castType : Option String) :
    (registries.run ⟨source, none, castType⟩ state).1 = .error (.syntactic cause) := by
  obtain ⟨reenter, begun, noted, worked⟩ :=
    registries.run_withoutVariables filled castType state
  have begins : state.begin.KeepsRightTrees := right
  rw [worked]
  exact (workAfresh_of_rightTrees (begins.noted noted) reenter _ _ _ _ _ _).1 cause parsed

/-- Where no result is to be kept, work on a tree is its evaluation. -/
theorem evaluateTree_keyless (registries : Registries Memory) (reenter : Reenter Memory)
    (configuration : Configuration) (generation : Nat) (merged : Dictionary String Value)
    (tree : Expression) (state : EngineState Memory) :
    let work := registries.evaluateTree reenter configuration generation none merged tree state
    let evaluation := registries.evaluation reenter configuration merged tree state
    work.1 = evaluation.1.mapError .evaluation ∧ evaluation.2.engine.NotedFrom work.2 := by
  dsimp only
  rw [evaluateTree_eq]
  rcases registries.evaluation reenter configuration merged tree state with
    ⟨error | result, machine⟩
  · exact ⟨rfl, rfl⟩
  · exact ⟨rfl, notedFrom_note_log _ _ _ _ _⟩

/-- In time, a text that is an expression gives what its tree does, and pure functions leave
everything but caches and journal as it was. -/
theorem run_of_parsed (pure : registries.IsPure)
    (inTime : registries.platform.LeavesTime state.configuration) (right : state.KeepsRightTrees)
    {source : String} (filled : trimmed source ≠ "")
    (parsed : Expression.parse (trimmed source) = .ok tree) (castType : Option String)
    (reenter : Reenter Memory) :
    (registries.run ⟨source, none, castType⟩ state).1 =
        (registries.evaluation reenter state.configuration state.defaults
          (Task.wrap ⟨source, none, castType⟩ tree) state).1.mapError .evaluation ∧
      state.WorkedFrom (registries.run ⟨source, none, castType⟩ state).2 ∧
      (registries.run ⟨source, none, castType⟩ state).2.memory = state.memory := by
  obtain ⟨back, begun, noted, afresh⟩ := registries.run_withoutVariables filled castType state
  have begins : state.begin.KeepsRightTrees := right
  obtain ⟨searched, searchedFrom, memory, evaluated⟩ :=
    (workAfresh_of_rightTrees (begins.noted noted) back ⟨source, none, castType⟩ (trimmed source)
      state.configuration state.generation none state.defaults).2 tree parsed
  obtain ⟨result, left⟩ := evaluateTree_keyless registries back state.configuration
    state.generation state.defaults (Task.wrap ⟨source, none, castType⟩ tree) searched
  have worked := (state.worked_begin.trans noted.follows.worked).trans searchedFrom
  have sameMemory : searched.memory = state.memory := memory.trans noted.memory
  have same := evaluation_congr back reenter state.configuration pure.isOrderly
    (inTime.deadline_eq searched.begun state.begun) worked.context sameMemory state.defaults
    (Task.wrap ⟨source, none, castType⟩ tree)
  have follows := evaluation_followsFrom back state.configuration pure.isOrderly searched
    state.defaults (Task.wrap ⟨source, none, castType⟩ tree)
  rw [afresh, evaluated]
  refine ⟨by rw [result, same.1], worked.trans (follows.worked.trans left.follows.worked), ?_⟩
  rw [left.memory, pure.memory_evaluation, sameMemory]

end Registries

/-! ### Where an engine stands -/

namespace Standing

/-- A state that stands at a point, with empty caches and an empty journal. -/
def state (standing : Standing Memory) : EngineState Memory :=
  { EngineState.initial standing.configuration standing.memory with
    context := standing.context, defaults := standing.defaults }

/-- What a tree comes to where an engine stands, if no function calls back into the engine. -/
def outcome (standing : Standing Memory) (tree : Expression) : Except EngineError Value :=
  (standing.registries.evaluation (fun _ _ state => (.error .emptyExpression, state))
    standing.configuration standing.defaults tree standing.state).1.mapError .evaluation

end Standing

namespace Engine

variable {engine : Engine Memory} {standing : Standing Memory} {source : String}
  {tree : Expression}

/-- An engine stands at a point and keeps right trees only. -/
structure RestsAt (standing : Standing Memory) (engine : Engine Memory) : Prop where
  standing : engine.standing = standing
  trees : engine.state.KeepsRightTrees

theorem filled_of_parsed (parsed : Expression.parse (trimmed source) = .ok tree) :
    trimmed source ≠ "" := by
  intro blank
  rw [blank] at parsed
  cases (rfl : Expression.parse "" = .error ⟨.expressionExpected, 0⟩).symm.trans parsed

/-- With pure functions and in time, the answer to a text without variables of its own depends on
where the engine stands, and leaves it there. -/
theorem RestsAt.reporting_run (rests : engine.RestsAt standing) (pure : standing.registries.IsPure)
    (inTime : standing.registries.platform.LeavesTime standing.configuration)
    (parsed : Expression.parse (trimmed source) = .ok tree) (castType : Option String) :
    let answer := engine.reporting (engine.registries.run ⟨source, none, castType⟩ engine.state)
    answer.1 = standing.outcome (Task.wrap ⟨source, none, castType⟩ tree) ∧
      answer.2.RestsAt standing := by
  obtain ⟨rfl, right⟩ := rests
  let noWayBack : Registries.Reenter Memory := fun _ _ state => (.error .emptyExpression, state)
  have pure : engine.registries.IsPure := pure
  have inTime : engine.registries.platform.LeavesTime engine.state.configuration := inTime
  obtain ⟨result, worked, memory⟩ :=
    Registries.run_of_parsed pure inTime right (filled_of_parsed parsed) parsed castType noWayBack
  have context : engine.state.context = engine.standing.state.context := rfl
  have sameMemory : engine.state.memory = engine.standing.state.memory := rfl
  have clock := inTime.deadline_eq engine.state.begun engine.standing.state.begun
  obtain ⟨same, -⟩ := Registries.evaluation_congr noWayBack noWayBack engine.state.configuration
    pure.isOrderly clock context sameMemory engine.state.defaults
    (Task.wrap ⟨source, none, castType⟩ tree)
  have trees := engine.registries.run_rightTrees ⟨source, none, castType⟩ right
  refine ⟨?_, ?_, trees.noted (notedFrom_reporting engine _)⟩
  · rw [fst_reporting, result, same]
    rfl
  · rw [standing_reporting, standing_of_worked worked, memory]
    rfl

theorem RestsAt.evaluateNamed (rests : engine.RestsAt standing)
    (pure : standing.registries.IsPure)
    (inTime : standing.registries.platform.LeavesTime standing.configuration)
    (parsed : Expression.parse (trimmed source) = .ok tree) (typeName : String) :
    (engine.evaluateNamed source typeName).1 = standing.outcome (.cast typeName tree) ∧
      (engine.evaluateNamed source typeName).2.RestsAt standing :=
  rests.reporting_run pure inTime parsed (some typeName)

theorem RestsAt.evaluateAs (rests : engine.RestsAt standing) (pure : standing.registries.IsPure)
    (inTime : standing.registries.platform.LeavesTime standing.configuration)
    (parsed : Expression.parse (trimmed source) = .ok tree) :
    (engine.evaluateAs Value source).1 = standing.outcome tree ∧
      (engine.evaluateAs Value source).2.RestsAt standing := by
  have asRun : engine.evaluateAs Value source =
      engine.reporting (engine.registries.run ⟨source, none, none⟩ engine.state) := by
    unfold Engine.evaluateAs
    rw [extracted_eq]
    rcases engine.registries.run ⟨source, none, none⟩ engine.state with ⟨error | value, state⟩
    · rfl
    · rfl
  rw [asRun]
  exact rests.reporting_run pure inTime parsed none

/-! ### Both ways to cast a text -/

/-- An engine that is to cast all of a text does what the text of the cast around it says. After
any calls, a text that is blank or no expression is an error of its own, whatever a cast around it
would make of it. The text of the cast around an expression is read as the cast of the same tree,
as long as its parts do not become nested too deeply; and then, if the host functions are pure and
no evaluation runs out of time, both calls answer alike, from the same engine and one after the
other. -/
theorem evaluateNamed_castText (platform : Platform) (configuration : Configuration)
    (memory : Memory) (calls : List (Call Memory)) (source : String) {typeName : String}
    (isName : IsName typeName) :
    let engine := ((Engine.new platform configuration memory).answerAll id calls).2
    let text := Grammar.castText typeName source
    (trimmed source = "" → (engine.evaluateNamed source typeName).1 = .error .emptyExpression) ∧
      (∀ cause, trimmed source ≠ "" → Expression.parse (trimmed source) = .error cause →
        (engine.evaluateNamed source typeName).1 = .error (.syntactic cause)) ∧
      ∀ tree, Expression.parse (trimmed source) = .ok tree →
        (∀ position, Expression.parse text ≠ .error ⟨.nestedTooDeeply, position⟩) →
          Expression.parse text = .ok (.cast typeName tree) ∧
            (engine.registries.IsPure →
              engine.registries.platform.LeavesTime engine.configuration →
              (engine.evaluateNamed source typeName).1 = (engine.evaluateAs Value text).1 ∧
                ((engine.evaluateNamed source typeName).2.evaluateAs Value text).1 =
                  (engine.evaluateNamed source typeName).1 ∧
                ((engine.evaluateAs Value text).2.evaluateNamed source typeName).1 =
                  (engine.evaluateAs Value text).1) := by
  intro engine text
  have right : engine.state.KeepsRightTrees :=
    rightTrees_of_calls platform configuration memory calls
  clear_value engine
  refine ⟨fun blank => ?_, fun cause filled parsed => ?_, fun tree parsed within => ?_⟩
  · unfold Engine.evaluateNamed
    rw [fst_reporting, engine.registries.run_of_blank ⟨source, none, some typeName⟩ blank]
  · unfold Engine.evaluateNamed
    rw [fst_reporting]
    exact Registries.run_of_unparsable right filled parsed (some typeName)
  · have parsedText : Expression.parse text = .ok (.cast typeName tree) :=
      (Grammar.parse_castText isName parsed).resolve_right fun ⟨position, tooDeep⟩ =>
        within position tooDeep
    refine ⟨parsedText, fun pure inTime => ?_⟩
    have trimmedText : Expression.parse (trimmed text) = .ok (.cast typeName tree) := by
      rw [show trimmed text = text from Grammar.trimmed_castText typeName source]
      exact parsedText
    have rests : engine.RestsAt engine.standing := ⟨rfl, right⟩
    obtain ⟨named, afterNamed⟩ := rests.evaluateNamed pure inTime parsed typeName
    obtain ⟨textual, afterTextual⟩ := rests.evaluateAs pure inTime trimmedText
    exact ⟨named.trans textual.symm,
      (afterNamed.evaluateAs pure inTime trimmedText).1.trans named.symm,
      (afterTextual.evaluateNamed pure inTime parsed typeName).1.trans textual.symm⟩

/-- Calls that add a pure function, which gives its first argument, and set a variable. -/
def firstKnown : List (Call Unit) :=
  [.registerFunction "first" ⟨none, .any, none, true⟩ fun arguments _ =>
      .give (arguments.headD .null),
    .setVariable "x" (.integer 2)]

theorem isPure_firstKnown (platform : Platform) :
    ((Engine.new platform {} ()).answerAll id firstKnown).2.registries.IsPure :=
  (Registries.isPure_builtIn platform).register "first" ⟨none, .any, none, true⟩ fun _ _ => trivial

/-- The value of `first(x) + 1` as text comes out both ways. The text `1) + (2` is no expression,
though the parentheses of a cast would make one of it. -/
theorem evaluateNamed_castText_first :
    let platform : Platform := ⟨fun _ _ => .reached, 0⟩
    let engine := ((Engine.new platform {} ()).answerAll id firstKnown).2
    let source := " first(x) + 1 "
    let text := Grammar.castText "string" source
    let tree : Expression :=
      .binary .add (.call "first" none [.variable "x"]) (.integer 1)
    IsName "string" ∧ engine.registries.IsPure ∧
      engine.registries.platform.LeavesTime engine.configuration ∧
      Expression.parse (trimmed source) = .ok tree ∧
      Expression.parse text = .ok (.cast "string" tree) ∧
      (engine.evaluateNamed source "string").1.toOption = some (.text "3") ∧
      (engine.evaluateNamed source "string").1 = (engine.evaluateAs Value text).1 ∧
      ((engine.evaluateNamed source "string").2.evaluateAs Value text).1 =
        (engine.evaluateNamed source "string").1 ∧
      ((engine.evaluateAs Value text).2.evaluateNamed source "string").1 =
        (engine.evaluateAs Value text).1 ∧
      (engine.evaluateNamed " " "string").1 = .error .emptyExpression ∧
      (engine.evaluateNamed "1) + (2" "string").1 =
        .error (.syntactic ⟨.tokenAfterEnd ")", 1⟩) ∧
      Expression.parse (Grammar.castText "string" "1) + (2") =
        .ok (.binary .add (.cast "string" (.integer 1)) (.grouping (.integer 2))) := by
  intro platform engine source text tree
  have isName : IsName "string" :=
    ⟨'s', "tring".toList, rfl, ⟨by decide, by decide, by decide, by decide, rfl⟩, rfl⟩
  have pure := isPure_firstKnown platform
  have inTime : engine.registries.platform.LeavesTime engine.configuration :=
    Platform.leavesTime_of_untimed rfl
  have parsed : Expression.parse (trimmed " first(x) + 1 ") =
      .ok (.binary .add (.call "first" none [.variable "x"]) (.integer 1)) := rfl
  have whole : Expression.parse (Grammar.castText "string" " first(x) + 1 ") =
      .ok (.cast "string" (.binary .add (.call "first" none [.variable "x"]) (.integer 1))) := rfl
  have agree := (evaluateNamed_castText platform {} () firstKnown " first(x) + 1 " isName).2.2 _
    parsed fun position tooDeep => by cases whole.symm.trans tooDeep
  have empty := (evaluateNamed_castText platform {} () firstKnown " " isName).1 (by decide)
  have broken : Expression.parse (trimmed "1) + (2") = .error ⟨.tokenAfterEnd ")", 1⟩ := rfl
  have refused := (evaluateNamed_castText platform {} () firstKnown "1) + (2" isName).2.1 _
    (by decide) broken
  obtain ⟨same, before, after⟩ := agree.2 pure inTime
  exact ⟨isName, pure, inTime, parsed, agree.1, by decide +kernel, same, before, after, empty,
    refused, rfl⟩

end Engine

end Reckon
