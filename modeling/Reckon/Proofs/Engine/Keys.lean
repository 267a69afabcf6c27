/-
This file says what it means that two evaluations share a key. A key tells
names apart, and all values but three sorts: an integer and a binary number
that denote the same, the two zeros, and integers that are rounded to the same
binary number. Apart from these, evaluations with equal keys come to the same,
and a result that is kept for one of them is right for the other. The variables
that the text does not mention make no difference at all.

Where a variable that is mentioned differs in one of the three ways, the
results may differ.
-/

import Reckon.Engine
import Reckon.Proofs.Binary64.Integers
import Reckon.Proofs.Engine.Kept
import Reckon.Proofs.Evaluation.Mentions

namespace Reckon

/-! ### Values that a key tells apart -/

namespace Value

/-- Whether two values that have the same part in a key are sure to be the same: a number of one
kind is not held against one of the other, zeros have the same sign, and integers are the same or
are not rounded. -/
def RepresentedAlike : Value → Value → Prop
  | .integer number, .integer number' =>
    number = number' ∨ (Binary64.Holds number ∧ Binary64.Holds number')
  | .float number, .float number' =>
    number.isZero = true → number'.isZero = true → number.isNegative = number'.isNegative
  | .integer _, .float _ => False
  | .float _, .integer _ => False
  | _, _ => True

end Value

/-- Values that are represented alike are told apart by what of them enters a key. -/
theorem Fingerprint.eq_of_ofValue {value value' : Value} (same : ofValue value = ofValue value')
    (alike : value.RepresentedAlike value') : value = value' := by
  cases value with
  | integer number =>
    cases value' with
    | integer number' =>
      rcases alike with rfl | ⟨holds, holds'⟩
      · rfl
      · rw [holds.injective holds' (Fingerprint.number.inj same)]
    | float number' => exact alike.elim
    | _ => cases same
  | float number =>
    cases value' with
    | integer number' => exact alike.elim
    | float number' =>
      rw [Binary64.eq_of_withoutZeroSign (Fingerprint.number.inj same) alike]
    | _ => cases same
  | null => cases value' <;> cases same; rfl
  | boolean truth => cases value' <;> cases same; rfl
  | text content => cases value' <;> cases same; rfl
  | domain member => cases value' <;> cases same; rfl

namespace CacheKey

/-- What a key holds under a name is what of the variable's value enters a key. -/
theorem mem_fingerprints_iff (expression : String) (given : Dictionary String Value)
    (name : String) (fingerprint : Fingerprint) :
    (name, fingerprint) ∈ (ofVariables expression given.entries).fingerprints ↔
      (given.get? name).map Fingerprint.ofValue = some fingerprint := by
  unfold ofVariables
  rw [List.mem_map, Option.map_eq_some_iff]
  constructor
  · rintro ⟨⟨bound, value⟩, member, same⟩
    obtain ⟨rfl, rfl⟩ := Prod.mk.inj same
    exact ⟨value, (given.mem_entries_iff bound value).1 (List.mem_mergeSort.1 member), rfl⟩
  · rintro ⟨value, found, rfl⟩
    exact ⟨(name, value), List.mem_mergeSort.2 ((given.mem_entries_iff name value).2 found), rfl⟩

/-- Equal keys come from maps that bind the same names, to values that have the same part in a
key. -/
theorem fingerprint_eq_of_eq {expression : String} {given given' : Dictionary String Value}
    (same : ofVariables expression given.entries = ofVariables expression given'.entries)
    (name : String) :
    (given.get? name).map Fingerprint.ofValue = (given'.get? name).map Fingerprint.ofValue := by
  refine Option.ext fun fingerprint => ?_
  rw [← mem_fingerprints_iff expression, ← mem_fingerprints_iff expression, same]

/-- Under equal keys a variable has the same value, if its values are represented alike. -/
theorem get?_eq_of_eq {expression : String} {given given' : Dictionary String Value}
    (same : ofVariables expression given.entries = ofVariables expression given'.entries)
    {name : String}
    (alike : ∀ value value', given.get? name = some value → given'.get? name = some value' →
      value.RepresentedAlike value') : given.get? name = given'.get? name := by
  have fingerprints := fingerprint_eq_of_eq same name
  cases found : given.get? name with
  | none =>
    rw [found] at fingerprints
    exact (Option.map_eq_none_iff.1 fingerprints.symm).symm
  | some value =>
    rw [found] at fingerprints
    obtain ⟨value', found', same'⟩ := Option.map_eq_some_iff.1 fingerprints.symm
    rw [found', Fingerprint.eq_of_ofValue same'.symm (alike value value' found found')]

end CacheKey

/-! ### Evaluations against maps with equal keys -/

variable {Memory : Type}

namespace Registries

variable {registries : Registries Memory} {reenter : Reenter Memory}
  {given given' : Dictionary String Value}

/-- Against variables that agree where the tree mentions them an evaluation comes to the same. -/
theorem evaluation_of_mentioned (configuration : Configuration) {tree : Expression}
    (same : ∀ name, tree.Mentions name → given.get? name = given'.get? name)
    (state : EngineState Memory) :
    ∃ environment, registries.evaluation reenter configuration given' tree state =
      ((registries.evaluation reenter configuration given tree state).1,
        { (registries.evaluation reenter configuration given tree state).2 with environment }) := by
  obtain ⟨answer, machine, -⟩ := Evaluation.evaluate_congr
    (registries.setting state.begun reenter configuration) 0 tree
    (.start (.ofVariables given) state)
    (Environment.agreeOn_ofVariables same)
  exact ⟨(registries.evaluation reenter configuration given' tree state).2.environment,
    Prod.ext answer machine⟩

theorem evaluateTree_of_mentioned (configuration : Configuration) (generation : Nat)
    (key : Option CacheKey) {tree : Expression}
    (same : ∀ name, tree.Mentions name → given.get? name = given'.get? name)
    (state : EngineState Memory) :
    registries.evaluateTree reenter configuration generation key given' tree state =
      registries.evaluateTree reenter configuration generation key given tree state := by
  obtain ⟨environment, evaluation⟩ := evaluation_of_mentioned configuration same state
  rw [evaluateTree_eq, evaluateTree_eq, evaluation]
  rcases registries.evaluation reenter configuration given tree state with
    ⟨error | result, machine⟩
  · rfl
  · rfl

/-- Two texts with variables that have one key and agree where the tree of the text mentions them
are one and the same task. -/
theorem runText_of_key {source text : String} {state : EngineState Memory}
    (sameKey : CacheKey.ofVariables text (state.defaults.merge given).entries =
      CacheKey.ofVariables text (state.defaults.merge given').entries)
    (same : ∀ tree, (state.treeOf state.configuration text).1 = .ok tree →
      ∀ name, tree.Mentions name →
        (state.defaults.merge given).get? name = (state.defaults.merge given').get? name) :
    registries.runText reenter ⟨source, some given', none⟩ text state =
      registries.runText reenter ⟨source, some given, none⟩ text state := by
  rw [runText_eq, runText_eq]
  dsimp only
  have logged := EngineState.notedFrom_log state.begin state.configuration
    "Evaluating expression: \x7b\x7d" [.text text]
  generalize state.begin.log state.configuration "Evaluating expression: \x7b\x7d" [.text text] =
    begun at logged ⊢
  -- A search of the caches leaves the trees as they are.
  have afresh : ∀ key after, state.begin.NotedFrom after →
      registries.workAfresh reenter ⟨source, some given', none⟩ text state.configuration
          state.generation key (state.defaults.merge given') after =
        registries.workAfresh reenter ⟨source, some given, none⟩ text state.configuration
          state.generation key (state.defaults.merge given) after := by
    intro key after noted
    have trees : after.trees = state.trees := by rw [noted]; rfl
    have sameTree := EngineState.treeOf_congr trees state.configuration text
    unfold workAfresh
    generalize after.treeOf state.configuration text = search at sameTree ⊢
    rcases search with ⟨error | tree, searched⟩
    · rfl
    · exact evaluateTree_of_mentioned _ _ _ (same tree sameTree.symm) searched
  have key : Task.key? ⟨source, some given', none⟩ state.configuration text
        (state.defaults.merge given') =
      Task.key? ⟨source, some given, none⟩ state.configuration text
        (state.defaults.merge given) := by
    unfold Task.key?
    rw [sameKey]
    rfl
  have defaults : begun.defaults = state.defaults := by rw [logged]; rfl
  unfold Task.mergedVariables
  dsimp only
  rw [defaults, key]
  cases Task.key? ⟨source, some given, none⟩ state.configuration text
      (state.defaults.merge given) with
  | none => exact afresh none begun logged
  | some key =>
    have noted := (EngineState.keptResult_eq begun state.configuration text key).2
    dsimp only
    generalize begun.keptResult state.configuration text key = lookup at noted ⊢
    rcases lookup with ⟨_ | result, after⟩
    · exact afresh (some key) after (logged.trans noted)
    · rfl

end Registries

namespace Engine

/-- Two maps of variables that have one key with a text, and represent each variable alike that
the text mentions, come to the same: the answers are equal, and so are the engines afterwards, with
all that they keep. An engine that keeps results keeps the same one for both. -/
theorem evaluate_of_sameKey (engine : Engine Memory) (source : String)
    (given given' : Dictionary String Value)
    (sameKey : CacheKey.ofVariables (trimmed source) (engine.state.defaults.merge given).entries =
      CacheKey.ofVariables (trimmed source) (engine.state.defaults.merge given').entries)
    (alike : ∀ tree name value value', (engine.compile source).1 = .ok tree →
      tree.Mentions name → (engine.state.defaults.merge given).get? name = some value →
      (engine.state.defaults.merge given').get? name = some value' →
        value.RepresentedAlike value') :
    engine.evaluate source given = engine.evaluate source given' := by
  symm
  unfold evaluate Registries.run Registries.runWithin
  dsimp only
  by_cases blank : trimmed source = ""
  · rw [if_pos blank, if_pos blank]
  · rw [if_neg blank, if_neg blank]
    refine congrArg engine.reporting (Registries.runText_of_key sameKey fun tree read name
      mentions => ?_)
    have compiled : (engine.compile source).1 = .ok tree := by
      unfold compile
      dsimp only
      rw [if_neg blank, fst_reporting]
      exact read
    exact CacheKey.get?_eq_of_eq sameKey fun value value' found found' =>
      alike tree name value value' compiled mentions found found'

/-- An engine that keeps no results, with the settings of a new one otherwise. -/
def keepingNothing : Engine Unit :=
  new ⟨fun _ _ => .distant, 0⟩ { cacheEvaluations := false } ()

/-- A map of two variables. -/
def twoVariables (first second : Value) : Dictionary String Value :=
  (Dictionary.empty.insert "x" first).insert "y" second

theorem evaluate_of_sameKey_unmentioned :
    CacheKey.ofVariables (trimmed "x")
          (keepingNothing.state.defaults.merge (twoVariables (.integer 3) (.integer 3))).entries =
        CacheKey.ofVariables (trimmed "x") (keepingNothing.state.defaults.merge
          (twoVariables (.integer 3) (.float (.ofInt64 3)))).entries ∧
      keepingNothing.evaluate "x" (twoVariables (.integer 3) (.integer 3)) =
        keepingNothing.evaluate "x" (twoVariables (.integer 3) (.float (.ofInt64 3))) := by
  have sameKey : CacheKey.ofVariables (trimmed "x")
        (keepingNothing.state.defaults.merge (twoVariables (.integer 3) (.integer 3))).entries =
      CacheKey.ofVariables (trimmed "x") (keepingNothing.state.defaults.merge
        (twoVariables (.integer 3) (.float (.ofInt64 3)))).entries := by
    unfold CacheKey.ofVariables
    rw [List.mergeSort_of_pairwise (by decide +kernel),
      List.mergeSort_of_pairwise (by decide +kernel)]
    decide +kernel
  refine ⟨sameKey, evaluate_of_sameKey keepingNothing "x" _ _ sameKey ?_⟩
  intro tree name value value' read mentions found found'
  have compiled : (keepingNothing.compile "x").1 = .ok (.variable "x") := rfl
  obtain rfl : Expression.variable "x" = tree := Except.ok.inj (compiled.symm.trans read)
  cases mentions
  cases found
  cases found'
  exact Or.inl rfl

/-- The integer and the binary number that denote two to the power of 53 have one key, but one of
them equals the next integer and the other does not. -/
theorem evaluate_differs_with_sameKey :
    CacheKey.ofVariables "x == 9007199254740993"
          (Dictionary.empty.insert "x" (.integer 9007199254740992)).entries =
        CacheKey.ofVariables "x == 9007199254740993"
          (Dictionary.empty.insert "x" (.float (.ofInt64 9007199254740992))).entries ∧
      (keepingNothing.evaluate "x == 9007199254740993"
          (Dictionary.empty.insert "x" (.integer 9007199254740992))).1.toOption =
        some (.boolean false) ∧
      (keepingNothing.evaluate "x == 9007199254740993"
          (Dictionary.empty.insert "x" (.float (.ofInt64 9007199254740992)))).1.toOption =
        some (.boolean true) := by
  decide +kernel

end Engine

end Reckon
