/-
This file shows that caching cannot be noticed. With and without caches an
engine answers every call alike, and an observer writes down the same
invocations of functions whose results may not be kept: the same functions with
the same arguments, in the same order, and so equally often.
-/

import Reckon.Proofs.Engine.Observer

namespace Reckon

variable {Extra Memory : Type}

/-! ### Observed calls ask no more of the host -/

namespace HostProgram

theorem asksOnly_extended {signature : Signature} {program : HostProgram Memory}
    (asks : program.AsksOnly signature.Permits) :
    (program.extended : HostProgram (Extra × Memory)).AsksOnly signature.Permits := by
  induction program with
  | done result => trivial
  | ask request next inductionHypothesis =>
    have later := fun answer => inductionHypothesis answer (asks.2 answer)
    cases request with
    | «recall» => exact ⟨asks.1, fun memory => later memory.2⟩
    | store memory => exact ⟨asks.1, fun before => ⟨asks.1, later⟩⟩
    | _ => exact ⟨asks.1, later⟩

end HostProgram

namespace Call

theorem IsOrderly.observed {platform : Platform} {call : Call Memory}
    (orderly : call.IsOrderly platform) : call.observed.IsOrderly platform := by
  cases call with
  | registerFunction name signature function =>
    intro arguments hint
    have asks : (HostProgram.extended (function arguments hint) :
        HostProgram (Ledger Memory × Memory)).AsksOnly signature.Permits :=
      HostProgram.asksOnly_extended (orderly arguments hint)
    show (HostFunction.observed name signature function arguments hint).AsksOnly _
    unfold HostFunction.observed
    cases cacheable : signature.cacheable with
    | true => exact asks
    | false =>
      -- An uncacheable function may use the host memory, so the observer may as well.
      have uses : ∀ request : Request (Ledger Memory × Memory), ¬ request.CallsBack →
          signature.Permits request := by
        intro request stays
        refine ⟨stays, fun is => ?_⟩
        rw [cacheable] at is
        cases is
      exact ⟨uses _ id, fun _ => ⟨uses _ id, fun _ => asks⟩⟩
  | registerOperationUnnoticed => exact orderly
  | configure => exact orderly
  | _ => trivial

theorem usedVariables_observed (defaults : Dictionary String Value) (calls : List (Call Memory)) :
    usedVariables defaults (calls.map Call.observed) = usedVariables defaults calls := by
  induction calls generalizing defaults with
  | nil => rfl
  | cons call rest inductionHypothesis =>
    have sameUse : call.observed.usedVariables? defaults = call.usedVariables? defaults := by
      cases call <;> rfl
    have sameAfter : call.observed.defaultsAfter defaults = call.defaultsAfter defaults := by
      cases call <;> rfl
    rw [List.map_cons]
    unfold usedVariables
    rw [sameUse, sameAfter, inductionHypothesis]

end Call

namespace Engine

/-- The invocations of functions whose results may not be kept, in the course of calls to a new
engine. That they are written down changes no answer. -/
def invocations (prepare : Engine (Ledger Memory × Memory) → Engine (Ledger Memory × Memory))
    (platform : Platform) (configuration : Configuration) (memory : Memory)
    (calls : List (Call Memory)) : Ledger Memory :=
  ((Engine.new platform configuration ([], memory)).answerAll prepare
    (calls.map Call.observed)).2.state.memory.1

/-- Caching cannot be noticed. To each call an engine answers what it would answer if both caches
always missed, and it invokes the functions whose results may not be kept as it would then. -/
theorem answerAll_withoutKept (platform : Platform) (configuration : Configuration)
    (memory : Memory) (calls : List (Call Memory)) (inTime : platform.LeavesTime configuration)
    (orderly : ∀ call ∈ calls, call.IsOrderly platform)
    (apart : KeysTellApart (Call.usedVariables .empty calls)) :
    ((Engine.new platform configuration memory).answerAll id calls).1 =
        ((Engine.new platform configuration memory).answerAll withoutKept calls).1 ∧
      invocations id platform configuration memory calls =
        invocations withoutKept platform configuration memory calls := by
  have plain := sameAnswers_withoutKept inTime memory apart calls orderly fun _ => id
  have observed := sameAnswers_withoutKept inTime (([] : Ledger Memory), memory) apart
    (calls.map Call.observed)
    (fun call member => by
      obtain ⟨original, known, rfl⟩ := List.mem_map.1 member
      exact (orderly original known).observed)
    fun pair member => by rwa [Call.usedVariables_observed] at member
  refine ⟨plain.1, ?_⟩
  exact congrArg (fun standing => standing.memory.1) observed.2.standing

/-- A host function that counts its calls in the host memory. -/
def tick : HostFunction Nat := fun _ _ =>
  .ask .recall fun (count : Nat) => .ask (.store (count + 1)) fun _ => .give (.text "tick")

/-- A map of one variable. -/
def oneVariable (content : String) : Dictionary String Value :=
  Dictionary.empty.insert "x" (.text content)

/-- Calls that evaluate two texts several times, against other variables and the same ones. -/
def ticking : List (Call Nat) :=
  [.registerFunction "tick" ⟨none, .any, none, false⟩ tick, .evaluate "x" (oneVariable "a"),
    .evaluate "x" (oneVariable "b"), .evaluate "x" (oneVariable "a"),
    .evaluate "tick()" (oneVariable "a"), .evaluate "tick()" (oneVariable "a")]

theorem isOrderly_ticking (platform : Platform) : ∀ call ∈ ticking, call.IsOrderly platform := by
  simp [ticking, Call.IsOrderly, tick, HostProgram.AsksOnly, HostProgram.give, Signature.Permits,
    Request.CallsBack]

theorem keysTellApart_ticking : KeysTellApart (Call.usedVariables .empty ticking) := by
  have used : ∀ pair ∈ Call.usedVariables .empty ticking,
      ∃ content, pair.2 = oneVariable content := by
    have merged : ∀ content,
        Dictionary.empty.merge (oneVariable content) = oneVariable content := fun _ => rfl
    simp only [ticking, Call.usedVariables, Call.usedVariables?, Call.defaultsAfter, merged,
      Option.toList_none, Option.toList_some, List.nil_append, List.cons_append,
      List.forall_mem_cons]
    exact ⟨⟨_, rfl⟩, ⟨_, rfl⟩, ⟨_, rfl⟩, ⟨_, rfl⟩, ⟨_, rfl⟩, fun _ never => by cases never⟩
  intro text given given' member member' same
  obtain ⟨content, is⟩ := used _ member
  obtain ⟨content', is'⟩ := used _ member'
  dsimp only at is is'
  subst is is'
  obtain rfl : content = content' := by
    simpa [CacheKey.ofVariables, oneVariable, Dictionary.insert, Dictionary.erase, Dictionary.empty,
      Fingerprint.ofValue] using same
  exact fun _ => rfl

theorem answerAll_withoutKept_ticking :
    let platform : Platform := ⟨fun _ _ => .reached, 0⟩
    platform.LeavesTime {} ∧ (∀ call ∈ ticking, call.IsOrderly platform) ∧
      KeysTellApart (Call.usedVariables .empty ticking) ∧
        ((Engine.new platform {} 0).answerAll id ticking).1 =
            ((Engine.new platform {} 0).answerAll withoutKept ticking).1 ∧
          invocations id platform {} 0 ticking = invocations withoutKept platform {} 0 ticking := by
  intro platform
  have inTime : platform.LeavesTime {} := Platform.leavesTime_of_untimed rfl
  exact ⟨inTime, isOrderly_ticking platform, keysTellApart_ticking,
    answerAll_withoutKept platform {} 0 ticking inTime (isOrderly_ticking platform)
      keysTellApart_ticking⟩

end Engine

end Reckon
