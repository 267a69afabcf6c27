/-
This file shows that an evaluation leaves no trace in the environment it runs
in, apart from the uses it takes from limited bindings. The scopes it opens are
dropped again wherever it ends, and a read changes nothing but the number of
uses left.

While the evaluation runs, its environment is the one it began in, with some
uses spent, and inside that the scopes that are open at the moment. Each error
passes the end of all of them.
-/

import Mathlib.Data.List.Forall2
import Reckon.Proofs.Evaluation.Calls
import Reckon.Proofs.Evaluation.Invariant
import Reckon.Proofs.Evaluation.Scopes

namespace Reckon

/-! ### Uses that are spent -/

/-- What an allowance may come to by being used. -/
inductive Allowance.SpentTo : Allowance → Allowance → Prop where
  | unlimited : SpentTo .unlimited .unlimited
  | limited (allowed : Nat) {left left' : Nat} (fewer : left' ≤ left) :
      SpentTo (.limited allowed left) (.limited allowed left')

/-- What a binding may come to by being read: the value is the same. -/
structure Binding.SpentTo (before after : Binding) : Prop where
  value : after.value = before.value
  allowance : before.allowance.SpentTo after.allowance

/-- What a scope may come to by reads: it binds the same names. -/
def Scope.SpentTo (before after : Scope) : Prop :=
  ∀ name, (before.get? name).Rel Binding.SpentTo (after.get? name)

/-- What an environment may come to by reads: the scopes are as many, and each one comes from the
scope in its place. -/
structure Environment.SpentTo (before after : Environment) : Prop where
  inner : before.inner.Forall₂ Scope.SpentTo after.inner
  outermost : Scope.SpentTo before.outermost after.outermost

theorem Allowance.SpentTo.refl (allowance : Allowance) : allowance.SpentTo allowance := by
  cases allowance with
  | unlimited => exact .unlimited
  | limited allowed left => exact .limited allowed left.le_refl

theorem Allowance.SpentTo.afterUse {before after : Allowance} (spent : before.SpentTo after) :
    before.SpentTo after.afterUse := by
  cases spent with
  | unlimited => exact .unlimited
  | limited allowed fewer => exact .limited allowed (Nat.le_trans (Nat.sub_le _ 1) fewer)

theorem Scope.SpentTo.refl (scope : Scope) : Scope.SpentTo scope scope := by
  intro name
  cases scope.get? name with
  | none => exact .none
  | some binding => exact .some ⟨rfl, .refl binding.allowance⟩

/-- One more read of a scope spends one more use, if any. -/
theorem Scope.SpentTo.modify {before after : Scope} (spent : Scope.SpentTo before after)
    (read : String) : Scope.SpentTo before (after.modify read Binding.afterRead) := by
  intro name
  have bindings := spent name
  rw [Dictionary.get?_modify]
  split
  · generalize before.get? name = binding?, after.get? name = binding'? at bindings
    cases bindings with
    | none => exact .none
    | some spent => exact .some ⟨spent.value, spent.allowance.afterUse⟩
  · exact bindings

namespace Environment

variable {before after : Environment}

theorem SpentTo.refl (environment : Environment) : environment.SpentTo environment where
  inner := List.forall₂_same.2 fun scope _ => .refl scope
  outermost := .refl environment.outermost

/-- Scopes that are spent stay spent when one of them is read. -/
theorem forall₂_spentTo_readInner? {before after read : List Scope} {name : String}
    (spent : before.Forall₂ Scope.SpentTo after) (found : readInner? name after = some read) :
    before.Forall₂ Scope.SpentTo read := by
  induction spent generalizing read with
  | nil => cases found
  | cons scope rest inductionHypothesis =>
    rw [readInner?_cons] at found
    split at found
    · cases found
      exact .cons (scope.modify name) rest
    · obtain ⟨inner, foundInner, rfl⟩ := Option.map_eq_some_iff.1 found
      exact .cons scope (inductionHypothesis foundInner)

theorem SpentTo.read (spent : before.SpentTo after) (name : String) :
    before.SpentTo (after.read name).2 := by
  unfold Environment.read
  cases after.find? name with
  | none => exact spent
  | some binding =>
    show before.SpentTo (after.afterRead name)
    unfold Environment.afterRead
    cases found : readInner? name after.inner with
    | none => exact ⟨spent.inner, spent.outermost.modify name⟩
    | some inner => exact ⟨forall₂_spentTo_readInner? spent.inner found, spent.outermost⟩

end Environment

/-! ### An evaluation that is under way -/

variable {Memory : Type}

/-- A machine during an evaluation that began in an environment and at a call depth, with so many
scopes open. -/
structure Machine.Underway (environment : Environment) (callDepth level : Nat)
    (machine : Machine Memory) : Prop where
  environment : ∃ opened outer, opened.length = level ∧
    machine.environment = Environment.within opened outer ∧ environment.SpentTo outer
  callDepth : machine.callDepth = callDepth

namespace Evaluation

variable {environment : Environment} {callDepth level : Nat}

/-- A read of a variable leaves the machine as it is, or reads the environment. -/
theorem after_readVariable (setting : Setting Memory) (name : String) (machine : Machine Memory) :
    (readVariable setting name machine).2 = machine ∨
      (readVariable setting name machine).2 =
        { machine with environment := (machine.environment.read name).2 } := by
  unfold readVariable
  split
  · exact Or.inl rfl
  · split
    · exact Or.inr rfl
    · split <;> exact Or.inl rfl

theorem maintains_underway_readVariable (setting : Setting Memory) (name : String) :
    (readVariable setting name).Maintains (Machine.Underway environment callDepth level) := by
  intro machine underway
  rcases after_readVariable setting name machine with same | read
  · rw [same]
    exact underway
  · rw [read]
    obtain ⟨⟨opened, outer, length, parts, spent⟩, depth⟩ := underway
    refine ⟨?_, depth⟩
    rw [parts]
    -- Either a scope that was opened catches the read, or the environment outside is read.
    cases bound : Environment.readInner? name opened with
    | some opened' =>
      obtain ⟨result, reads⟩ := Environment.read_within_of_bound bound
      exact ⟨opened', outer, (Environment.length_readInner? bound).trans length,
        congrArg Prod.snd (reads outer), spent⟩
    | none =>
      exact ⟨opened, (outer.read name).2, length,
        congrArg Prod.snd (Environment.read_within_of_unbound bound outer), spent.read name⟩

/-- That an evaluation is under way stays true until it ends. -/
theorem lasts_underway (setting : NestedSetting Memory) (environment : Environment)
    (callDepth : Nat) :
    Lasts setting (Machine.Underway environment callDepth) where
  count underway := ⟨underway.environment, underway.callDepth⟩
  note _ underway := ⟨underway.environment, underway.callDepth⟩
  bind name value uses underway := by
    obtain ⟨⟨opened, outer, length, parts, spent⟩, depth⟩ := underway
    refine ⟨⟨Dictionary.empty.insert name (.ofValue value uses) :: opened, outer,
      congrArg (· + 1) length, ?_, spent⟩, depth⟩
    dsimp only
    rw [parts]
    rfl
  pop underway := by
    obtain ⟨⟨opened, outer, length, parts, spent⟩, depth⟩ := underway
    obtain ⟨scope, rest, rfl⟩ := List.exists_cons_of_length_eq_add_one length
    refine ⟨⟨rest, outer, Nat.succ.inj length, ?_, spent⟩, depth⟩
    dsimp only
    rw [parts]
    rfl
  read level name := maintains_underway_readVariable setting.toSetting name
  call depth body _ name function _ level hint values machine underway :=
    ⟨(isBlind_callFunction setting depth body name function hint values).environment machine ▸
        underway.environment,
      (restoresCallDepth_callFunction setting depth body name function hint values machine).trans
        underway.callDepth⟩

/-- An evaluation leaves the environment it began in but for the uses it spent, and the call depth
as it was, whether it gives a value or ends in an error. -/
theorem evaluate_leaves_spent (setting : Setting Memory) (depth : Nat) (expression : Expression)
    (machine : Machine Memory) :
    machine.environment.SpentTo (evaluate setting depth expression machine).2.environment ∧
      (evaluate setting depth expression machine).2.callDepth = machine.callDepth := by
  have begun : machine.Underway machine.environment machine.callDepth 0 :=
    ⟨⟨[], machine.environment, rfl, rfl, .refl _⟩, rfl⟩
  obtain ⟨⟨opened, outer, length, parts, spent⟩, callDepth⟩ :=
    (lasts_underway (setting.nested setting.nestings) machine.environment
      machine.callDepth).evaluateAt depth expression machine begun
  refine ⟨?_, callDepth⟩
  unfold evaluate
  rw [parts, List.length_eq_zero_iff.1 length]
  exact spent

end Evaluation

end Reckon
