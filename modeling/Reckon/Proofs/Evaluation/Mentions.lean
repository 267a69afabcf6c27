/-
This file shows that only the names an expression mentions can influence its
evaluation. Two evaluations in environments in which these names mean the same
come to the same and leave the same machine behind, apart from the
environments, in which the names mean the same again.

What it is to mean the same is left open at first: bindings may be alike in any
way that lasts when they are read and that makes their answers correspond.

The calls on the way do not see the environments at all.
-/

import Reckon.Proofs.Evaluation.Calls
import Reckon.Proofs.Evaluation.Scopes

namespace Reckon

/-! ### Environments in which some names mean the same -/

/-- A way in which bindings of a name may be alike, and the errors in which their answers may
differ. -/
structure Binding.Likeness where
  Alike : String → Binding → Binding → Prop
  errors : EvaluationError → EvaluationError → Prop
  afterRead : ∀ {name binding binding'}, Alike name binding binding' →
    Alike name binding.afterRead binding'.afterRead
  answer : ∀ {name binding binding'}, Alike name binding binding' →
    Corresponds errors (binding.answer name) (binding'.answer name)

/-- Bindings that are the same. -/
def Binding.Likeness.identity : Binding.Likeness where
  Alike _ := Eq
  errors _ _ := False
  afterRead same := congrArg Binding.afterRead same
  answer same := .of_eq (congrArg (Binding.answer · _) same)

namespace Environment

variable {likeness : Binding.Likeness} {names : String → Prop} {first second : Environment}

/-- Two environments in which each name of a kind has bindings that are alike, or none. -/
def AgreeBy (likeness : Binding.Likeness) (names : String → Prop) (first second : Environment) :
    Prop :=
  ∀ name, names name → Option.Rel (likeness.Alike name) (first.find? name) (second.find? name)

/-- Two environments in which each name of a kind has the same binding, or none. -/
def AgreeOn (names : String → Prop) (first second : Environment) : Prop :=
  ∀ name, names name → first.find? name = second.find? name

theorem agreeBy_identity_iff :
    first.AgreeBy .identity names second ↔ first.AgreeOn names second := by
  refine forall₂_congr fun name _ => ?_
  constructor
  · intro related
    generalize first.find? name = found at related ⊢
    generalize second.find? name = found' at related ⊢
    cases related with
    | none => rfl
    | some same => exact congrArg some same
  · intro same
    rw [same]
    cases second.find? name with
    | none => exact .none
    | some binding => exact .some rfl

theorem find?_ofVariables (given : Dictionary String Value) (name : String) :
    (ofVariables given).find? name =
      (given.get? name).map fun value => Binding.ofValue value .unlimited := by
  unfold find? scopes ofVariables
  rw [List.nil_append, List.findSome?_singleton, Dictionary.get?_mapEntries]

/-- Names that a caller gives the same values mean the same. -/
theorem agreeOn_ofVariables {given given' : Dictionary String Value}
    (same : ∀ name, names name → given.get? name = given'.get? name) :
    (ofVariables given).AgreeOn names (ofVariables given') := by
  intro name among
  rw [find?_ofVariables, find?_ofVariables, same name among]

theorem AgreeBy.answer (agree : first.AgreeBy likeness names second) {name : String}
    (among : names name) :
    Corresponds likeness.errors (first.read name).1 (second.read name).1 := by
  have related := agree name among
  unfold Environment.read
  generalize first.find? name = found at related
  generalize second.find? name = found' at related
  cases related with
  | none => exact .same _
  | some alike => exact likeness.answer alike

theorem AgreeBy.read (agree : first.AgreeBy likeness names second) {name : String}
    (among : names name) : (first.read name).2.AgreeBy likeness names (second.read name).2 := by
  intro other amongOther
  rw [find?_read, find?_read]
  split
  next same =>
    subst same
    have related := agree other among
    generalize first.find? other = found at related
    generalize second.find? other = found' at related
    cases related with
    | none => exact .none
    | some alike => exact .some (likeness.afterRead alike)
  · exact agree other amongOther

theorem AgreeBy.contains (agree : first.AgreeBy likeness names second) {name : String}
    (among : names name) : first.contains name = second.contains name := by
  have related := agree name among
  unfold Environment.contains
  generalize first.find? name = found at related
  generalize second.find? name = found' at related
  cases related with
  | none => rfl
  | some alike => rfl

end Environment

/-! ### Evaluations that differ in their environments -/

variable {Memory : Type}

/-- Two machines that differ in their environments only, which have the scopes that were opened
in common, and in which the names of a kind mean the same outside of these. -/
structure Machine.AgreeBy (likeness : Binding.Likeness) (names : String → Prop) (level : Nat)
    (machine machine' : Machine Memory) : Prop where
  environments : ∃ opened outer outer', opened.length = level ∧
    machine.environment = Environment.within opened outer ∧
    machine'.environment = Environment.within opened outer' ∧ outer.AgreeBy likeness names outer'
  others : machine' = { machine with environment := machine'.environment }

namespace Coupling

open Evaluation

variable {likeness : Binding.Likeness} {names : String → Prop} {level : Nat}

/-- The coupling of evaluations in environments in which the names of a kind mean the same. -/
def agreeing (likeness : Binding.Likeness) (names : String → Prop) : Coupling Memory Memory where
  together := Machine.AgreeBy likeness names
  errors := likeness.errors
  parted _ _ _ := False
  parted_restore _ _ _ _ parted := parted
  parted_onward parted _ _ := parted

theorem records_agreeing : (agreeing likeness names : Coupling Memory Memory).Records where
  visits together := by rw [together.others]
  count together := by
    obtain ⟨environments, others⟩ := together
    rw [others]
    exact ⟨environments, rfl⟩
  note event together := by
    obtain ⟨environments, others⟩ := together
    rw [others]
    exact ⟨environments, rfl⟩
  keepsCount parted := parted
  keepsNote _ parted := parted

theorem fits_agreeing (setting : NestedSetting Memory) :
    (agreeing likeness names).Fits setting setting where
  configuration := rfl
  operations := rfl
  types := rfl
  deadline := rfl
  records := records_agreeing
  bind level name value uses machine machine' together := by
    obtain ⟨⟨opened, outer, outer', length, inside, inside', agree⟩, others⟩ := together
    refine ⟨⟨Dictionary.empty.insert name (.ofValue value uses) :: opened, outer, outer',
      congrArg (· + 1) length, ?_, ?_, agree⟩, by rw [others]⟩
    · dsimp only
      rw [inside]
      rfl
    · dsimp only
      rw [inside']
      rfl
  pop level machine machine' together := by
    obtain ⟨⟨opened, outer, outer', length, inside, inside', agree⟩, others⟩ := together
    obtain ⟨scope, rest, rfl⟩ := List.exists_cons_of_length_eq_add_one length
    refine ⟨⟨rest, outer, outer', Nat.succ.inj length, ?_, ?_, agree⟩, by rw [others]⟩
    · dsimp only
      rw [inside]
      rfl
    · dsimp only
      rw [inside']
      rfl

theorem sees_agreeing {name : String} (among : names name) :
    (agreeing likeness names : Coupling Memory Memory).SeesAlike name := by
  intro level machine machine' together
  obtain ⟨⟨opened, outer, outer', -, inside, inside', agree⟩, -⟩ := together
  rw [inside, inside', Environment.contains_within, Environment.contains_within,
    agree.contains among]

/-- A name that means the same in both environments is read alike. -/
theorem readVariable_agreeing {setting : Setting Memory} {name : String} (among : names name) :
    (agreeing likeness names).Simulates level (readVariable setting name)
      (readVariable setting name) := by
  refine ⟨fun machine machine' together => Or.inl ?_, fun _ _ _ parted => parted.elim⟩
  have sees := sees_agreeing among level machine machine' together
  unfold readVariable
  rw [sees]
  split
  · exact ⟨.same _, together⟩
  · split
    · obtain ⟨⟨opened, outer, outer', length, inside, inside', agree⟩, others⟩ := together
      dsimp only
      rw [inside, inside']
      -- A scope that was opened catches the read in both environments, or in neither.
      cases bound : Environment.readInner? name opened with
      | some opened' =>
        obtain ⟨result, reads⟩ := Environment.read_within_of_bound bound
        rw [reads, reads]
        exact ⟨.same _, ⟨opened', outer, outer', (Environment.length_readInner? bound).trans length,
          rfl, rfl, agree⟩, by rw [others]⟩
      | none =>
        rw [Environment.read_within_of_unbound bound, Environment.read_within_of_unbound bound]
        exact ⟨agree.answer among, ⟨opened, _, _, length, rfl, rfl, agree.read among⟩,
          by rw [others]⟩
    · split
      · exact ⟨.same _, together⟩
      · exact ⟨.same _, together⟩

/-- A call that does not see the environment comes to the same in both. -/
theorem simulates_agreeing_of_isBlind {Result : Type} {action : Evaluation Memory Result}
    (blind : action.IsBlind) : (agreeing likeness names).Simulates level action action := by
  refine ⟨fun machine machine' together => Or.inl ?_, fun _ _ _ parted => parted.elim⟩
  obtain ⟨⟨opened, outer, outer', length, inside, inside', agree⟩, others⟩ := together
  rw [others, blind machine machine'.environment]
  exact ⟨.same _, ⟨opened, outer, outer', length, (blind.environment machine).trans inside, inside',
    agree⟩, rfl⟩

/-- Evaluations of an expression that mentions only names that mean the same go together. -/
theorem simulates_agreeing (setting : NestedSetting Memory) (levels level : Nat)
    (expression : Expression)
    (mentioned : ∀ name, expression.Mentions name → names name) :
    (agreeing likeness names).Simulates level (evaluateWithin setting levels expression)
      (evaluateWithin setting levels expression) := by
  induction levels generalizing level expression with
  | zero => exact simulates_fail _
  | succ levels inductionHypothesis =>
    rw [evaluateWithin_succ]
    refine (records_agreeing.visit rfl rfl _ rfl).bind fun _ => ?_
    refine simulates_step (fits_agreeing setting) ⟨fun _ unknown => unknown, ?_⟩ level expression
      (fun level part within => ?_) (fun name mentions => sees_agreeing (mentioned name mentions))
      fun name isVariable => ?_
    · exact fun name function found => ⟨function, found, fun level hint values =>
        simulates_agreeing_of_isBlind (isBlind_callFunction setting _ _ name function hint values)⟩
    · exact inductionHypothesis level part fun name mentions =>
        mentioned name (mentions.of_within within)
    · rw [isVariable] at mentioned
      exact readVariable_agreeing (mentioned name .itself)

end Coupling

/-- An evaluation depends on nothing of its environment but the bindings of the names that the
expression mentions, and on nothing of these in which alike ones may differ. -/
theorem Evaluation.evaluate_alike (setting : Setting Memory) (depth : Nat)
    (expression : Expression) {likeness : Binding.Likeness} (machine : Machine Memory)
    {environment : Environment}
    (agree : machine.environment.AgreeBy likeness expression.Mentions environment) :
    let outcome := evaluate setting depth expression machine
    let outcome' := evaluate setting depth expression { machine with environment }
    Corresponds likeness.errors outcome.1 outcome'.1 ∧
      outcome'.2 = { outcome.2 with environment := outcome'.2.environment } ∧
      outcome.2.environment.AgreeBy likeness expression.Mentions outcome'.2.environment := by
  have begun : machine.AgreeBy likeness expression.Mentions 0 { machine with environment } :=
    ⟨⟨[], machine.environment, environment, rfl, rfl, rfl, agree⟩, rfl⟩
  rcases (Coupling.simulates_agreeing (setting.nested setting.nestings)
    (setting.depthLimit + 1 - depth) 0 expression fun _ mentions => mentions).1 _ _ begun with
    ⟨corresponds, together⟩ | parted
  · obtain ⟨⟨opened, outer, outer', length, inside, inside', agree⟩, others⟩ := together
    obtain rfl : opened = [] := List.length_eq_zero_iff.1 length
    exact ⟨corresponds, others, inside ▸ inside' ▸ agree⟩
  · exact parted.elim

/-- An evaluation depends on nothing of its environment but what the names that the expression
mentions mean there. -/
theorem Evaluation.evaluate_congr (setting : Setting Memory) (depth : Nat)
    (expression : Expression) (machine : Machine Memory) {environment : Environment}
    (agree : machine.environment.AgreeOn expression.Mentions environment) :
    let outcome := evaluate setting depth expression machine
    let outcome' := evaluate setting depth expression { machine with environment }
    outcome'.1 = outcome.1 ∧
      outcome'.2 = { outcome.2 with environment := outcome'.2.environment } ∧
      outcome.2.environment.AgreeOn expression.Mentions outcome'.2.environment := by
  obtain ⟨corresponds, others, agree⟩ :=
    evaluate_alike setting depth expression machine (Environment.agreeBy_identity_iff.2 agree)
  exact ⟨(corresponds.eq fun _ _ => id).symm, others, Environment.agreeBy_identity_iff.1 agree⟩

end Reckon
