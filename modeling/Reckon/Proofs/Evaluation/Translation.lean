/-
This file compares an evaluation with that of the same expression under other
free names, in another environment. One environment stands for the other as far
as it goes: for each name of a kind, what it means in the one is what the name
it is changed into means in the other. Inside a `let` the name bound there means
the same in both, and the names outside mean what they meant.

The comparison rests on one of evaluations in a single environment, which says
what the two machines have in common besides, and when they part. What does not
see the environment at all, as a call once its arguments are evaluated, is left
to that one.
-/

import Reckon.Proofs.Evaluation.Calls
import Reckon.Proofs.Evaluation.Scopes
import Reckon.Proofs.Expression.Renaming

namespace Reckon

variable {errors : EvaluationError → EvaluationError → Prop}

namespace Environment

/-! ### Environments that stand for each other -/

/-- A way in which one environment stands for another: names of a kind mean in the one what the
names they are changed into mean in the other, up to errors of which the first stands for the
second. A name that is changed is bound. -/
structure Translation (errors : EvaluationError → EvaluationError → Prop) where
  Alike : Environment → Environment → Prop
  names : String → Prop
  rename : String → String
  contains : ∀ {first second name}, Alike first second → names name →
    first.contains name = second.contains (rename name)
  bound : ∀ {first second name}, Alike first second → names name → rename name ≠ name →
    first.contains name = true
  read : ∀ {first second name}, Alike first second → names name →
    Corresponds errors (first.read name).1 (second.read (rename name)).1 ∧
      Alike (first.read name).2 (second.read (rename name)).2

namespace Translation

/-- An environment stands for itself. -/
def identity (errors : EvaluationError → EvaluationError → Prop) : Translation errors where
  Alike := Eq
  names _ := True
  rename := id
  contains same _ := by rw [same, id]
  bound _ _ changed := absurd rfl changed
  read same _ := by
    rw [same, id]
    exact ⟨.same _, rfl⟩

/-- No other name is changed into the one that is bound. -/
def LeavesApart (translation : Translation errors) (bound : String) : Prop :=
  ∀ name, translation.names name → name ≠ bound → translation.rename name ≠ bound

/-- Inside a `let`, where a name is bound to the same in both environments. -/
def under (translation : Translation errors) (bound : String)
    (apart : translation.LeavesApart bound) : Translation errors where
  Alike first second := ∃ value allowance outer outer',
    first = within [bindingScope bound value allowance] outer ∧
      second = within [bindingScope bound value allowance] outer' ∧
      translation.Alike outer outer'
  names name := name = bound ∨ translation.names name
  rename := Expression.shadowed translation.rename bound
  contains := by
    rintro first second name ⟨value, allowance, outer, outer', rfl, rfl, alike⟩ among
    rw [contains_bindingScope, contains_bindingScope]
    by_cases same : name = bound
    · rw [same, Expression.shadowed_self, decide_eq_true rfl, Bool.true_or, Bool.true_or]
    · have outside := among.resolve_left same
      rw [Expression.shadowed_of_ne _ same, decide_eq_false same,
        decide_eq_false (apart name outside same), translation.contains alike outside]
  bound := by
    rintro first second name ⟨value, allowance, outer, outer', rfl, rfl, alike⟩ among changed
    rw [contains_bindingScope]
    by_cases same : name = bound
    · rw [decide_eq_true same, Bool.true_or]
    · rw [Expression.shadowed_of_ne _ same] at changed
      rw [translation.bound alike (among.resolve_left same) changed, Bool.or_true]
  read := by
    rintro first second name ⟨value, allowance, outer, outer', rfl, rfl, alike⟩ among
    by_cases same : name = bound
    · subst same
      rw [Expression.shadowed_self, read_bindingScope_self, read_bindingScope_self]
      exact ⟨.same _, value, allowance.afterUse, outer, outer', rfl, rfl, alike⟩
    · have outside := among.resolve_left same
      rw [Expression.shadowed_of_ne _ same,
        read_within_of_unbound (readInner?_bindingScope_of_ne same),
        read_within_of_unbound (readInner?_bindingScope_of_ne (apart name outside same))]
      obtain ⟨answers, after⟩ := translation.read alike outside
      exact ⟨answers, value, allowance, _, _, rfl, rfl, after⟩

/-- What is asked of an expression that is evaluated in two environments that stand for each
other: its free names are among those of the translation, its `let`s catch no other name, and
the filter of variables lets the names through that are changed, before and after. -/
structure Admits (translation : Translation errors) (configuration : Configuration)
    (expression : Expression) : Prop where
  free : ∀ name, expression.HasFree name → translation.names name
  apart : ∀ bound, expression.Binds bound → translation.LeavesApart bound
  allowed : ∀ name, translation.names name → translation.rename name ≠ name →
    configuration.isVariableAllowed name = true ∧
      configuration.isVariableAllowed (translation.rename name) = true

variable {translation : Translation errors} {configuration : Configuration}

theorem Admits.part {part whole : Expression} (admits : translation.Admits configuration whole)
    (isPart : part.PartOf whole) : translation.Admits configuration part where
  free name free := admits.free name (.part isPart free)
  apart bound binds := admits.apart bound (binds.of_within isPart.within)
  allowed := admits.allowed

theorem Admits.withoutOuterGroups {expression : Expression}
    (admits : translation.Admits configuration expression) :
    translation.Admits configuration expression.withoutOuterGroups where
  free name free := admits.free name free.of_withoutOuterGroups
  apart bound binds := admits.apart bound (binds.of_within expression.withoutOuterGroups_within)
  allowed := admits.allowed

/-- Where no name is changed, it is enough that the translation is about the free names. -/
theorem Admits.of_unchanged {expression : Expression} (unchanged : translation.rename = id)
    (free : ∀ name, expression.HasFree name → translation.names name) :
    translation.Admits configuration expression where
  free := free
  apart bound _ name _ different := by rwa [unchanged]
  allowed name _ changed := absurd (congrFun unchanged name) changed

section Binding

variable {name : String} {value inner : Expression} {uses : UseLimit}

theorem Admits.leavesApart
    (admits : translation.Admits configuration (.binding name value uses inner)) :
    translation.LeavesApart name :=
  admits.apart name ⟨value, uses, inner, .itself⟩

theorem Admits.body
    (admits : translation.Admits configuration (.binding name value uses inner)) :
    (translation.under name admits.leavesApart).Admits configuration inner where
  free other free := by
    by_cases same : other = name
    · exact Or.inl same
    · exact Or.inr (admits.free other (.body value uses same free))
  apart bound binds other among different := by
    show Expression.shadowed translation.rename name other ≠ bound
    by_cases same : other = name
    · rw [same, Expression.shadowed_self]
      exact same ▸ different
    · rw [Expression.shadowed_of_ne _ same]
      exact admits.apart bound (binds.of_within (.body name value uses .itself)) other
        (among.resolve_left same) different
  allowed other among changed := by
    change Expression.shadowed translation.rename name other ≠ other at changed
    show _ ∧ configuration.isVariableAllowed (Expression.shadowed translation.rename name other) =
      true
    by_cases same : other = name
    · rw [same, Expression.shadowed_self] at changed
      exact absurd rfl changed
    · rw [Expression.shadowed_of_ne _ same] at changed ⊢
      exact admits.allowed other (among.resolve_left same) changed

end Binding

end Translation

end Environment

/-! ### Evaluations in the two environments -/

variable {Memory Result : Type}

namespace Coupling

open Evaluation

/-- A coupling of evaluations in the same environment that the comparison can rest on, for
evaluations with so many levels left. It does not matter what the environment is, nor what the
first evaluation does after the two have parted. -/
structure Carries (base : Coupling Memory Memory) (setting : NestedSetting Memory)
    (fits : Nat → Nat → Prop) : Prop where
  same : ∀ error error', ¬ base.errors error error'
  parted : ∀ {machine failure machine'} (other : Machine Memory),
    base.parted machine failure machine' → base.parted other failure machine'
  environment : ∀ {machine machine'} environment, base.together 0 machine machine' →
    base.together 0 { machine with environment } { machine' with environment }
  tooDeep : ∀ {levels}, fits levels 0 → levels = 0 ∨
    ∀ machine machine', base.parted machine (some (.depthExceeded setting.depthLimit)) machine'
  more : ∀ {levels left}, fits levels (left + 1) → ∃ more, levels = more + 1 ∧ fits more left ∧
    (∀ expression expression',
      NodeSort.ofExpression expression = NodeSort.ofExpression expression' →
        base.Simulates 0 (visit setting (setting.depthLimit - more) expression)
          (visit setting (setting.depthLimit - left) expression')) ∧
    ∀ name hint values, base.Simulates 0
      (dispatch setting (setting.depthLimit - more + 1) (bodyWithin setting more) name hint values)
      (dispatch setting (setting.depthLimit - left + 1) (bodyWithin setting left) name hint values)

/-- The coupling of evaluations in environments that stand for each other, which are otherwise
coupled in a given way. -/
def translated (base : Coupling Memory Memory) (translation : Environment.Translation errors) :
    Coupling Memory Memory where
  together _ machine machine' := translation.Alike machine.environment machine'.environment ∧
    base.together 0 machine { machine' with environment := machine.environment }
  errors := errors
  parted := base.parted
  parted_restore := base.parted_restore
  parted_onward := base.parted_onward

variable {base : Coupling Memory Memory} {setting : NestedSetting Memory} {fits : Nat → Nat → Prop}
  {translation : Environment.Translation errors} {level : Nat}

theorem Carries.keeps (carries : base.Carries setting fits) (action : Evaluation Memory Result) :
    (base.translated translation).Keeps action :=
  fun _ _ _ parted => carries.parted _ parted

/-- What does not see the environment goes together in the two environments. -/
theorem Carries.simulates_of_isBlind (carries : base.Carries setting fits)
    {first second : Evaluation Memory Result} (blind : first.IsBlind) (blind' : second.IsBlind)
    (simulates : base.Simulates 0 first second) :
    (base.translated translation).Simulates level first second := by
  refine ⟨fun machine machine' together => ?_, carries.keeps first⟩
  obtain ⟨alike, together⟩ := together
  have agree := (simulates.1 _ _ together).equal carries.same
  rw [blind' machine' machine.environment] at agree
  rcases agree with ⟨same, after⟩ | parted
  · refine Or.inl ⟨.of_eq same, ?_, ?_⟩
    · rw [blind.environment, blind'.environment]
      exact alike
    · rw [blind.environment]
      exact after
  · have back := base.parted_restore (first machine).2.environment (second machine').2.environment
      (first machine).2.callDepth (second machine').2.callDepth parted
    exact Or.inr back

/-- A variable is read under both names. -/
theorem Carries.readVariable (carries : base.Carries setting fits) {name : String}
    (among : translation.names name)
    (allowed : translation.rename name ≠ name →
      setting.configuration.isVariableAllowed name = true ∧
        setting.configuration.isVariableAllowed (translation.rename name) = true) :
    (base.translated translation).Simulates level (Evaluation.readVariable setting.toSetting name)
      (Evaluation.readVariable setting.toSetting (translation.rename name)) := by
  refine ⟨fun machine machine' together => Or.inl ?_, carries.keeps _⟩
  obtain ⟨alike, together⟩ := together
  have contains := translation.contains alike among
  have bound := translation.bound alike among
  obtain ⟨answers, after⟩ := translation.read alike among
  have onward := carries.environment (machine.environment.read name).2 together
  unfold Evaluation.readVariable
  by_cases unchanged : translation.rename name = name
  · rw [unchanged] at contains answers after ⊢
    rw [← contains]
    split
    · exact ⟨.same _, alike, together⟩
    · split
      · exact ⟨answers, after, onward⟩
      · split <;> exact ⟨.same _, alike, together⟩
  · -- A name that is changed is bound, and the filter lets it through.
    rw [(allowed unchanged).1, (allowed unchanged).2, ← contains, bound unchanged]
    exact ⟨answers, after, onward⟩

section Nodes

variable {part part' : Expression → Evaluation Memory Value}
  {carryOut carryOut' : String → Option String → List Value → Evaluation Memory Value}

/-- Two evaluators that go together on whatever a translation admits. -/
def TranslateParts (base : Coupling Memory Memory)
    (errors : EvaluationError → EvaluationError → Prop) (setting : NestedSetting Memory)
    (part part' : Expression → Evaluation Memory Value) : Prop :=
  ∀ (translation : Environment.Translation errors) (inner : Expression),
    translation.Admits setting.configuration inner →
      (base.translated translation).Simulates 0 (part inner)
        (part' (inner.renamed translation.rename))

theorem TranslateParts.all (parts : base.TranslateParts errors setting part part')
    {function : String} {hint : Option String} {arguments : List Expression}
    (admits : translation.Admits setting.configuration (.call function hint arguments)) :
    (base.translated translation).Simulates 0 (each part arguments)
      (each part' (Expression.renamedAll translation.rename arguments)) := by
  rw [Expression.renamedAll_eq_map, each_map]
  exact simulates_each arguments fun argument member =>
    parts translation argument (admits.part (.argument function hint member))

theorem Carries.castOperandWith (carries : base.Carries setting fits)
    (parts : base.TranslateParts errors setting part part')
    (calls : ∀ name hint values, (base.translated translation).Simulates 0
      (carryOut name hint values) (carryOut' name hint values))
    {typeName : String} {inner : Expression}
    (admits : translation.Admits setting.configuration inner) :
    (base.translated translation).Simulates 0
      (Evaluation.castOperandWith carryOut part typeName inner)
      (Evaluation.castOperandWith carryOut' part' typeName
        (inner.renamed translation.rename)) := by
  have inside := admits.withoutOuterGroups
  have whole := parts translation inner admits
  unfold Evaluation.castOperandWith
  rw [Expression.withoutOuterGroups_renamed]
  generalize inner.withoutOuterGroups = operand at inside
  cases operand with
  | call function hint arguments => exact (parts.all inside).bind fun values => calls _ _ values
  | «variable» name =>
    have among := inside.free name .itself
    cases ValueType.ofName typeName with
    | named =>
      refine ⟨fun machine machine' together => ?_, carries.keeps _⟩
      have contains := translation.contains together.1 among
      have bound := translation.bound together.1 among
      show (base.translated translation).Agree 0
        ((if machine.environment.contains name then part inner else pure (.text name)) machine)
        ((if machine'.environment.contains (translation.rename name) then
          part' (inner.renamed translation.rename) else pure (.text (translation.rename name)))
            machine')
      rw [← contains]
      split
      · exact whole.1 machine machine' together
      next unbound =>
        -- An unbound name is not changed.
        have unchanged : translation.rename name = name :=
          Classical.byContradiction fun changed => unbound (bound changed)
        rw [unchanged]
        exact Or.inl ⟨.same _, together⟩
    | _ => exact whole
  | _ => exact whole

/-- The rule of a node goes together with that of the node under other names, if the rules of what
it is put together from do. -/
theorem Carries.stepWith (carries : base.Carries setting fits)
    (parts : base.TranslateParts errors setting part part')
    (calls : ∀ name hint values, (base.translated translation).Simulates 0
      (carryOut name hint values) (carryOut' name hint values))
    {expression : Expression} (admits : translation.Admits setting.configuration expression) :
    (base.translated translation).Simulates 0
      (Evaluation.stepWith setting (Evaluation.readVariable setting) carryOut part expression)
      (Evaluation.stepWith setting (Evaluation.readVariable setting) carryOut' part'
        (expression.renamed translation.rename)) := by
  have inner : ∀ {inner : Expression}, inner.PartOf expression →
      (base.translated translation).Simulates 0 (part inner)
        (part' (inner.renamed translation.rename)) :=
    fun isPart => parts translation _ (admits.part isPart)
  cases expression with
  | integer number => exact simulates_pure _
  | float number => exact simulates_pure _
  | text content => exact simulates_pure _
  | boolean truth => exact simulates_pure _
  | null => exact simulates_pure _
  | «variable» name =>
    have among := admits.free name .itself
    exact carries.readVariable among (admits.allowed name among)
  | binary operator left right =>
    show (base.translated translation).Simulates 0 (binary setting part operator left right)
      (binary setting (fun tree => part' (tree.renamed translation.rename)) operator left right)
    exact simulates_binary rfl operator (inner (.left operator right))
      (inner (.right operator left))
  | unary operator operand =>
    exact (inner (.operand operator)).bind fun value => simulates_ofExcept (operator.apply value)
  | ternary condition whenTrue whenFalse =>
    refine (inner (.condition whenTrue whenFalse)).bind fun truth => ?_
    cases truth.isTruthy with
    | true => exact inner (.whenTrue condition whenFalse)
    | false => exact inner (.whenFalse condition whenTrue)
  | binding name value uses body =>
    refine (inner (.value name uses body)).bind fun bound => ?_
    rw [inScope_define_eq_bracketed, inScope_define_eq_bracketed]
    -- The body runs in environments that stand for each other inside the `let`.
    refine (parts _ body admits.body).bracketed_into rfl rfl (fun machine machine' together => ?_)
      fun machine machine' after after' before together => ?_
    · have entered :=
        carries.environment (machine.environment.push.define name bound uses) together.2
      exact ⟨⟨bound, .ofLimit uses, _, _, rfl, rfl, together.1⟩, entered⟩
    · have left := carries.environment after.environment.pop together.2
      obtain ⟨value, allowance, outer, outer', inside, inside', alike⟩ := together.1
      refine ⟨?_, left⟩
      rw [inside, inside']
      exact alike
  | conditional branches otherwise =>
    show (base.translated translation).Simulates 0 (conditional part otherwise branches)
      (conditional part' (Expression.renamedOptional translation.rename otherwise)
        (Expression.renamedBranches translation.rename branches))
    rw [Expression.renamedOptional_eq_map, Expression.renamedBranches_eq_map, conditional_map]
    refine simulates_conditional (fun branch member => ?_) (fun branch member => ?_)
      fun result isLast => ?_
    · exact inner (.branchCondition otherwise member)
    · exact inner (.branchResult otherwise member)
    · subst isLast
      exact inner (.otherwise branches)
  | call name hint arguments =>
    exact (parts.all admits).bind fun values => calls name hint values
  | cast typeName operand =>
    exact (carries.castOperandWith parts calls (admits.part (.inner typeName))).bind fun value =>
      simulates_ofExcept _
  | grouping operand => exact inner .grouped

end Nodes

theorem sort_renamed (rename : String → String) (expression : Expression) :
    NodeSort.ofExpression expression = NodeSort.ofExpression (expression.renamed rename) := by
  cases expression <;> rfl

/-- An evaluation goes together with that of the expression under other names, in an environment
that the one of the first stands for. -/
theorem Carries.evaluateWithin (carries : base.Carries setting fits) {levels left : Nat}
    (fit : fits levels left) (translation : Environment.Translation errors)
    (expression : Expression) (admits : translation.Admits setting.configuration expression) :
    (base.translated translation).Simulates 0 (Evaluation.evaluateWithin setting levels expression)
      (Evaluation.evaluateWithin setting left (expression.renamed translation.rename)) := by
  induction left generalizing levels translation expression with
  | zero =>
    rcases carries.tooDeep fit with rfl | parts
    · exact simulates_fail _
    · exact ⟨fun machine machine' _ => Or.inr (parts _ _), carries.keeps _⟩
  | succ left inductionHypothesis =>
    obtain ⟨more, rfl, fit, visits, calls⟩ := carries.more fit
    rw [evaluateWithin_succ, evaluateWithin_succ, step_eq, step_eq]
    refine (carries.simulates_of_isBlind (isBlind_visit setting _ _) (isBlind_visit setting _ _)
      (visits _ _ (sort_renamed translation.rename expression))).bind fun _ => ?_
    exact carries.stepWith (fun translation inner => inductionHypothesis fit translation inner)
      (fun name hint values => carries.simulates_of_isBlind
        (isBlind_dispatch setting _ _ name hint values)
        (isBlind_dispatch setting _ _ name hint values) (calls name hint values)) admits

/-- An evaluation goes together with one of the same expression, in an environment that means the
same by its free names. -/
theorem Carries.evaluateWithin_of_unchanged (carries : base.Carries setting fits)
    (translation : Environment.Translation errors) (unchanged : translation.rename = id)
    {levels left : Nat} (fit : fits levels left) {expression : Expression}
    (free : ∀ name, expression.HasFree name → translation.names name) :
    (base.translated translation).Simulates 0 (Evaluation.evaluateWithin setting levels expression)
      (Evaluation.evaluateWithin setting left expression) := by
  have simulates := carries.evaluateWithin fit translation expression
    (.of_unchanged unchanged free)
  rwa [unchanged, expression.renamed_id] at simulates

end Coupling

end Reckon
