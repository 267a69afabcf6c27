/-
This file shows that parentheses carry no meaning beyond structure. The
evaluation of a tree without its parentheses visits fewer nodes, each at a depth
that is at most the one it has in the tree as written. It comes to the same,
unless the tree as written is too deep.

The two evaluations differ in every depth, also in the depths at which they call
functions. What the bodies of functions come to at two depths is known: there
the trees are the same.

A cast looks through parentheses for a call or a bare name, so it finds the same
with and without them.
-/

import Reckon.Proofs.Evaluation.Deeper
import Reckon.Proofs.Expression.Grouping

namespace Reckon

variable {Memory : Type}

/-! ### The rules of a tree without its parentheses -/

namespace Evaluation

variable {part : Expression → Evaluation Memory Value}

theorem each_ungroupedAll (trees : List Expression) :
    each part (Expression.ungroupedAll trees) = each (fun tree => part tree.ungrouped) trees := by
  rw [Expression.ungroupedAll_eq_map, each_map]

theorem conditional_ungrouped (otherwise : Option Expression)
    (branches : List (Expression × Expression)) :
    conditional part (Expression.ungroupedOptional otherwise)
        (Expression.ungroupedBranches branches) =
      conditional (fun tree => part tree.ungrouped) otherwise branches := by
  rw [Expression.ungroupedOptional_eq_map, Expression.ungroupedBranches_eq_map, conditional_map]

/-- A cast finds the same call or bare name without parentheses. -/
theorem castOperandWith_ungrouped
    (carryOut : String → Option String → List Value → Evaluation Memory Value) (typeName : String)
    (inner : Expression) :
    castOperandWith carryOut part typeName inner.ungrouped =
      castOperandWith carryOut (fun tree => part tree.ungrouped) typeName inner := by
  have notGrouping := inner.isGrouping_withoutOuterGroups
  have same : inner.ungrouped.withoutOuterGroups = inner.withoutOuterGroups.ungrouped :=
    inner.withoutOuterGroups_ungrouped.trans inner.ungrouped_withoutOuterGroups.symm
  unfold castOperandWith
  rw [same]
  cases inside : inner.withoutOuterGroups with
  | grouping within =>
    rw [inside] at notGrouping
    cases notGrouping
  | call function hint arguments =>
    show (do carryOut function _ (← each part (Expression.ungroupedAll arguments))) = _
    rw [each_ungroupedAll]
  | «variable» name => cases ValueType.ofName typeName <;> rfl
  | _ => rfl

/-- The rule of a node without parentheses is the rule of the node, with its parts evaluated
without parentheses. -/
theorem stepWith_ungrouped (setting : NestedSetting Memory)
    (readName : String → Evaluation Memory Value)
    (carryOut : String → Option String → List Value → Evaluation Memory Value)
    {expression : Expression} (notGrouping : expression.isGrouping = false) :
    stepWith setting readName carryOut part expression.ungrouped =
      stepWith setting readName carryOut (fun tree => part tree.ungrouped) expression := by
  cases expression with
  | grouping inner => cases notGrouping
  | conditional branches otherwise => exact conditional_ungrouped otherwise branches
  | call function hint arguments =>
    show (do carryOut function hint (← each part (Expression.ungroupedAll arguments))) = _
    rw [each_ungroupedAll]
    rfl
  | cast typeName inner =>
    show (do
      let value ← castOperandWith carryOut part typeName inner.ungrouped
      ofExcept (setting.types.coerce .variable (.ofName typeName) value)) = _
    rw [castOperandWith_ungrouped]
    rfl
  | _ => rfl

end Evaluation

/-! ### Evaluations of a tree without its parentheses -/

namespace Coupling

open Evaluation

variable {setting : NestedSetting Memory}

/-- The evaluation of a tree without its parentheses goes together with that of the tree, which
may be deeper. -/
theorem simulates_ungrouped (ignores : setting.IgnoresPlace) {depth depth' : Nat}
    (deeper : depth ≤ depth') (level : Nat) (expression : Expression) :
    shallower.Simulates level (evaluateAt setting depth expression.ungrouped)
      (evaluateAt setting depth' expression) := by
  induction depth' using induction_on_depth setting.depthLimit
    generalizing depth level expression with
  | tooDeep depth' tooDeep =>
    rw [evaluateAt_of_lt tooDeep]
    exact simulates_of_tooDeep _ _
  | within depth' within parts bodies =>
    rw [evaluateAt_of_le within, step_eq]
    cases isGrouping : expression.isGrouping with
    | true =>
      obtain ⟨inner, rfl⟩ : ∃ inner, expression = .grouping inner := by
        cases expression <;> first | exact ⟨_, rfl⟩ | cases isGrouping
      exact (parts (by omega) level inner).before_visit ignoresPlace_placeless
        ignores.noDeadline depth' _
    | false =>
      rw [evaluateAt_of_le (Nat.le_trans deeper within), step_eq,
        stepWith_ungrouped _ _ _ isGrouping]
      refine (simulates_visit_placeless ignores.noDeadline depth depth' _ _).bind fun _ => ?_
      -- The bodies of functions keep their parentheses.
      exact simulates_stepWith (suits_placeless setting) level expression
        (fun level part _ => parts (by omega) level part)
        (fun name _ _ _ _ together => congrArg (·.contains name) together.environment)
        (fun name _ => readVariable_placeless name)
        (simulates_dispatch_placeless ignores
          (fun level body => simulates_deeper ignores (by omega) level body) _ _)

end Coupling

/-! ### Evaluations of an engine -/

namespace Registries

open Evaluation

variable {registries : Registries Memory} {configuration : Configuration}

/-- Parentheses carry no meaning beyond structure. A tree without them comes to the same value or
error as the tree, and leaves the same machine but for the number of visits and the journal, unless
the tree is too deep. -/
theorem evaluate_ungrouped (registries : Registries Memory)
    (functions : registries.functions.IgnoresPlace) (configuration : Configuration)
    (noDeadline : configuration.timeout? = none) (begun reentries depth : Nat)
    (expression : Expression) (machine : Machine Memory)
    (notTooDeep : ∀ limit,
      (evaluate
        (registries.setting begun (backThrough (registries.runWithin reentries)) configuration)
        depth expression machine).1 ≠ .error (.depthExceeded limit)) :
    let setting :=
      registries.setting begun (backThrough (registries.runWithin reentries)) configuration
    let plain := evaluate setting depth expression.ungrouped machine
    let written := evaluate setting depth expression machine
    plain.1 = written.1 ∧ plain.2.cacheable = written.2.cacheable ∧
      plain.2.environment = written.2.environment ∧
      plain.2.engine.SameButJournal written.2.engine := by
  have ignores := (ignoresPlace_setting functions noDeadline begun reentries).nested
    registries.platform.nestings
  rcases ((Coupling.simulates_ungrouped ignores (Nat.le_refl depth) 0 expression).1 machine machine
    ⟨rfl, rfl, rfl⟩).equal fun _ _ => id with ⟨same, together⟩ | ⟨-, limit, failed⟩
  · exact ⟨same, together.cacheable, together.environment, together.engine⟩
  · exact absurd (eq_error_of_failure? failed) (notTooDeep limit)

/-- The parentheses around a call in a cast, and those around its argument, may be left out. -/
theorem evaluate_ungrouped_cast :
    let registries : Registries Unit :=
      ⟨.empty, FunctionRegistry.few.unregister "visited", .empty, ⟨fun _ _ => .distant, 0⟩⟩
    let setting := registries.setting 0 (backThrough (registries.runWithin 1)) {}
    let machine := Machine.start .empty (.initial {} ())
    let call (argument : Expression) := Expression.call "denied" none [argument]
    let written : Expression :=
      .grouping (.cast "bool" (.grouping (.grouping (call (.grouping (.boolean true))))))
    registries.functions.IgnoresPlace ∧
      (evaluate setting 0 written machine).1.toOption = some (.boolean false) ∧
      written.ungrouped = .cast "bool" (call (.boolean true)) ∧
      (evaluate setting 0 written.ungrouped machine).1 = (evaluate setting 0 written machine).1 ∧
      (evaluate setting 0 written.ungrouped machine).2.visits = 4 ∧
      (evaluate setting 0 written machine).2.visits = 6 := by
  intro registries setting machine call written
  have functions : registries.functions.IgnoresPlace := by
    intro name function host found callable
    have known : (FunctionRegistry.few.table.erase "visited").get? name = some function := found
    rw [Dictionary.get?_erase] at known
    split at known
    · cases known
    next different =>
      have member := (Dictionary.mem_entries_iff _ name function).2 known
      simp only [FunctionRegistry.few, List.mem_cons, List.not_mem_nil, or_false,
        Prod.mk.injEq] at member
      rcases member with ⟨rfl, -⟩ | ⟨-, rfl⟩ | ⟨-, rfl⟩
      · exact absurd rfl different
      · cases callable
      · cases callable
  have result : (evaluate setting 0 written machine).1.toOption = some (.boolean false) := by
    decide +kernel
  refine ⟨functions, result, rfl, ?_, by decide +kernel, by decide +kernel⟩
  refine (evaluate_ungrouped registries functions {} rfl 0 1 0 written machine
    fun limit tooDeep => ?_).1
  have none : (evaluate setting 0 written machine).1.toOption = none := congrArg _ tooDeep
  cases result.symm.trans none

end Registries

end Reckon
