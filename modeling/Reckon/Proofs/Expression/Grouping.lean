/-
This file takes the parentheses out of a tree. What is left says how the tree
is put together, but no longer how it was written: two texts that differ in
parentheses that were not needed are the same tree without them.
-/

import Reckon.Proofs.Expression.Occurrence

namespace Reckon

namespace Expression

/-! ### Trees without parentheses -/

mutual

/-- A tree without any of its parentheses. -/
def ungrouped : Expression → Expression
  | .integer number => .integer number
  | .float number => .float number
  | .text content => .text content
  | .boolean truth => .boolean truth
  | .null => .null
  | .variable name => .variable name
  | .binary operator left right => .binary operator (ungrouped left) (ungrouped right)
  | .unary operator operand => .unary operator (ungrouped operand)
  | .ternary condition whenTrue whenFalse =>
    .ternary (ungrouped condition) (ungrouped whenTrue) (ungrouped whenFalse)
  | .binding name value uses body => .binding name (ungrouped value) uses (ungrouped body)
  | .conditional branches otherwise =>
    .conditional (ungroupedBranches branches) (ungroupedOptional otherwise)
  | .call function hint arguments => .call function hint (ungroupedAll arguments)
  | .cast typeName inner => .cast typeName (ungrouped inner)
  | .grouping inner => ungrouped inner

/-- Trees without any of their parentheses. -/
def ungroupedAll : List Expression → List Expression
  | [] => []
  | first :: rest => ungrouped first :: ungroupedAll rest

/-- Branches without any of their parentheses. -/
def ungroupedBranches : List (Expression × Expression) → List (Expression × Expression)
  | [] => []
  | (condition, result) :: rest =>
    (ungrouped condition, ungrouped result) :: ungroupedBranches rest

/-- An optional tree without any of its parentheses. -/
def ungroupedOptional : Option Expression → Option Expression
  | none => none
  | some tree => some (ungrouped tree)

end

theorem ungroupedAll_eq_map (trees : List Expression) :
    ungroupedAll trees = trees.map ungrouped := by
  induction trees with
  | nil => rfl
  | cons first rest inductionHypothesis => exact congrArg _ inductionHypothesis

theorem ungroupedBranches_eq_map (branches : List (Expression × Expression)) :
    ungroupedBranches branches = branches.map (Prod.map ungrouped ungrouped) := by
  induction branches with
  | nil => rfl
  | cons branch rest inductionHypothesis => exact congrArg _ inductionHypothesis

theorem ungroupedOptional_eq_map (tree : Option Expression) :
    ungroupedOptional tree = tree.map ungrouped := by
  cases tree <;> rfl

/-- Whether a tree is in parentheses. -/
def isGrouping : Expression → Bool
  | .grouping _ => true
  | _ => false

/-- Parentheses around a tree are taken out like those inside. -/
theorem ungrouped_withoutOuterGroups (expression : Expression) :
    expression.withoutOuterGroups.ungrouped = expression.ungrouped := by
  fun_induction withoutOuterGroups expression with
  | case1 inner inductionHypothesis => exact inductionHypothesis
  | case2 other _ => rfl

theorem isGrouping_withoutOuterGroups (expression : Expression) :
    expression.withoutOuterGroups.isGrouping = false := by
  fun_induction withoutOuterGroups expression with
  | case1 inner inductionHypothesis => exact inductionHypothesis
  | case2 other notGrouping => cases other <;> first | rfl | exact (notGrouping _ rfl).elim

/-- A tree without its parentheses is in none. -/
theorem withoutOuterGroups_ungrouped (expression : Expression) :
    expression.ungrouped.withoutOuterGroups = expression.ungrouped := by
  rw [← ungrouped_withoutOuterGroups]
  have notGrouping := expression.isGrouping_withoutOuterGroups
  cases inside : expression.withoutOuterGroups with
  | grouping inner =>
    rw [inside] at notGrouping
    cases notGrouping
  | _ => rfl

end Expression

end Reckon
