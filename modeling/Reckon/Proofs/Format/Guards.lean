/-
This file puts the parentheses into a tree that are written around its parts
when it is written as text. A tree is written like the tree with them put in,
and that tree needs no more; taking the parentheses out of either leaves the
same.
-/

import Reckon.Proofs.Expression.Grouping
import Reckon.Proofs.Format.Reprint

namespace Reckon

namespace Expression

/-! ### Trees with the parentheses they are written with -/

/-- A tree in parentheses, if it needs them. -/
def enclosed (needed : Bool) (tree : Expression) : Expression :=
  if needed then .grouping tree else tree

mutual

/-- A tree with the parentheses that are written around its parts. -/
def guarded : Expression → Expression
  | .integer number => .integer number
  | .float number => .float number
  | .text content => .text content
  | .boolean truth => .boolean truth
  | .null => .null
  | .variable name => .variable name
  | .binary operator left right =>
    .binary operator (enclosed (left.needsParentheses operator false) (guarded left))
      (enclosed (right.needsParentheses operator true) (guarded right))
  | .unary operator operand =>
    .unary operator (enclosed operand.needsUnaryParentheses (guarded operand))
  | .ternary condition whenTrue whenFalse =>
    .ternary (enclosed condition.isOpenEnded (guarded condition)) (guarded whenTrue)
      (guarded whenFalse)
  | .binding name value uses body =>
    .binding name (enclosed value.isOpenEnded (guarded value)) uses (guarded body)
  | .conditional branches otherwise =>
    .conditional (guardedBranches branches) (guardedOptional otherwise)
  | .call function hint arguments => .call function hint (guardedAll arguments)
  | .cast typeName inner => .cast typeName (guarded inner)
  | .grouping inner => .grouping (guarded inner)

/-- Trees with the parentheses that are written around their parts. -/
def guardedAll : List Expression → List Expression
  | [] => []
  | first :: rest => guarded first :: guardedAll rest

/-- Branches with the parentheses that are written around their parts. -/
def guardedBranches : List (Expression × Expression) → List (Expression × Expression)
  | [] => []
  | (condition, result) :: rest =>
    (enclosed condition.isOpenEnded (guarded condition), guarded result) :: guardedBranches rest

/-- An optional tree with the parentheses that are written around its parts. -/
def guardedOptional : Option Expression → Option Expression
  | none => none
  | some tree => some (guarded tree)

end

/-! ### No further parentheses are needed -/

theorem isOpenEnded_guarded (tree : Expression) : tree.guarded.isOpenEnded = tree.isOpenEnded := by
  cases tree <;> rfl

theorem outerOperator?_guarded (tree : Expression) :
    tree.guarded.outerOperator? = tree.outerOperator? := by
  cases tree <;> rfl

/-- An operand that is enclosed where it needs to be needs no more. -/
theorem needsParentheses_enclosed (tree : Expression) (operator : BinaryOperator)
    (onRight : Bool) :
    (enclosed (tree.needsParentheses operator onRight) tree.guarded).needsParentheses operator
      onRight = false := by
  cases needed : tree.needsParentheses operator onRight with
  | true => rfl
  | false =>
    show tree.guarded.needsParentheses operator onRight = false
    unfold needsParentheses at needed ⊢
    rw [isOpenEnded_guarded, outerOperator?_guarded]
    exact needed

theorem needsUnaryParentheses_enclosed (tree : Expression) :
    (enclosed tree.needsUnaryParentheses tree.guarded).needsUnaryParentheses = false := by
  cases needed : tree.needsUnaryParentheses with
  | true => rfl
  | false =>
    show tree.guarded.needsUnaryParentheses = false
    unfold needsUnaryParentheses at needed ⊢
    rw [isOpenEnded_guarded, outerOperator?_guarded]
    exact needed

theorem isOpenEnded_enclosed (tree : Expression) :
    (enclosed tree.isOpenEnded tree.guarded).isOpenEnded = false := by
  cases needed : tree.isOpenEnded with
  | true => rfl
  | false => exact tree.isOpenEnded_guarded.trans needed

/-- No parentheses make a variable of another tree. -/
theorem eq_variable_of_enclosed {needed : Bool} {tree : Expression} {name : String}
    (same : enclosed needed tree.guarded = .variable name) : tree = .variable name := by
  cases needed with
  | true => cases same
  | false =>
    cases tree with
    | «variable» => exact same
    | _ => cases same

/-! ### What is written and what is left are the same -/

theorem pieces_enclosed (layout : Layout) (level : Nat) (needed : Bool) (tree : Expression) :
    (enclosed needed tree).pieces layout level =
      parenthesised needed (tree.pieces layout level) := by
  cases needed with
  | true =>
    show pieces layout level (.grouping tree) = _
    rw [pieces]
    rfl
  | false => rfl

theorem branchPieces_guarded (layout : Layout) {branches : List (Expression × Expression)}
    (same : ∀ branch ∈ branches,
      (∀ level, branch.1.guarded.pieces layout level = branch.1.pieces layout level) ∧
        ∀ level, branch.2.guarded.pieces layout level = branch.2.pieces layout level)
    (level : Nat) (isFirst : Bool) :
    branchPieces layout level isFirst (guardedBranches branches) =
      branchPieces layout level isFirst branches := by
  induction branches generalizing isFirst with
  | nil => rw [guardedBranches]
  | cons branch rest inductionHypothesis =>
    obtain ⟨⟨condition, result⟩, later⟩ := List.forall_mem_cons.mp same
    rw [guardedBranches, branchPieces, branchPieces, isOpenEnded_enclosed, pieces_enclosed,
      condition, result, inductionHypothesis later]
    rfl

theorem argumentPieces_guarded (layout : Layout) {arguments : List Expression}
    (same : ∀ argument ∈ arguments, ∀ level,
      argument.guarded.pieces layout level = argument.pieces layout level)
    (level : Nat) (isFirst : Bool) :
    argumentPieces layout level isFirst (guardedAll arguments) =
      argumentPieces layout level isFirst arguments := by
  induction arguments generalizing isFirst with
  | nil => rw [guardedAll]
  | cons argument rest inductionHypothesis =>
    obtain ⟨first, later⟩ := List.forall_mem_cons.mp same
    rw [guardedAll, argumentPieces, argumentPieces, first, inductionHypothesis later]

/-- A tree is written like the tree with its parentheses put in. -/
theorem pieces_guarded (layout : Layout) (tree : Expression) :
    ∀ level, tree.guarded.pieces layout level = tree.pieces layout level := by
  induction tree using parts_induction with
  | integer | float | text | boolean | null | «variable» => exact fun _ => rfl
  | binary operator left right leftSame rightSame =>
    intro level
    rw [guarded, pieces, pieces, needsParentheses_enclosed, needsParentheses_enclosed,
      pieces_enclosed, pieces_enclosed, leftSame, rightSame]
    rfl
  | unary operator operand same =>
    intro level
    rw [guarded, pieces, pieces, needsUnaryParentheses_enclosed, pieces_enclosed, same]
    rfl
  | ternary condition whenTrue whenFalse conditionSame trueSame falseSame =>
    intro level
    rw [guarded, pieces, pieces, isOpenEnded_enclosed, pieces_enclosed, conditionSame, trueSame,
      falseSame]
    rfl
  | binding name value uses body valueSame bodySame =>
    intro level
    rw [guarded, pieces, pieces, isOpenEnded_enclosed, pieces_enclosed, valueSame, bodySame]
    rfl
  | conditional branches otherwise branchesSame otherwiseSame =>
    intro level
    rw [guarded, pieces, pieces, branchPieces_guarded layout branchesSame]
    cases otherwise with
    | none => rw [guardedOptional]
    | some result =>
      rw [guardedOptional, otherwisePieces, otherwisePieces, otherwiseSame result rfl]
  | call function hint arguments argumentsSame =>
    intro level
    rw [guarded]
    unfold pieces
    rw [argumentPieces_guarded layout argumentsSame]
  | cast typeName inner same | grouping inner same =>
    intro level
    rw [guarded, pieces, pieces, same]

theorem render_guarded (layout : Layout) (tree : Expression) :
    tree.guarded.render layout = tree.render layout := by
  unfold render
  rw [pieces_guarded]

theorem ungrouped_enclosed (needed : Bool) (tree : Expression) :
    (enclosed needed tree).ungrouped = tree.ungrouped := by
  cases needed with
  | true =>
    show ungrouped (.grouping tree) = _
    rw [ungrouped]
  | false => rfl

/-- The parentheses that were put in are taken out again. -/
theorem ungrouped_guarded (tree : Expression) : tree.guarded.ungrouped = tree.ungrouped := by
  induction tree using parts_induction with
  | integer | float | text | boolean | null | «variable» => rfl
  | binary operator left right leftSame rightSame =>
    rw [guarded, ungrouped, ungrouped, ungrouped_enclosed, ungrouped_enclosed, leftSame, rightSame]
  | unary operator operand same =>
    rw [guarded, ungrouped, ungrouped, ungrouped_enclosed, same]
  | ternary condition whenTrue whenFalse conditionSame trueSame falseSame =>
    rw [guarded, ungrouped, ungrouped, ungrouped_enclosed, conditionSame, trueSame, falseSame]
  | binding name value uses body valueSame bodySame =>
    rw [guarded, ungrouped, ungrouped, ungrouped_enclosed, valueSame, bodySame]
  | conditional branches otherwise branchesSame otherwiseSame =>
    have branchesSame : ungroupedBranches (guardedBranches branches) =
        ungroupedBranches branches := by
      induction branches with
      | nil => rw [guardedBranches]
      | cons branch rest inductionHypothesis =>
        obtain ⟨⟨condition, result⟩, later⟩ := List.forall_mem_cons.mp branchesSame
        rw [guardedBranches, ungroupedBranches, ungroupedBranches, ungrouped_enclosed, condition,
          result, inductionHypothesis later]
    rw [guarded, ungrouped, ungrouped, branchesSame]
    cases otherwise with
    | none => rw [guardedOptional]
    | some result =>
      rw [guardedOptional, ungroupedOptional, ungroupedOptional, otherwiseSame result rfl]
  | call function hint arguments argumentsSame =>
    have argumentsSame : ungroupedAll (guardedAll arguments) = ungroupedAll arguments := by
      induction arguments with
      | nil => rw [guardedAll]
      | cons argument rest inductionHypothesis =>
        obtain ⟨first, later⟩ := List.forall_mem_cons.mp argumentsSame
        rw [guardedAll, ungroupedAll, ungroupedAll, first, inductionHypothesis later]
    rw [guarded, ungrouped, ungrouped, argumentsSame]
  | cast typeName inner same | grouping inner same => rw [guarded, ungrouped, ungrouped, same]

/-! ### The numbers of a tree -/

theorem floats_enclosed (needed : Bool) (tree : Expression) :
    (enclosed needed tree).floats = tree.floats := by
  cases needed with
  | true =>
    show floats (.grouping tree) = _
    rw [floats]
  | false => rfl

theorem mem_branchFloats_guarded {number : Binary64} {branches : List (Expression × Expression)}
    (member : number ∈ branchFloats (guardedBranches branches)) :
    ∃ branch ∈ branches,
      number ∈ branch.1.guarded.floats ∨ number ∈ branch.2.guarded.floats := by
  induction branches with
  | nil =>
    rw [guardedBranches] at member
    cases member
  | cons branch rest inductionHypothesis =>
    rw [guardedBranches, branchFloats, floats_enclosed] at member
    rcases List.mem_append.mp member with member | member
    · exact ⟨branch, List.mem_cons_self, List.mem_append.mp member⟩
    · obtain ⟨other, inRest, member⟩ := inductionHypothesis member
      exact ⟨other, List.mem_cons_of_mem branch inRest, member⟩

theorem mem_argumentFloats_guarded {number : Binary64} {arguments : List Expression}
    (member : number ∈ argumentFloats (guardedAll arguments)) :
    ∃ argument ∈ arguments, number ∈ argument.guarded.floats := by
  induction arguments with
  | nil =>
    rw [guardedAll] at member
    cases member
  | cons argument rest inductionHypothesis =>
    rw [guardedAll, argumentFloats] at member
    rcases List.mem_append.mp member with member | member
    · exact ⟨argument, List.mem_cons_self, member⟩
    · obtain ⟨other, inRest, member⟩ := inductionHypothesis member
      exact ⟨other, List.mem_cons_of_mem argument inRest, member⟩

/-- The literals with a point in a tree with its parentheses put in occur in the tree itself. -/
theorem within_of_mem_floats (number : Binary64) (tree : Expression) :
    number ∈ tree.guarded.floats → (Expression.float number).Within tree := by
  induction tree using parts_induction with
  | integer | text | boolean | null | «variable» =>
    exact fun member => absurd member List.not_mem_nil
  | float number' =>
    intro member
    obtain rfl := List.mem_singleton.mp member
    exact .itself
  | binary operator left right leftWithin rightWithin =>
    intro member
    rw [guarded, floats, floats_enclosed, floats_enclosed] at member
    rcases List.mem_append.mp member with member | member
    · exact .left operator right (leftWithin member)
    · exact .right operator left (rightWithin member)
  | unary operator operand within =>
    intro member
    rw [guarded, floats, floats_enclosed] at member
    exact .operand operator (within member)
  | ternary condition whenTrue whenFalse conditionWithin trueWithin falseWithin =>
    intro member
    rw [guarded, floats, floats_enclosed] at member
    rcases List.mem_append.mp member with member | member
    · rcases List.mem_append.mp member with member | member
      · exact .condition whenTrue whenFalse (conditionWithin member)
      · exact .whenTrue condition whenFalse (trueWithin member)
    · exact .whenFalse condition whenTrue (falseWithin member)
  | binding name value uses body valueWithin bodyWithin =>
    intro member
    rw [guarded, floats, floats_enclosed] at member
    rcases List.mem_append.mp member with member | member
    · exact .value name uses body (valueWithin member)
    · exact .body name value uses (bodyWithin member)
  | conditional branches otherwise branchesWithin otherwiseWithin =>
    intro member
    rw [guarded, floats] at member
    rcases List.mem_append.mp member with member | member
    · obtain ⟨⟨condition, result⟩, inBranches, member⟩ := mem_branchFloats_guarded member
      obtain ⟨conditionWithin, resultWithin⟩ := branchesWithin _ inBranches
      rcases member with member | member
      · exact .branchCondition otherwise inBranches (conditionWithin member)
      · exact .branchResult otherwise inBranches (resultWithin member)
    · cases otherwise with
      | none =>
        rw [guardedOptional] at member
        cases member
      | some result =>
        rw [guardedOptional] at member
        exact .otherwise branches (otherwiseWithin result rfl member)
  | call function hint arguments argumentsWithin =>
    intro member
    rw [guarded, floats] at member
    obtain ⟨argument, inArguments, member⟩ := mem_argumentFloats_guarded member
    exact .argument function hint inArguments (argumentsWithin argument inArguments member)
  | cast typeName inner within =>
    intro member
    rw [guarded, floats] at member
    exact .inner typeName (within member)
  | grouping inner within =>
    intro member
    rw [guarded, floats] at member
    exact .grouped (within member)

end Expression

end Reckon
