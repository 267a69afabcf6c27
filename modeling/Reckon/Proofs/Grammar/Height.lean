/-
This file says what the limit on nesting does to the height of trees. The
operators that group from the left do not nest, and of all other nodes there
are no more than three on a path for each level of nesting: a choice, a power
and what opens the next level. So the operators that group from the left are
what a tree can grow high by, and they do let it grow beyond any bound.
-/

import Reckon.Proofs.Expression.Height
import Reckon.Proofs.Grammar.Texts

namespace Reckon

namespace Expression

/-- Whether a node is an operator that groups from the left. -/
def isJoin : Expression → Bool
  | .binary operator _ _ => operator != .power
  | _ => false

/-- The greatest number of operators that group from the left on one path in a tree. -/
def joins (tree : Expression) : Nat :=
  tree.mostOnPath isJoin

/-- The greatest number of other nodes on one path in a tree. -/
def nested (tree : Expression) : Nat :=
  tree.mostOnPath fun part => !part.isJoin

theorem height_le_joins_add_nested (tree : Expression) :
    tree.height ≤ tree.joins + tree.nested :=
  tree.height_le_add isJoin

variable {tree : Expression} {bound : Nat}

/-- One node more stands on a path than in the parts below it. -/
theorem nested_le_succ (each : ∀ part ∈ tree.parts, part.nested ≤ bound) :
    tree.nested ≤ bound + 1 := by
  have node := Bool.toNat_le (!tree.isJoin)
  have below : tree.nested ≤ _ := mostOnPath_le each
  omega

/-- An operator that groups from the left is no such node. -/
theorem nested_le_of_isJoin (isJoin : tree.isJoin = true)
    (each : ∀ part ∈ tree.parts, part.nested ≤ bound) : tree.nested ≤ bound := by
  have below : tree.nested ≤ _ := mostOnPath_le each
  rw [isJoin] at below
  simpa using below

end Expression

namespace Grammar

/-! ### Nodes that nest -/

/-- The trees of a part of an expression. -/
def Phrase.trees : Phrase → List Expression
  | .expression tree | .operands _ tree | .power tree | .unary tree | .primary tree => [tree]
  | .arguments trees => trees
  | .further branches => branches.flatMap fun branch => [branch.1, branch.2]

/-- How many nodes, other than operators that group from the left, stand on a path at most in a
part of an expression with so many levels of nesting in it. -/
def Phrase.allowance (levels : Nat) : Phrase → Nat
  | .expression _ | .arguments _ => 3 * levels
  | .unary _ | .primary _ => 3 * levels + 1
  | .operands _ _ | .power _ | .further _ => 3 * levels + 2

theorem Rule.trees_operand (rule : Rule) (tree : Expression) :
    (rule.operand tree).trees = [tree] := by
  cases rule <;> rfl

theorem Rule.allowance_operand (rule : Rule) (tree : Expression) (levels : Nat) :
    (rule.operand tree).allowance levels = 3 * levels + 2 := by
  cases rule <;> rfl

theorem Joins.isJoin {rule : Rule} {kind : TokenKind} {operator : BinaryOperator}
    (joins : Joins rule kind operator) (left right : Expression) :
    (Expression.binary operator left right).isJoin = true := by
  cases joins <;> rfl

variable {levels : Nat} {phrase : Phrase} {input rest : List TokenKind}

/-- The trees of a part of an expression have no more nesting nodes on a path than this. -/
def Phrase.NestsWithin (phrase : Phrase) (bound : Nat) : Prop :=
  ∀ tree ∈ phrase.trees, tree.nested ≤ bound

theorem Phrase.NestsWithin.mono {bound greater : Nat} (within : phrase.NestsWithin bound)
    (le : bound ≤ greater) : phrase.NestsWithin greater :=
  fun tree member => (within tree member).trans le

variable {tree : Expression}

theorem nestsWithin_primary (each : ∀ part ∈ tree.parts, part.nested ≤ 3 * levels) :
    (Phrase.primary tree).NestsWithin (3 * levels + 1) :=
  List.forall_mem_singleton.mpr (Expression.nested_le_succ each)

/-- A choice, a binding or a conditional takes one of the three nodes of its level. -/
theorem nestsWithin_expression (each : ∀ part ∈ tree.parts, part.nested ≤ 3 * levels + 2) :
    (Phrase.expression tree).NestsWithin (3 * (levels + 1)) :=
  List.forall_mem_singleton.mpr (Expression.nested_le_succ each)

/-- Of the nodes that do not group from the left no path has more than the levels of nesting
allow. -/
theorem Spells.nestsWithin (spelled : Spells levels phrase input rest) :
    phrase.NestsWithin (phrase.allowance levels) := by
  have atMost : ∀ {count : Nat}, 3 * count ≤ 3 * count + 2 := Nat.le_add_right _ _
  induction spelled with
  | integer | float | text | boolean | null | «variable» | emptyCall =>
    exact nestsWithin_primary nofun
  | call _ _ arguments => exact nestsWithin_primary arguments
  | grouping _ inner | cast _ inner => exact nestsWithin_primary inner
  | primary _ operand | lastArgument _ operand => exact operand
  | base _ operand => exact operand.mono (Nat.le_succ _)
  | alone _ operand => exact operand.mono (Nat.le_succ _)
  | noFurther => exact fun tree member => absurd member List.not_mem_nil
  | arguments _ _ argument arguments =>
    exact List.forall_mem_cons.mpr ⟨argument _ List.mem_cons_self, arguments⟩
  | ternary _ _ _ condition whenTrue whenFalse =>
    refine nestsWithin_expression (List.forall_mem_cons.mpr ⟨condition _ List.mem_cons_self, ?_⟩)
    exact List.forall_mem_cons.mpr
      ⟨(whenTrue _ List.mem_cons_self).trans atMost, whenFalse.mono atMost⟩
  | binding _ _ _ value body =>
    exact nestsWithin_expression (List.forall_mem_cons.mpr
      ⟨value _ List.mem_cons_self, body.mono atMost⟩)
  | further _ _ _ condition result further =>
    refine List.forall_mem_cons.mpr ⟨condition _ List.mem_cons_self, ?_⟩
    exact List.forall_mem_cons.mpr ⟨(result _ List.mem_cons_self).trans atMost, further⟩
  | conditional _ _ _ _ condition result further otherwise =>
    refine nestsWithin_expression (List.forall_mem_append.mpr ⟨?_, otherwise.mono atMost⟩)
    refine List.forall_mem_cons.mpr ⟨condition _ List.mem_cons_self, ?_⟩
    exact List.forall_mem_cons.mpr ⟨(result _ List.mem_cons_self).trans atMost, further⟩
  | operand rule _ operand =>
    rwa [Phrase.NestsWithin, rule.trees_operand, rule.allowance_operand] at operand
  | @join levels rule _ _ _ right _ _ _ joins _ _ left operand =>
    rw [Phrase.NestsWithin, rule.trees_operand, rule.allowance_operand] at operand
    exact List.forall_mem_singleton.mpr (Expression.nested_le_of_isJoin (joins.isJoin _ _)
      (List.forall_mem_cons.mpr ⟨left _ List.mem_cons_self, operand⟩))
  | raise _ _ base exponent =>
    refine List.forall_mem_singleton.mpr (Expression.nested_le_succ ?_)
    refine List.forall_mem_cons.mpr ⟨base _ List.mem_cons_self, exponent.mono ?_⟩
    exact Nat.le_add_right (3 * _ + 2) 2
  | negate _ operand | not _ operand =>
    refine List.forall_mem_singleton.mpr
      (Nat.le_trans (Expression.nested_le_succ ?_) (Nat.le_add_right (3 * _ + 2) 2))
    exact operand

/-! ### Sums -/

/-- The text of a sum of ones with so many operators. -/
def sumText : Nat → String
  | 0 => "1"
  | count + 1 => sumText count ++ "+1"

/-- The tree of a sum of ones with so many operators. -/
def sumTree : Nat → Expression
  | 0 => .integer 1
  | count + 1 => .binary .add (sumTree count) (.integer 1)

/-- The tokens of a sum of ones with so many operators. -/
def sumKinds : Nat → List TokenKind
  | 0 => [.integer 1]
  | count + 1 => sumKinds count ++ [.plus, .integer 1]

theorem scans_sumText (count : Nat) : Scans (sumText count).toList (sumKinds count) := by
  have one : Scans ['1'] [.integer 1] := by
    have lexed : tokenize "1" = .ok ([⟨.integer 1, "1", 0⟩] ++ [.endAt 1]) := rfl
    exact scans_of_tokenize lexed
  have more : Scans ['+', '1'] [.plus, .integer 1] := one.symbol (by decide) fun _ => rfl
  induction count with
  | zero => exact one
  | succ count inductionHypothesis =>
    have apart : StandsApart ['+', '1'] := (rfl : endsToken '+' = true)
    have scans := inductionHypothesis.append apart more
    rw [sumText, String.toList_append]
    exact scans

/-- However many operators a sum has, it takes no level of nesting. -/
theorem spells_sumKinds (count : Nat) (rest : List TokenKind) :
    Spells levels (.operands .sum (sumTree count)) (sumKinds count ++ rest) rest := by
  have one (rest : List TokenKind) :
      Spells levels (.operands .product (.integer 1)) (.integer 1 :: rest) rest :=
    .operand .product (.base (.primary .integer))
  induction count generalizing rest with
  | zero => exact .operand .sum (one rest)
  | succ count inductionHypothesis =>
    have left := inductionHypothesis (.plus :: .integer 1 :: rest)
    rw [sumKinds, List.append_assoc]
    exact .join .plus left (one rest)

theorem parse_sumText (count : Nat) : Expression.parse (sumText count) = .ok (sumTree count) := by
  refine parse_of_scans (scans_sumText count) ?_
  have spelled := @spells_sumKinds (nestingLimit - 1) count []
  rw [List.append_nil] at spelled
  exact .alone (.operand .disjunction (.operand .conjunction (.operand .equality
    (.operand .comparison spelled))))

/-- All operators of a sum stand on one path, with one operand below them. -/
theorem joins_sumTree (count : Nat) : (sumTree count).joins = count := by
  induction count with
  | zero => exact Expression.mostOnPath_of_parts_eq_nil _ rfl
  | succ count inductionHypothesis =>
    have one : (Expression.integer 1).joins = 0 := Expression.mostOnPath_of_parts_eq_nil _ rfl
    rw [sumTree, Expression.joins, Expression.mostOnPath_binary]
    change 1 + max (sumTree count).joins (Expression.integer 1).joins = count + 1
    rw [inductionHypothesis, one]
    omega

theorem height_sumTree (count : Nat) : (sumTree count).height = count + 1 := by
  induction count with
  | zero => exact Expression.mostOnPath_of_parts_eq_nil _ rfl
  | succ count inductionHypothesis =>
    have one : (Expression.integer 1).height = 1 := Expression.mostOnPath_of_parts_eq_nil _ rfl
    rw [sumTree, Expression.height, Expression.mostOnPath_binary]
    change 1 + max (sumTree count).height (Expression.integer 1).height = count + 1 + 1
    rw [inductionHypothesis, one]
    omega

/-- Texts are read whose trees are beyond any height. -/
theorem exists_parse_higher (bound : Nat) :
    ∃ source tree, Expression.parse source = .ok tree ∧ bound < tree.height := by
  refine ⟨sumText bound, sumTree bound, parse_sumText bound, ?_⟩
  rw [height_sumTree]
  exact Nat.lt_succ_self bound

/-! ### Heights -/

/-- A tree that is read from a text is no higher than three nodes for each level of nesting and
the operators on a path that group from the left, and with at most thirteen of these for each
level no higher than sixteen nodes for each. -/
theorem height_le_of_parse {source : String} (parsed : Expression.parse source = .ok tree) :
    tree.height ≤ tree.joins + 3 * nestingLimit ∧
      (tree.joins ≤ 13 * nestingLimit → tree.height ≤ 16 * nestingLimit) := by
  obtain ⟨kinds, -, -, derived⟩ := exists_scans_of_parse parsed
  have nested : tree.nested ≤ 3 * nestingLimit := derived.nestsWithin tree List.mem_cons_self
  have height := tree.height_le_joins_add_nested
  exact ⟨by omega, fun few => by omega⟩

/-- A sum with as many operators as that. -/
theorem height_le_of_parse_sumText :
    Expression.parse (sumText (13 * nestingLimit)) = .ok (sumTree (13 * nestingLimit)) ∧
      (sumTree (13 * nestingLimit)).joins ≤ 13 * nestingLimit ∧
      (sumTree (13 * nestingLimit)).height ≤ 16 * nestingLimit := by
  have few := (joins_sumTree (13 * nestingLimit)).le
  exact ⟨parse_sumText _, few, (height_le_of_parse (parse_sumText _)).2 few⟩

/-- A sum of so many operands is read, and is higher than sixteen nodes for each level. -/
theorem height_sumText_gt :
    Expression.parse (sumText (16 * nestingLimit)) = .ok (sumTree (16 * nestingLimit)) ∧
      16 * nestingLimit < (sumTree (16 * nestingLimit)).height := by
  refine ⟨parse_sumText _, ?_⟩
  rw [height_sumTree]
  exact Nat.lt_succ_self _

end Grammar

end Reckon
