/-
This file describes the parts of an expression as they are written: their
pieces, and the literals with a point in them. No operand of an expression that
was read needs parentheses beyond those it has, since the grammar gives no
looser operand to an operator.
-/

import Reckon.Expression.Printer
import Reckon.Proofs.Grammar.Rules

namespace Reckon

/-! ### The numbers of an expression -/

namespace Expression

mutual

/-- The literals with a point in an expression. -/
def floats : Expression → List Binary64
  | .integer _ | .text _ | .boolean _ | .null | .variable _ => []
  | .float number => [number]
  | .binary _ left right => left.floats ++ right.floats
  | .unary _ operand => operand.floats
  | .ternary condition whenTrue whenFalse =>
    condition.floats ++ whenTrue.floats ++ whenFalse.floats
  | .binding _ value _ body => value.floats ++ body.floats
  | .conditional branches otherwise => branchFloats branches ++ otherwiseFloats otherwise
  | .call _ _ arguments => argumentFloats arguments
  | .cast _ inner => inner.floats
  | .grouping inner => inner.floats

/-- The literals with a point in the branches of a conditional. -/
def branchFloats : List (Expression × Expression) → List Binary64
  | [] => []
  | (condition, result) :: rest => condition.floats ++ result.floats ++ branchFloats rest

/-- The literals with a point in the result of a conditional without a branch. -/
def otherwiseFloats : Option Expression → List Binary64
  | none => []
  | some result => result.floats

/-- The literals with a point in the arguments of a call. -/
def argumentFloats : List Expression → List Binary64
  | [] => []
  | argument :: rest => argument.floats ++ argumentFloats rest

end

end Expression

namespace Grammar

namespace Phrase

/-- The literals with a point in a part of an expression. -/
def floats : Phrase → List Binary64
  | .expression tree | .operands _ tree | .power tree | .unary tree | .primary tree => tree.floats
  | .arguments trees => Expression.argumentFloats trees
  | .further branches => Expression.branchFloats branches

/-- A part of an expression as words and gaps. -/
def pieces (layout : Layout) (level : Nat) : Phrase → List Piece
  | .expression tree | .operands _ tree | .power tree | .unary tree | .primary tree =>
    tree.pieces layout level
  | .arguments trees => Expression.argumentPieces layout level true trees
  | .further branches => Expression.branchPieces layout level false branches

end Phrase

theorem Rule.floats_operand (rule : Rule) (tree : Expression) :
    (rule.operand tree).floats = tree.floats := by
  cases rule <;> rfl

theorem Rule.pieces_operand (rule : Rule) (tree : Expression) (layout : Layout) (level : Nat) :
    (rule.operand tree).pieces layout level = tree.pieces layout level := by
  cases rule <;> rfl

/-! ### Operands need no parentheses -/

/-- A tree does not reach as far right as it can, and its operator, if it has one, has at least
a strength. -/
structure Tight (bound : Nat) (tree : Expression) : Prop where
  closed : tree.isOpenEnded = false
  operator : ∀ operator, tree.outerOperator? = some operator → bound ≤ operator.precedence + 1

theorem Tight.mono {bound greater : Nat} {tree : Expression} (tight : Tight greater tree)
    (le : bound ≤ greater) : Tight bound tree :=
  ⟨tight.closed, fun operator outer => Nat.le_trans le (tight.operator operator outer)⟩

/-- What a part of an expression that is an operand can be. -/
def Phrase.IsTight : Phrase → Prop
  | .operands rule tree => Tight rule.strength tree
  | .power tree => Tight 8 tree
  | .unary tree | .primary tree => Tight 9 tree
  | _ => True

theorem Joins.precedence_eq {rule : Rule} {kind : TokenKind} {operator : BinaryOperator}
    (joins : Joins rule kind operator) :
    operator.precedence + 1 = rule.strength ∧ operator.isRightAssociative = false := by
  cases joins <;> exact ⟨rfl, rfl⟩

theorem Rule.tight_operand {rule : Rule} {tree : Expression}
    (tight : (rule.operand tree).IsTight) : Tight (rule.strength + 1) tree := by
  cases rule <;> exact tight

theorem Spells.isTight {levels : Nat} {phrase : Phrase} {input rest : List TokenKind}
    (spelled : Spells levels phrase input rest) : phrase.IsTight := by
  induction spelled with
  | binding | conditional | ternary | alone | noFurther | further | lastArgument | arguments =>
    trivial
  | operand rule _ inductionHypothesis =>
    exact (Rule.tight_operand inductionHypothesis).mono (Nat.le_succ _)
  | join joins =>
    refine ⟨rfl, fun operator outer => ?_⟩
    cases outer
    exact Nat.le_of_eq joins.precedence_eq.1.symm
  | base _ inductionHypothesis => exact inductionHypothesis.mono (by decide)
  | raise =>
    refine ⟨rfl, fun operator outer => ?_⟩
    cases outer
    exact Nat.le_refl 8
  | negate | not | integer | float | text | boolean | null | grouping | cast | «variable»
  | emptyCall | call => exact ⟨rfl, nofun⟩
  | primary _ inductionHypothesis => exact inductionHypothesis

/-- An operand needs no parentheses if its operator is no looser, and not of the same strength on
the side that the operator does not group from. -/
theorem Tight.needsParentheses {bound : Nat} {tree : Expression} {operator : BinaryOperator}
    {onRight : Bool} (tight : Tight bound tree) (tighter : operator.precedence + 1 ≤ bound)
    (side : onRight = operator.isRightAssociative ∨ operator.precedence + 2 ≤ bound) :
    tree.needsParentheses operator onRight = false := by
  unfold Expression.needsParentheses
  rw [tight.closed, Bool.false_or]
  cases outer : tree.outerOperator? with
  | none => rfl
  | some inner =>
    have least := tight.operator inner outer
    dsimp only
    rw [decide_eq_false (by omega), Bool.false_or]
    rcases side with same | apart
    · rw [same, bne_self_eq_false, Bool.and_false]
    · rw [beq_false_of_ne (by omega), Bool.false_and]

theorem Tight.outerOperator?_eq_none {tree : Expression} (tight : Tight 9 tree) :
    tree.outerOperator? = none := by
  cases outer : tree.outerOperator? with
  | none => rfl
  | some inner =>
    have bound := tight.operator inner outer
    cases inner <;> exact absurd bound (by decide)

end Grammar

end Reckon
