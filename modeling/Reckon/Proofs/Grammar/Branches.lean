/-
This file shows that a conditional that was read from a text always has a
result: the grammar asks for an `else`. It is so for every conditional in an
expression, however deep, and for the body of a function that is defined by a
text.
-/

import Reckon.Proofs.Expression.Occurrence
import Reckon.Proofs.Function.Definitions
import Reckon.Proofs.Grammar.Texts

namespace Reckon

namespace Expression

/-- Whether every conditional in an expression gives a result when no branch applies. -/
def AlwaysMatches (expression : Expression) : Prop :=
  ∀ branches, ¬(Expression.conditional branches none).Within expression

theorem AlwaysMatches.of_within {part whole : Expression} (always : whole.AlwaysMatches)
    (within : part.Within whole) : part.AlwaysMatches :=
  fun branches inside => always branches (inside.trans within)

theorem alwaysMatches_unary {operand : Expression} (operator : UnaryOperator)
    (always : operand.AlwaysMatches) : (Expression.unary operator operand).AlwaysMatches := by
  intro branches within
  cases within with
  | operand _ within => exact always branches within

theorem alwaysMatches_binary {left right : Expression} (operator : BinaryOperator)
    (leftAlways : left.AlwaysMatches) (rightAlways : right.AlwaysMatches) :
    (Expression.binary operator left right).AlwaysMatches := by
  intro branches within
  cases within with
  | left _ _ within => exact leftAlways branches within
  | right _ _ within => exact rightAlways branches within

theorem alwaysMatches_ternary {condition whenTrue whenFalse : Expression}
    (conditionAlways : condition.AlwaysMatches) (trueAlways : whenTrue.AlwaysMatches)
    (falseAlways : whenFalse.AlwaysMatches) :
    (Expression.ternary condition whenTrue whenFalse).AlwaysMatches := by
  intro branches within
  cases within with
  | condition _ _ within => exact conditionAlways branches within
  | whenTrue _ _ within => exact trueAlways branches within
  | whenFalse _ _ within => exact falseAlways branches within

theorem alwaysMatches_binding {value body : Expression} (name : String) (uses : UseLimit)
    (valueAlways : value.AlwaysMatches) (bodyAlways : body.AlwaysMatches) :
    (Expression.binding name value uses body).AlwaysMatches := by
  intro branches within
  cases within with
  | value _ _ _ within => exact valueAlways branches within
  | body _ _ _ within => exact bodyAlways branches within

/-- A conditional with an `else` gives a result when no branch applies. -/
theorem alwaysMatches_conditional {branches : List (Expression × Expression)}
    {otherwise : Expression}
    (branchesAlways : ∀ branch ∈ branches, branch.1.AlwaysMatches ∧ branch.2.AlwaysMatches)
    (otherwiseAlways : otherwise.AlwaysMatches) :
    (Expression.conditional branches (some otherwise)).AlwaysMatches := by
  intro inner within
  cases within with
  | branchCondition _ member within => exact (branchesAlways _ member).1 inner within
  | branchResult _ member within => exact (branchesAlways _ member).2 inner within
  | otherwise _ within => exact otherwiseAlways inner within

theorem alwaysMatches_call {arguments : List Expression} (function : String)
    (hint : Option String) (always : ∀ argument ∈ arguments, argument.AlwaysMatches) :
    (Expression.call function hint arguments).AlwaysMatches := by
  intro branches within
  cases within with
  | argument _ _ member within => exact always _ member branches within

theorem alwaysMatches_cast {inner : Expression} (typeName : String)
    (always : inner.AlwaysMatches) : (Expression.cast typeName inner).AlwaysMatches := by
  intro branches within
  cases within with
  | inner _ within => exact always branches within

theorem alwaysMatches_grouping {inner : Expression} (always : inner.AlwaysMatches) :
    (Expression.grouping inner).AlwaysMatches := by
  intro branches within
  cases within with
  | grouped within => exact always branches within

end Expression

namespace Grammar

open Expression

/-- Whether every conditional in a part of an expression gives a result when no branch
applies. -/
def Phrase.AlwaysMatches : Phrase → Prop
  | .expression tree | .operands _ tree | .power tree | .unary tree | .primary tree =>
    tree.AlwaysMatches
  | .arguments trees => ∀ tree ∈ trees, tree.AlwaysMatches
  | .further branches => ∀ branch ∈ branches, branch.1.AlwaysMatches ∧ branch.2.AlwaysMatches

theorem Rule.alwaysMatches_operand {rule : Rule} {tree : Expression}
    (always : (rule.operand tree).AlwaysMatches) : tree.AlwaysMatches := by
  cases rule <;> exact always

/-- No part of an expression is spelled with a conditional that may be left without a result. -/
theorem Spells.alwaysMatches {levels : Nat} {phrase : Phrase} {input rest : List TokenKind}
    (spelled : Spells levels phrase input rest) : phrase.AlwaysMatches := by
  induction spelled with
  | binding _ _ _ value body => exact alwaysMatches_binding _ _ value body
  | conditional _ _ _ _ condition result further otherwise =>
    exact alwaysMatches_conditional (List.forall_mem_cons.mpr ⟨⟨condition, result⟩, further⟩)
      otherwise
  | ternary _ _ _ condition whenTrue whenFalse =>
    exact alwaysMatches_ternary condition whenTrue whenFalse
  | further _ _ _ condition result further =>
    exact List.forall_mem_cons.mpr ⟨⟨condition, result⟩, further⟩
  | operand _ _ operand => exact Rule.alwaysMatches_operand operand
  | join _ _ _ left right => exact alwaysMatches_binary _ left (Rule.alwaysMatches_operand right)
  | raise _ _ base exponent => exact alwaysMatches_binary _ base exponent
  | negate _ operand | not _ operand => exact alwaysMatches_unary _ operand
  | alone _ always | base _ always | primary _ always => exact always
  | grouping _ inner => exact alwaysMatches_grouping inner
  | cast _ inner => exact alwaysMatches_cast _ inner
  | emptyCall => exact alwaysMatches_call _ _ nofun
  | call _ _ arguments => exact alwaysMatches_call _ _ arguments
  | lastArgument _ argument => exact List.forall_mem_singleton.mpr argument
  | arguments _ _ argument arguments => exact List.forall_mem_cons.mpr ⟨argument, arguments⟩
  | noFurther => exact nofun
  | integer | float | text | boolean | null | «variable» =>
    intro branches within
    cases within

end Grammar

/-- An expression that was read from a text has no conditional without an `else`. -/
theorem Expression.alwaysMatches_of_parse {source : String} {tree : Expression}
    (parsed : Expression.parse source = .ok tree) : tree.AlwaysMatches := by
  obtain ⟨kinds, -, -, derived⟩ := Grammar.exists_scans_of_parse parsed
  exact derived.alwaysMatches

/-- Nor has the body of a function that was read from its definition. -/
theorem FunctionDefinition.alwaysMatches_of_parse {text : String}
    {definition : FunctionDefinition} (parsed : FunctionDefinition.parse text = .ok definition) :
    definition.body.AlwaysMatches := by
  obtain ⟨-, -, -, spelled⟩ := FunctionDefinition.writes_of_parse_eq_ok parsed
  exact Expression.alwaysMatches_of_parse spelled

end Reckon
