/-
This file compares two readings of the grammar once and for all. The rules are
put together from a few steps: to look at the next token, to take it, to count
the tokens, to find a fault, and to go on after another part. Nothing else
reads the stream, and no rule asks for more of a token than its kind and its
characters. So a relation between parsers that is kept by these steps, and
that holds of the parts that nest, holds of every rule.
-/

import Reckon.Expression.Parser

namespace Reckon

/-- A problem that is found in tokens, rather than in the characters they are made of. -/
def SyntaxProblem.IsGrammatical (problem : SyntaxProblem) : Prop :=
  ∀ cause, problem ≠ .lexical cause

namespace Parser

/-! ### Relations that the steps keep -/

/-- A relation between parsers that each of their steps keeps. -/
structure IsCongruence (related : ∀ {Result : Type}, Parser Result → Parser Result → Prop) :
    Prop where
  pure {Result : Type} (result : Result) :
    related (Pure.pure result : Parser Result) (Pure.pure result)
  bind {Result Final : Type} {parser parser' : Parser Result}
    {following following' : Result → Parser Final} : related parser parser' →
      (∀ result, related (following result) (following' result)) →
      related (parser >>= following) (parser' >>= following')
  next {Final : Type} {following following' : Token → Parser Final} :
    (∀ token token', token.kind = token'.kind → token.lexeme = token'.lexeme →
      related (following token) (following' token')) →
      related (next >>= following) (next >>= following')
  tokensLeft : related tokensLeft tokensLeft
  advance : related advance advance
  acceptHint : related acceptHint acceptHint
  fail {Result : Type} {problem : SyntaxProblem} : problem.IsGrammatical →
    related (fail problem : Parser Result) (fail problem)

/-- The parsers of the nesting parts are related. -/
structure Nested.Related (related : ∀ {Result : Type}, Parser Result → Parser Result → Prop)
    (nested nested' : Nested) : Prop where
  expression : related nested.expression nested'.expression
  power : related nested.power nested'.power
  unary : related nested.unary nested'.unary

namespace IsCongruence

variable {related : ∀ {Result : Type}, Parser Result → Parser Result → Prop}
  {problem : SyntaxProblem} {nested nested' : Nested}
  (congruence : IsCongruence related)

include congruence

/-! ### Single tokens -/

/-- A parser that does more and then ends with a result. -/
theorem returning {Result Final : Type} {parser parser' : Parser Result}
    (first : related parser parser') (result : Result → Final) :
    related (parser >>= fun value => Pure.pure (result value))
      (parser' >>= fun value => Pure.pure (result value)) :=
  congruence.bind first fun _ => congruence.pure _

theorem accept (kind : TokenKind) : related (accept kind) (accept kind) := by
  refine congruence.next fun token token' sameKind _ => ?_
  rw [sameKind]
  split
  · exact congruence.returning congruence.advance _
  · exact congruence.pure false

theorem expect (kind : TokenKind) (grammatical : problem.IsGrammatical) :
    related (expect kind problem) (expect kind problem) := by
  refine congruence.next fun token token' sameKind _ => ?_
  rw [sameKind]
  split
  · exact congruence.advance
  · exact congruence.fail grammatical

theorem expectName (grammatical : problem.IsGrammatical) :
    related (expectName problem) (expectName problem) := by
  refine congruence.next fun token token' sameKind _ => ?_
  rw [sameKind]
  cases token'.kind with
  | name name => exact congruence.returning congruence.advance _
  | _ => exact congruence.fail grammatical

theorem useLimit : related useLimit useLimit := by
  refine congruence.bind (congruence.accept .asWord) fun limited => ?_
  cases limited with
  | false => exact congruence.pure _
  | true =>
    refine congruence.bind (congruence.accept .minus) fun negative => ?_
    refine congruence.next fun token token' sameKind _ => ?_
    rw [sameKind]
    cases token'.kind with
    | integer number =>
      dsimp only
      split
      · exact congruence.returning congruence.advance _
      · exact congruence.fail nofun
    | _ => exact congruence.fail nofun

/-! ### Chains of operators -/

theorem chainFrom {operator? : TokenKind → Option BinaryOperator}
    {operand operand' : Parser Expression} (operands : related operand operand')
    (steps : Nat) (left : Expression) :
    related (chainFrom operator? operand steps left) (chainFrom operator? operand' steps left) := by
  induction steps generalizing left with
  | zero => exact congruence.pure left
  | succ steps inductionHypothesis =>
    refine congruence.next fun token token' sameKind _ => ?_
    rw [sameKind]
    cases operator? token'.kind with
    | none => exact congruence.pure left
    | some operator =>
      exact congruence.bind congruence.advance fun _ =>
        congruence.bind operands fun right => inductionHypothesis _

theorem chain {operator? : TokenKind → Option BinaryOperator}
    {operand operand' : Parser Expression} (operands : related operand operand') :
    related (chain operator? operand) (chain operator? operand') :=
  congruence.bind operands fun left => congruence.bind congruence.tokensLeft fun steps =>
    congruence.chainFrom operands steps left

/-! ### The rules of the grammar -/

variable (parts : nested.Related related nested')

include parts

theorem argumentsFrom (steps : Nat) :
    related (argumentsFrom nested steps) (argumentsFrom nested' steps) := by
  induction steps with
  | zero => exact congruence.pure []
  | succ steps inductionHypothesis =>
    refine congruence.bind parts.expression fun argument => ?_
    refine congruence.bind (congruence.accept .comma) fun more => ?_
    cases more with
    | false => exact congruence.pure [argument]
    | true => exact congruence.returning inductionHypothesis _

theorem callArguments : related (callArguments nested) (callArguments nested') := by
  refine congruence.bind (congruence.accept .rightParen) fun closed => ?_
  cases closed with
  | true => exact congruence.pure []
  | false =>
    refine congruence.bind congruence.tokensLeft fun steps => ?_
    refine congruence.bind (congruence.argumentsFrom parts (steps + 1)) fun arguments => ?_
    exact congruence.bind (congruence.expect .rightParen nofun) fun _ => congruence.pure _

theorem afterName (name : String) : related (afterName nested name) (afterName nested' name) := by
  have called := congruence.callArguments parts
  refine congruence.bind (congruence.accept .leftParen) fun opened => ?_
  cases opened with
  | true => exact congruence.returning called _
  | false =>
    refine congruence.bind congruence.acceptHint fun hint => ?_
    cases hint with
    | none => exact congruence.pure _
    | some hint => exact congruence.returning called _

theorem afterOut : related (afterOut nested) (afterOut nested') := by
  refine congruence.bind (congruence.expect .less nofun) fun _ => ?_
  refine congruence.bind (congruence.expectName nofun) fun typeName => ?_
  refine congruence.bind (congruence.expect .greater nofun) fun _ => ?_
  refine congruence.bind (congruence.expect .leftParen nofun) fun _ => ?_
  refine congruence.bind parts.expression fun inner => ?_
  exact congruence.bind (congruence.expect .rightParen nofun) fun _ => congruence.pure _

theorem primary : related (primary nested) (primary nested') := by
  refine congruence.next fun token token' sameKind _ => ?_
  rw [sameKind]
  cases token'.kind with
  | integer | float | text | boolean | null => exact congruence.returning congruence.advance _
  | leftParen =>
    refine congruence.bind congruence.advance fun _ => ?_
    refine congruence.bind parts.expression fun inner => ?_
    exact congruence.bind (congruence.expect .rightParen nofun) fun _ => congruence.pure _
  | outWord => exact congruence.bind congruence.advance fun _ => congruence.afterOut parts
  | name name => exact congruence.bind congruence.advance fun _ => congruence.afterName parts name
  | _ => exact congruence.fail nofun

theorem unary : related (unary nested) (unary nested') := by
  refine congruence.next fun token token' sameKind _ => ?_
  rw [sameKind]
  cases token'.kind with
  | minus | not =>
    exact congruence.bind congruence.advance fun _ => congruence.returning parts.unary _
  | _ => exact congruence.primary parts

theorem power : related (power nested) (power nested') := by
  refine congruence.bind (congruence.unary parts) fun base => ?_
  refine congruence.bind (congruence.accept .caret) fun raised => ?_
  cases raised with
  | false => exact congruence.pure base
  | true => exact congruence.returning parts.power _

/-- All rules that group from the left rest on the one for powers. -/
theorem disjunction : related (disjunction nested) (disjunction nested') :=
  congruence.chain (congruence.chain (congruence.chain (congruence.chain
    (congruence.chain (congruence.chain (congruence.power parts))))))

theorem afterLet : related (afterLet nested) (afterLet nested') := by
  refine congruence.bind (congruence.expectName nofun) fun name => ?_
  refine congruence.bind (congruence.expect .assign nofun) fun _ => ?_
  refine congruence.bind (congruence.disjunction parts) fun value => ?_
  refine congruence.bind congruence.useLimit fun uses => ?_
  refine congruence.bind (congruence.expect .semicolon nofun) fun _ => ?_
  exact congruence.returning parts.expression _

theorem branch : related (branch nested) (branch nested') := by
  refine congruence.bind (congruence.disjunction parts) fun condition => ?_
  refine congruence.bind (congruence.expect .colon nofun) fun _ => ?_
  exact congruence.returning parts.expression _

theorem branchesFrom (steps : Nat) :
    related (branchesFrom nested steps) (branchesFrom nested' steps) := by
  induction steps with
  | zero => exact congruence.pure []
  | succ steps inductionHypothesis =>
    refine congruence.bind (congruence.accept .elifWord) fun more => ?_
    cases more with
    | false => exact congruence.pure []
    | true =>
      exact congruence.bind (congruence.branch parts) fun _ =>
        congruence.returning inductionHypothesis _

theorem afterIf : related (afterIf nested) (afterIf nested') := by
  refine congruence.bind (congruence.branch parts) fun first => ?_
  refine congruence.bind congruence.tokensLeft fun steps => ?_
  refine congruence.bind (congruence.branchesFrom parts steps) fun further => ?_
  refine congruence.bind (congruence.expect .elseWord nofun) fun _ => ?_
  refine congruence.bind (congruence.expect .colon nofun) fun _ => ?_
  exact congruence.returning parts.expression _

theorem ternary : related (ternary nested) (ternary nested') := by
  refine congruence.bind (congruence.disjunction parts) fun condition => ?_
  refine congruence.bind (congruence.accept .question) fun asked => ?_
  cases asked with
  | false => exact congruence.pure condition
  | true =>
    refine congruence.bind parts.expression fun whenTrue => ?_
    refine congruence.bind (congruence.expect .colon nofun) fun _ => ?_
    exact congruence.returning parts.expression _

theorem expression : related (expression nested) (expression nested') := by
  refine congruence.next fun token token' sameKind _ => ?_
  rw [sameKind]
  cases token'.kind with
  | letWord => exact congruence.bind congruence.advance fun _ => congruence.afterLet parts
  | ifWord => exact congruence.bind congruence.advance fun _ => congruence.afterIf parts
  | _ => exact congruence.ternary parts

/-- Related parsers of one level make related parsers of the next. -/
theorem deeper :
    (⟨Parser.expression nested, Parser.power nested, Parser.unary nested⟩ : Nested).Related related
      ⟨Parser.expression nested', Parser.power nested', Parser.unary nested'⟩ :=
  ⟨congruence.expression parts, congruence.power parts, congruence.unary parts⟩

omit parts

theorem nestedWithin (levels : Nat) :
    (nestedWithin levels).Related related (nestedWithin levels) := by
  induction levels with
  | zero => exact ⟨congruence.fail nofun, congruence.fail nofun, congruence.fail nofun⟩
  | succ levels inductionHypothesis => exact congruence.deeper inductionHypothesis

theorem complete : related complete complete := by
  refine congruence.bind (congruence.nestedWithin nestingLimit).expression fun result => ?_
  refine congruence.next fun token token' sameKind sameLexeme => ?_
  have sameEnd : token.isEnd = token'.isEnd := by rw [Token.isEnd, sameKind, Token.isEnd]
  have sameShown : token.shown = token'.shown := by
    rw [Token.shown, sameEnd, sameLexeme, Token.shown]
  rw [sameEnd, sameShown]
  split
  · exact congruence.pure result
  · exact congruence.fail nofun

end IsCongruence

end Parser

end Reckon
