/-
This file says how tightly trees hold together, and what may follow them when
they are written. A tree is read as its own operator is, or as any looser one,
whatever follows, with one exception. A name before `<`, another name, `>` and
an opening parenthesis is a call with a type hint. So a `>` and a parenthesis
may not follow a comparison with a name, if the other side ends in a name, and
a `>` may not follow anything looser than a comparison.
-/

import Reckon.Proofs.Format.Guards
import Reckon.Proofs.Grammar.Completeness

namespace Reckon

namespace Expression

/-! ### Trees that can be written -/

/-- Whether a tree asks if something is less than a variable. -/
def isBelowVariable : Expression → Bool
  | .binary .less _ (.variable _) => true
  | _ => false

/-- Whether the text of an operand may end in a name, the parentheses around its parts counted.
Expressions that reach as far right as they can stand in parentheses where an operand does, so of
them it is not asked. -/
def endsInName : Expression → Bool
  | .variable _ => true
  | .binary operator _ right => !right.needsParentheses operator true && right.endsInName
  | .unary _ operand => !operand.needsUnaryParentheses && operand.endsInName
  | .ternary _ _ _ | .binding _ _ _ _ | .conditional _ _ => true
  | _ => false

/-- Whether the text of a tree begins with an opening parenthesis. -/
def beginsGrouped : Expression → Bool
  | .grouping _ => true
  | .binary operator left _ => left.needsParentheses operator false || left.beginsGrouped
  | .ternary condition _ _ => condition.isOpenEnded || condition.beginsGrouped
  | _ => false

/-- Whether a tree asks if something whose text ends in a name is less than a variable. -/
def isBelowName : Expression → Bool
  | .binary .less left (.variable _) => !left.needsParentheses .less false && left.endsInName
  | _ => false

/-- Whether a tree is a comparison whose text looks like the call of a function: a name, another
name between `<` and `>`, and an opening parenthesis. -/
def isMistakable : Expression → Bool
  | .binary .greater left right =>
    left.isBelowName && (right.needsParentheses .greater true || right.beginsGrouped)
  | _ => false

/-- Whether what a node of a tree holds can be written: its names are names, its numbers have no
sign, and its counts are ones that can be told apart. -/
def IsPlain : Expression → Prop
  | .integer number => 0 ≤ number.toInt
  | .float number => number.isNegative = false ∧ number.less (.ofNat (Nat.pow 10 15)) = true
  | .variable name => IsName name
  | .binding name _ uses _ =>
    IsName name ∧ ∀ count, uses = .limited count → 1 ≤ count ∧ count ≤ UseLimit.greatestCount
  | .conditional branches otherwise => branches ≠ [] ∧ otherwise ≠ none
  | .call function hint _ => IsName function ∧ ∀ type, hint = some type → IsName type
  | .cast typeName _ => IsName typeName
  | _ => True

/-- Whether a node of a tree can be written: its names are names, its numbers have no sign, its
counts are ones that can be told apart, and no `>` follows a comparison with a name. -/
def IsWritable : Expression → Prop
  | .integer number => 0 ≤ number.toInt
  | .float number => number.isNegative = false ∧ number.less (.ofNat (Nat.pow 10 15)) = true
  | .variable name => IsName name
  | .binary operator left _ => ¬ (operator = .greater ∧ left.isBelowVariable = true)
  | .binding name _ uses _ =>
    IsName name ∧ ∀ count, uses = .limited count → 1 ≤ count ∧ count ≤ UseLimit.greatestCount
  | .conditional branches otherwise => branches ≠ [] ∧ otherwise ≠ none
  | .call function hint _ => IsName function ∧ ∀ type, hint = some type → IsName type
  | .cast typeName _ => IsName typeName
  | _ => True

theorem IsWritable.isPlain {tree : Expression} (writable : tree.IsWritable) : tree.IsPlain := by
  cases tree with
  | binary => trivial
  | _ => exact writable

theorem isBelowVariable_of_isBelowName {tree : Expression} (below : tree.isBelowName = true) :
    tree.isBelowVariable = true := by
  unfold isBelowName at below
  split at below
  · rfl
  · cases below

/-- Whether a node of a tree can be written, and its text is not taken for something else. -/
structure IsLegible (tree : Expression) : Prop where
  plain : tree.IsPlain
  clear : tree.isMistakable = false

theorem IsWritable.isMistakable_eq_false {tree : Expression} (writable : tree.IsWritable) :
    tree.isMistakable = false := by
  unfold isMistakable
  split
  next left right =>
    refine Bool.eq_false_iff.mpr fun mistakable => ?_
    have below := isBelowVariable_of_isBelowName (Bool.and_eq_true_iff.mp mistakable).1
    exact writable ⟨rfl, below⟩
  · rfl

theorem IsWritable.isLegible {tree : Expression} (writable : tree.IsWritable) : tree.IsLegible :=
  ⟨writable.isPlain, writable.isMistakable_eq_false⟩

/-- How tightly a tree holds together: as tightly as its operator binds. -/
def tightness : Expression → Nat
  | .binding _ _ _ _ | .conditional _ _ | .ternary _ _ _ => 1
  | .binary operator _ _ => operator.precedence + 1
  | .unary _ _ => 9
  | _ => 10

theorem beginsGrouped_enclosed (needed : Bool) (tree : Expression) :
    (enclosed needed tree).beginsGrouped = (needed || tree.beginsGrouped) := by
  cases needed <;> rfl

/-- The parentheses that are put into a tree are the ones that its text begins with. -/
theorem beginsGrouped_guarded (tree : Expression) :
    tree.guarded.beginsGrouped = tree.beginsGrouped := by
  induction tree using parts_induction with
  | binary operator left right leftSame rightSame =>
    rw [guarded, beginsGrouped, needsParentheses_enclosed, Bool.false_or, beginsGrouped_enclosed,
      leftSame, beginsGrouped]
  | ternary condition whenTrue whenFalse conditionSame trueSame falseSame =>
    rw [guarded, beginsGrouped, isOpenEnded_enclosed, Bool.false_or, beginsGrouped_enclosed,
      conditionSame, beginsGrouped]
  | _ => rfl

theorem precedence_bounds (operator : BinaryOperator) :
    1 ≤ operator.precedence ∧ operator.precedence ≤ 7 := by
  cases operator <;> decide

theorem tightness_of_not_isOpenEnded {tree : Expression} (closed : tree.isOpenEnded = false) :
    2 ≤ tree.tightness := by
  cases tree with
  | binding | conditional | ternary => cases closed
  | binary operator => exact Nat.succ_le_succ (precedence_bounds operator).1
  | unary => exact (by decide : 2 ≤ 9)
  | _ => exact (by decide : 2 ≤ 10)

theorem tightness_of_not_needsUnaryParentheses {tree : Expression}
    (needless : tree.needsUnaryParentheses = false) : 9 ≤ tree.tightness := by
  cases tree with
  | binding | conditional | ternary | binary => cases needless
  | unary => exact Nat.le_refl 9
  | _ => exact (by decide : 9 ≤ 10)

/-- An operand without parentheses holds together at least as tightly as the operator beside it
binds, and more tightly on the side that the operator does not group from. -/
theorem tightness_of_not_needsParentheses {tree : Expression} {operator : BinaryOperator}
    {onRight : Bool} (needless : tree.needsParentheses operator onRight = false) :
    operator.precedence + 1 ≤ tree.tightness ∧
      (onRight ≠ operator.isRightAssociative → operator.precedence + 2 ≤ tree.tightness) := by
  have greatest := (precedence_bounds operator).2
  have tighter : operator.precedence + 2 ≤ tree.tightness →
      operator.precedence + 1 ≤ tree.tightness ∧
        (onRight ≠ operator.isRightAssociative → operator.precedence + 2 ≤ tree.tightness) :=
    fun bound => ⟨Nat.le_of_succ_le bound, fun _ => bound⟩
  cases tree with
  | binding | conditional | ternary => cases needless
  | binary inner =>
    obtain ⟨notLooser, notEqual⟩ := Bool.or_eq_false_iff.mp (Bool.or_eq_false_iff.mp needless).2
    have notLooser := of_decide_eq_false notLooser
    refine ⟨Nat.succ_le_succ (Nat.not_lt.mp notLooser), fun otherSide => ?_⟩
    rw [bne_iff_ne.mpr otherSide, Bool.and_true] at notEqual
    have apart := beq_eq_false_iff_ne.mp notEqual
    show operator.precedence + 2 ≤ inner.precedence + 1
    omega
  | unary => exact tighter (Nat.succ_le_succ (Nat.succ_le_succ greatest))
  | _ => exact tighter (Nat.succ_le_succ (Nat.succ_le_succ (Nat.le_succ_of_le greatest)))

end Expression

namespace Grammar

variable {input after rest : List TokenKind} {tree : Expression} {bound : Nat}

/-! ### Parts spelled with any number of levels -/

/-- A part of an expression is spelled at the front of the tokens, however many nested parts have
to be open at once. -/
def Spelled (phrase : Phrase) (input rest : List TokenKind) : Prop :=
  ∃ levels, Spells levels phrase input rest

namespace Phrase

/-- A tree as the rule reads it that reads what holds together so tightly. -/
def ofTightness (bound : Nat) (tree : Expression) : Phrase :=
  match bound with
  | 0 | 1 => .expression tree
  | 2 => .operands .disjunction tree
  | 3 => .operands .conjunction tree
  | 4 => .operands .equality tree
  | 5 => .operands .comparison tree
  | 6 => .operands .sum tree
  | 7 => .operands .product tree
  | 8 => .power tree
  | 9 => .unary tree
  | _ => .primary tree

end Phrase

theorem Rule.ofTightness_strength (rule : Rule) (tree : Expression) :
    Phrase.ofTightness rule.strength tree = .operands rule tree := by
  cases rule <;> rfl

theorem Rule.ofTightness_operand (rule : Rule) (tree : Expression) :
    Phrase.ofTightness (rule.strength + 1) tree = rule.operand tree := by
  cases rule <;> rfl

/-- What a rule reads is read by the rule for what holds together less tightly. -/
theorem Spelled.looser (spelled : Spelled (.ofTightness (bound + 1) tree) input rest) :
    Spelled (.ofTightness bound tree) input rest := by
  obtain ⟨levels, spells⟩ := spelled
  match bound with
  | 0 => exact ⟨levels, spells⟩
  | 1 => exact ⟨levels + 1, .alone spells⟩
  | 2 => exact ⟨levels, .operand .disjunction spells⟩
  | 3 => exact ⟨levels, .operand .conjunction spells⟩
  | 4 => exact ⟨levels, .operand .equality spells⟩
  | 5 => exact ⟨levels, .operand .comparison spells⟩
  | 6 => exact ⟨levels, .operand .sum spells⟩
  | 7 => exact ⟨levels, .operand .product spells⟩
  | 8 => exact ⟨levels, .base spells⟩
  | 9 => exact ⟨levels, .primary spells⟩
  | _ + 10 => exact ⟨levels, spells⟩

theorem Spelled.loosen {greater : Nat} (spelled : Spelled (.ofTightness greater tree) input rest)
    (le : bound ≤ greater) : Spelled (.ofTightness bound tree) input rest := by
  induction le with
  | refl => exact spelled
  | step _ inductionHypothesis => exact inductionHypothesis spelled.looser

/-! ### What may follow -/

/-- Tokens may follow a tree: they open no arguments after a name, and a `>` among them is not the
end of a type hint. -/
structure Follows (tree : Expression) (rest : List TokenKind) : Prop where
  noCall : tree.endsInName = true → ∀ hint after, ¬ Opens rest hint after
  noHint : rest.head? = some .greater → 5 ≤ tree.tightness ∧
    (tree.isBelowName = true → rest.tail.head? ≠ some .leftParen)

/-- Tokens may follow any tree. -/
def Closed (rest : List TokenKind) : Prop :=
  ∀ tree, Follows tree rest

/-- Whether a token neither opens arguments nor can be part of a type hint. -/
def closes : TokenKind → Bool
  | .leftParen | .less | .greater => false
  | _ => true

theorem closed_nil : Closed [] := by
  refine fun tree => ⟨fun _ hint after opens => ?_, fun same => ?_⟩
  · cases opens
  · cases same

theorem closed_cons {kind : TokenKind} (closing : closes kind = true) : Closed (kind :: rest) := by
  refine fun tree => ⟨fun _ hint after opens => ?_, fun same => ?_⟩
  · cases opens <;> cases closing
  · cases same
    cases closing

theorem isBelowName_of_tightness (tight : 6 ≤ tree.tightness) : tree.isBelowName = false := by
  unfold Expression.isBelowName
  split
  · exact absurd tight (by decide : ¬ 6 ≤ 5)
  · rfl

/-- What may follow a tree may follow its last part. -/
theorem Follows.part {last : Expression} (follows : Follows tree rest)
    (ends : last.endsInName = true → tree.endsInName = true)
    (tighter : 5 ≤ tree.tightness → 6 ≤ last.tightness) : Follows last rest := by
  refine ⟨fun named => follows.noCall (ends named), fun same => ?_⟩
  have tight := tighter (follows.noHint same).1
  refine ⟨Nat.le_of_succ_le tight, fun below => ?_⟩
  rw [isBelowName_of_tightness tight] at below
  cases below

/-! ### Parts that begin with a parenthesis -/

/-- A part of an expression is written with an opening parenthesis first exactly if it is spelled
with one. -/
def Phrase.BeginsAs (input : List TokenKind) : Phrase → Prop
  | .expression tree | .operands _ tree | .power tree | .unary tree | .primary tree =>
    tree.beginsGrouped = true ↔ input.head? = some .leftParen
  | _ => True

theorem Rule.beginsAs_operand {rule : Rule} (begins : (rule.operand tree).BeginsAs input) :
    tree.beginsGrouped = true ↔ input.head? = some .leftParen := by
  cases rule <;> exact begins

theorem beginsGrouped_binary {operator : BinaryOperator} {left : Expression} (right : Expression)
    (needless : left.needsParentheses operator false = false) :
    (Expression.binary operator left right).beginsGrouped = left.beginsGrouped := by
  rw [Expression.beginsGrouped, needless, Bool.false_or]

theorem Spells.beginsAs {levels : Nat} {phrase : Phrase}
    (spelled : Spells levels phrase input rest) : phrase.BeginsAs input := by
  induction spelled with
  | noFurther | further | lastArgument | arguments => trivial
  | binding | conditional | negate | not | integer | float | text | boolean | null | cast
  | «variable» | emptyCall | call => exact ⟨nofun, nofun⟩
  | grouping => exact ⟨fun _ => rfl, fun _ => rfl⟩
  | ternary conditionSpelled _ _ begins =>
    show (_ || _) = true ↔ _
    rw [conditionSpelled.isTight.closed, Bool.false_or]
    exact begins
  | alone _ begins | base _ begins | primary _ begins => exact begins
  | operand rule _ begins => exact Rule.beginsAs_operand begins
  | join joins leftSpelled _ begins =>
    obtain ⟨strength, groupsLeft⟩ := joins.precedence_eq
    have needless := leftSpelled.isTight.needsParentheses (Nat.le_of_eq strength)
      (.inl groupsLeft.symm)
    show Expression.beginsGrouped _ = true ↔ _
    rw [beginsGrouped_binary _ needless]
    exact begins
  | raise baseSpelled _ begins =>
    have needless : Expression.needsParentheses _ .power false = false :=
      baseSpelled.isTight.needsParentheses (by decide) (.inr (by decide))
    show Expression.beginsGrouped _ = true ↔ _
    rw [beginsGrouped_binary _ needless]
    exact begins

/-- What a part of an expression is if it begins with a name before `>`: if it holds together more
tightly than a comparison, it is the name alone. -/
def Phrase.IsName (name : String) (after rest : List TokenKind) : Phrase → Prop
  | .operands rule tree => 6 ≤ rule.strength → tree = .variable name ∧ rest = .greater :: after
  | .power tree | .unary tree | .primary tree => tree = .variable name ∧ rest = .greater :: after
  | _ => True

theorem Spells.isName {levels : Nat} {phrase : Phrase} {name : String}
    (spelled : Spells levels phrase input rest) (same : input = .name name :: .greater :: after) :
    phrase.IsName name after rest := by
  induction spelled with
  | binding | conditional | ternary | alone | noFurther | further | lastArgument | arguments =>
    trivial
  | operand rule _ inductionHypothesis =>
    have operand := inductionHypothesis same
    cases rule with
    | disjunction | conjunction | equality | comparison =>
      exact fun tight => absurd tight (by decide)
    | sum => exact fun _ => operand (by decide : 6 ≤ 7)
    | product => exact fun _ => operand
  | join joins _ _ inductionHypothesis =>
    intro tight
    obtain ⟨-, joined⟩ := inductionHypothesis same tight
    cases joined
    cases joins
    exact absurd tight (by decide)
  | base _ inductionHypothesis | primary _ inductionHypothesis => exact inductionHypothesis same
  | raise _ _ inductionHypothesis => cases (inductionHypothesis same).2
  | negate | not | integer | float | text | boolean | null | grouping | cast => cases same
  | «variable» =>
    cases same
    exact ⟨rfl, rfl⟩
  | emptyCall opens | call opens =>
    cases same
    cases opens

theorem Spelled.eq_name {name : String}
    (spelled : Spelled (.ofTightness bound tree) (.name name :: .greater :: after) rest)
    (tight : 6 ≤ bound) : tree = .variable name ∧ rest = .greater :: after := by
  obtain ⟨levels, spells⟩ := spelled.loosen tight
  exact (spells.isName rfl) (Nat.le_refl 6)

end Grammar

end Reckon
