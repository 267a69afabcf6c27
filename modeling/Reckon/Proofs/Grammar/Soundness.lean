/-
This file shows that the parser reads nothing but the grammar: whatever a rule
of the parser reads has a derivation, with what it leaves as the rest.
-/

import Reckon.Proofs.Grammar.Reading
import Reckon.Proofs.Grammar.Rules

namespace Reckon

open Reckon.Parser

namespace Grammar

/-! ### The parsers of the rules that group from the left -/

/-- The operator that a rule reads from a token. -/
def Rule.operator? : Rule → TokenKind → Option BinaryOperator
  | .disjunction => orOperator?
  | .conjunction => andOperator?
  | .equality => equalityOperator?
  | .comparison => comparisonOperator?
  | .sum => additiveOperator?
  | .product => multiplicativeOperator?

/-- The parser of the operands of a rule. -/
def Rule.operandParser (nested : Nested) : Rule → Parser Expression
  | .disjunction => Parser.conjunction nested
  | .conjunction => Parser.equality nested
  | .equality => Parser.comparison nested
  | .comparison => Parser.sum nested
  | .sum => Parser.product nested
  | .product => Parser.power nested

theorem Rule.operator?_eq_some {rule : Rule} {kind : TokenKind} {operator : BinaryOperator} :
    rule.operator? kind = some operator ↔ Joins rule kind operator := by
  constructor
  · intro joined
    cases rule <;> cases kind <;> cases joined <;> constructor
  · intro joins
    cases joins <;> rfl

theorem Joins.ne_endOfInput {rule : Rule} {kind : TokenKind} {operator : BinaryOperator}
    (joins : Joins rule kind operator) : kind ≠ .endOfInput := by
  cases joins <;> exact nofun

variable {levels : Nat} {nested : Nested}

/-- What a parser reads with so many levels left is spelled as a phrase. -/
def ReadsOnly (parser : Parser Expression) (levels : Nat) (phrase : Expression → Phrase) : Prop :=
  ∀ ⦃stream later : TokenStream⦄ ⦃tree : Expression⦄, Reads parser stream tree later →
    Spells levels (phrase tree) stream.kinds later.kinds

theorem chainFrom_sound {rule : Rule} {input : List TokenKind} {tree : Expression}
    {later : TokenStream}
    (operandSound : ReadsOnly (rule.operandParser nested) levels rule.operand) :
    ∀ {steps : Nat} {left : Expression} {between : TokenStream},
      Spells levels (.operands rule left) input between.kinds →
      Reads (chainFrom rule.operator? (rule.operandParser nested) steps left) between tree later →
      Spells levels (.operands rule tree) input later.kinds := by
  intro steps
  induction steps with
  | zero =>
    intro left between leftSpelled read
    obtain ⟨rfl, rfl⟩ := reads_pure.mp read
    exact leftSpelled
  | succ steps inductionHypothesis =>
    intro left between leftSpelled read
    unfold chainFrom at read
    rw [reads_next_bind] at read
    cases joined : rule.operator? between.next.kind with
    | none =>
      rw [joined] at read
      obtain ⟨rfl, rfl⟩ := reads_pure.mp read
      exact leftSpelled
    | some operator =>
      rw [joined] at read
      have joins := Rule.operator?_eq_some.mp joined
      obtain ⟨after, takes⟩ := TokenStream.takes_of_next_kind rfl joins.ne_endOfInput
      obtain ⟨right, rest, rightRead, read⟩ := reads_bind.mp ((reads_advance_bind takes).mp read)
      rw [takes.kinds_eq] at leftSpelled
      exact inductionHypothesis (.join joins leftSpelled (operandSound rightRead)) read

theorem chain_sound (rule : Rule)
    (operandSound : ReadsOnly (rule.operandParser nested) levels rule.operand) :
    ReadsOnly (chain rule.operator? (rule.operandParser nested)) levels (.operands rule) := by
  intro stream later tree read
  obtain ⟨left, between, leftRead, read⟩ := reads_bind.mp read
  exact chainFrom_sound operandSound (.operand rule (operandSound leftRead))
    (reads_tokensLeft_bind.mp read)

/-! ### The other rules -/

/-- What the parsers of the nesting parts read is spelled. The operand of a unary operator and
the right side of `^` take a level by themselves, an expression in its rule. -/
structure SoundWithin (levels : Nat) (nested : Nested) : Prop where
  expression : ReadsOnly nested.expression levels .expression
  power : ∀ {stream later : TokenStream} {tree : Expression},
    Reads nested.power stream tree later →
      ∃ inner, levels = inner + 1 ∧ Spells inner (.power tree) stream.kinds later.kinds
  unary : ∀ {stream later : TokenStream} {tree : Expression},
    Reads nested.unary stream tree later →
      ∃ inner, levels = inner + 1 ∧ Spells inner (.unary tree) stream.kinds later.kinds

variable (sound : SoundWithin levels nested)

include sound

theorem argumentsFrom_sound {later : TokenStream} :
    ∀ {steps : Nat} {stream : TokenStream} {arguments : List Expression},
      stream.kinds.length < steps → Reads (argumentsFrom nested steps) stream arguments later →
      Spells levels (.arguments arguments) stream.kinds later.kinds := by
  intro steps
  induction steps with
  | zero =>
    intro stream arguments enough read
    exact absurd enough (Nat.not_lt_zero _)
  | succ steps inductionHypothesis =>
    intro stream arguments enough read
    obtain ⟨argument, between, argumentRead, read⟩ := reads_bind.mp read
    have spelled := sound.expression argumentRead
    rcases (reads_accept_bind (by decide)).mp read with ⟨after, takes, read⟩ | ⟨-, read⟩
    · obtain ⟨rest, final, restRead, read⟩ := reads_bind.mp read
      obtain ⟨rfl, rfl⟩ := reads_pure.mp read
      rw [takes.kinds_eq] at spelled
      have shorter := spelled.suffix.length_le
      rw [List.length_cons] at shorter
      exact .arguments spelled (inductionHypothesis (by omega) restRead)
    · obtain ⟨rfl, rfl⟩ := reads_pure.mp read
      exact .lastArgument spelled

/-- The arguments that a parser reads between parentheses make a call of any name. -/
theorem callArguments_sound {stream after later : TokenStream} {name : String}
    {hint : Option String} {arguments : List Expression}
    (opens : Opens stream.kinds hint after.kinds)
    (read : Reads (callArguments nested) after arguments later) :
    Spells levels (.primary (.call name hint arguments)) (.name name :: stream.kinds)
      later.kinds := by
  rcases (reads_accept_bind (by decide)).mp read with ⟨rest, takes, read⟩ | ⟨-, read⟩
  · obtain ⟨rfl, rfl⟩ := reads_pure.mp read
    rw [takes.kinds_eq] at opens
    exact .emptyCall opens
  · obtain ⟨result, between, argumentsRead, read⟩ := reads_bind.mp (reads_tokensLeft_bind.mp read)
    obtain ⟨final, takes, read⟩ := (reads_expect_bind (by decide)).mp read
    obtain ⟨rfl, rfl⟩ := reads_pure.mp read
    have spelled := argumentsFrom_sound sound
      (by rw [TokenStream.length_kinds]; exact Nat.lt_succ_self _) argumentsRead
    rw [takes.kinds_eq] at spelled
    exact .call opens spelled

omit sound in
theorem acceptHint_of_opens {stream : TokenStream} {hint : String} {after : List TokenKind}
    (opens : Opens stream.kinds (some hint) after) :
    ∃ later : TokenStream, later.kinds = after ∧ Reads acceptHint stream (some hint) later := by
  obtain ⟨first, takesFirst, firstKinds⟩ := TokenStream.exists_takes opens.eq_of_hint
  obtain ⟨second, takesSecond, secondKinds⟩ := TokenStream.exists_takes firstKinds
  obtain ⟨third, takesThird, thirdKinds⟩ := TokenStream.exists_takes secondKinds
  obtain ⟨later, takesLater, kinds⟩ := TokenStream.exists_takes thirdKinds
  obtain ⟨_, _, rfl⟩ := takesFirst
  obtain ⟨_, _, rfl⟩ := takesSecond
  obtain ⟨_, _, rfl⟩ := takesThird
  obtain ⟨_, _, rfl⟩ := takesLater
  exact ⟨later, kinds, rfl⟩

omit sound in
theorem reads_acceptHint (stream : TokenStream) :
    ∃ hint later, Reads acceptHint stream hint later := by
  rcases reads_or_faults acceptHint stream with read | ⟨error, fault⟩
  · exact read
  · unfold acceptHint at fault
    split at fault <;> cases fault

omit sound in
/-- A type hint is taken if it stands there with the parenthesis after it. -/
theorem acceptHint_sound {stream later : TokenStream} {hint : Option String}
    (read : Reads acceptHint stream hint later) :
    (∃ name, hint = some name ∧ Opens stream.kinds (some name) later.kinds) ∨
      hint = none ∧ later = stream ∧ ∀ name after, ¬ Opens stream.kinds (some name) after := by
  have taken := read
  unfold Reads acceptHint at read
  split at read
  next shape =>
    cases read
    refine .inl ⟨_, rfl, ?_⟩
    unfold TokenStream.kinds
    rw [shape]
    exact .hint _ _
  next =>
    cases read
    refine .inr ⟨rfl, rfl, fun name after opens => ?_⟩
    obtain ⟨final, -, hinted⟩ := acceptHint_of_opens opens
    cases (taken.unique hinted).1

omit sound in
/-- Where neither a parenthesis nor a type hint was taken, none opens the arguments of a call. -/
theorem not_opens {stream : TokenStream} (noParenthesis : stream.next.kind ≠ .leftParen)
    (noHint : ∀ name after, ¬ Opens stream.kinds (some name) after) (hint : Option String)
    (after : List TokenKind) : ¬ Opens stream.kinds hint after := by
  intro opens
  cases hint with
  | some type => exact noHint type after opens
  | none =>
    refine noParenthesis ?_
    rw [TokenStream.next_kind, opens.eq_of_none]
    rfl

theorem afterName_sound {name : String} {stream later : TokenStream} {tree : Expression}
    (read : Reads (afterName nested name) stream tree later) :
    Spells levels (.primary tree) (.name name :: stream.kinds) later.kinds := by
  rcases (reads_accept_bind (by decide)).mp read with ⟨after, takes, read⟩ | ⟨noParenthesis, read⟩
  · obtain ⟨arguments, rest, argumentsRead, read⟩ := reads_bind.mp read
    obtain ⟨rfl, rfl⟩ := reads_pure.mp read
    have opens : Opens stream.kinds none after.kinds := takes.kinds_eq ▸ .parenthesis _
    exact callArguments_sound sound opens argumentsRead
  · obtain ⟨hint, after, hintRead, calledRead⟩ := reads_bind.mp read
    rcases acceptHint_sound hintRead with ⟨type, rfl, opens⟩ | ⟨rfl, rfl, noHint⟩
    · obtain ⟨arguments, rest, argumentsRead, read⟩ := reads_bind.mp calledRead
      obtain ⟨rfl, rfl⟩ := reads_pure.mp read
      exact callArguments_sound sound opens argumentsRead
    · obtain ⟨rfl, rfl⟩ := reads_pure.mp calledRead
      exact .variable (not_opens noParenthesis noHint)

theorem afterOut_sound {stream later : TokenStream} {tree : Expression}
    (read : Reads (afterOut nested) stream tree later) :
    Spells levels (.primary tree) (.outWord :: stream.kinds) later.kinds := by
  obtain ⟨first, less, read⟩ := (reads_expect_bind (by decide)).mp read
  obtain ⟨typeName, second, name, read⟩ := reads_expectName_bind.mp read
  obtain ⟨third, greater, read⟩ := (reads_expect_bind (by decide)).mp read
  obtain ⟨fourth, opening, read⟩ := (reads_expect_bind (by decide)).mp read
  obtain ⟨inner, rest, innerRead, read⟩ := reads_bind.mp read
  obtain ⟨final, closing, read⟩ := (reads_expect_bind (by decide)).mp read
  obtain ⟨rfl, rfl⟩ := reads_pure.mp read
  have spelled := sound.expression innerRead
  rw [closing.kinds_eq] at spelled
  rw [less.kinds_eq, name.kinds_eq, greater.kinds_eq, opening.kinds_eq]
  exact .cast spelled

theorem primary_sound : ReadsOnly (Parser.primary nested) levels .primary := by
  intro stream later tree read
  rcases stream.ends_or_takes with ends | ⟨kind, after, takes⟩
  · unfold Parser.primary at read
    rw [reads_next_bind, TokenStream.next_kind_of_ends ends] at read
    exact absurd read not_reads_fail
  · unfold Parser.primary at read
    rw [reads_next_bind, takes.next_kind] at read
    rw [takes.kinds_eq]
    cases kind with
    | integer number =>
      obtain ⟨rfl, rfl⟩ := (reads_advance_pure takes).mp read
      exact .integer
    | float number =>
      obtain ⟨rfl, rfl⟩ := (reads_advance_pure takes).mp read
      exact .float
    | text content =>
      obtain ⟨rfl, rfl⟩ := (reads_advance_pure takes).mp read
      exact .text
    | boolean truth =>
      obtain ⟨rfl, rfl⟩ := (reads_advance_pure takes).mp read
      exact .boolean
    | null =>
      obtain ⟨rfl, rfl⟩ := (reads_advance_pure takes).mp read
      exact .null
    | leftParen =>
      obtain ⟨inner, rest, innerRead, read⟩ := reads_bind.mp ((reads_advance_bind takes).mp read)
      obtain ⟨final, closing, read⟩ := (reads_expect_bind (by decide)).mp read
      obtain ⟨rfl, rfl⟩ := reads_pure.mp read
      have spelled := sound.expression innerRead
      rw [closing.kinds_eq] at spelled
      exact .grouping spelled
    | outWord => exact afterOut_sound sound ((reads_advance_bind takes).mp read)
    | name name => exact afterName_sound sound ((reads_advance_bind takes).mp read)
    | _ => exact absurd read not_reads_fail

/-- An operand that is read after a unary operator is spelled one level further in. -/
theorem operand_sound {operator : UnaryOperator} {kind : TokenKind}
    (spells : ∀ {levels operand input rest}, Spells levels (.unary operand) input rest →
      Spells (levels + 1) (.unary (.unary operator operand)) (kind :: input) rest)
    {stream later : TokenStream} {tree : Expression} (next : stream.next.kind = kind)
    (notEnd : kind ≠ .endOfInput)
    (read : Reads (do advance; return .unary operator (← nested.unary)) stream tree later) :
    Spells levels (.unary tree) stream.kinds later.kinds := by
  obtain ⟨after, takes⟩ := TokenStream.takes_of_next_kind next notEnd
  obtain ⟨operand, rest, operandRead, read⟩ := reads_bind.mp ((reads_advance_bind takes).mp read)
  obtain ⟨rfl, rfl⟩ := reads_pure.mp read
  obtain ⟨inner, rfl, spelled⟩ := sound.unary operandRead
  rw [takes.kinds_eq]
  exact spells spelled

theorem unary_sound : ReadsOnly (Parser.unary nested) levels .unary := by
  intro stream later tree read
  unfold Parser.unary at read
  rw [reads_next_bind] at read
  split at read
  next minus => exact operand_sound sound .negate minus nofun read
  next not => exact operand_sound sound .not not nofun read
  next => exact .primary (primary_sound sound read)

theorem power_sound : ReadsOnly (Parser.power nested) levels .power := by
  intro stream later tree read
  obtain ⟨base, between, baseRead, read⟩ := reads_bind.mp read
  have baseSpelled := unary_sound sound baseRead
  rcases (reads_accept_bind (by decide)).mp read with ⟨after, takes, read⟩ | ⟨-, read⟩
  · obtain ⟨exponent, rest, exponentRead, read⟩ := reads_bind.mp read
    obtain ⟨rfl, rfl⟩ := reads_pure.mp read
    obtain ⟨inner, rfl, exponentSpelled⟩ := sound.power exponentRead
    rw [takes.kinds_eq] at baseSpelled
    exact .raise baseSpelled exponentSpelled
  · obtain ⟨rfl, rfl⟩ := reads_pure.mp read
    exact .base baseSpelled

theorem disjunction_sound :
    ReadsOnly (Parser.disjunction nested) levels (.operands .disjunction) := by
  have product := chain_sound .product (power_sound sound)
  have sum := chain_sound .sum product
  have comparison := chain_sound .comparison sum
  have equality := chain_sound .equality comparison
  have conjunction := chain_sound .conjunction equality
  exact chain_sound .disjunction conjunction

omit sound in
theorem useLimit_sound {stream later : TokenStream} {uses : UseLimit}
    (read : Reads useLimit stream uses later) : Limits uses stream.kinds later.kinds := by
  rcases (reads_accept_bind (by decide)).mp read with ⟨first, word, read⟩ | ⟨-, read⟩
  · obtain ⟨negative, second, sign, read⟩ := reads_bind.mp read
    rw [reads_next_bind] at read
    split at read
    next number next =>
      obtain ⟨after, takes⟩ := TokenStream.takes_of_next_kind next nofun
      split at read
      next counted =>
        obtain ⟨rfl, rfl⟩ := (reads_advance_pure takes).mp read
        rw [word.kinds_eq]
        rcases (reads_accept (by decide)).mp sign with ⟨rfl, minus⟩ | ⟨rfl, rfl, -⟩
        · rw [minus.kinds_eq, takes.kinds_eq]
          exact .negated _ counted
        · rw [takes.kinds_eq]
          exact .count _ counted
      next => exact absurd read not_reads_fail
    next => exact absurd read not_reads_fail
  · obtain ⟨rfl, rfl⟩ := reads_pure.mp read
    exact .absent _

theorem afterLet_sound {stream later : TokenStream} {tree : Expression}
    (read : Reads (afterLet nested) stream tree later) :
    Spells (levels + 1) (.expression tree) (.letWord :: stream.kinds) later.kinds := by
  obtain ⟨name, first, named, read⟩ := reads_expectName_bind.mp read
  obtain ⟨second, assign, read⟩ := (reads_expect_bind (by decide)).mp read
  obtain ⟨value, limit, valueRead, read⟩ := reads_bind.mp read
  obtain ⟨uses, third, usesRead, read⟩ := reads_bind.mp read
  obtain ⟨fourth, semicolon, read⟩ := (reads_expect_bind (by decide)).mp read
  obtain ⟨body, rest, bodyRead, read⟩ := reads_bind.mp read
  obtain ⟨rfl, rfl⟩ := reads_pure.mp read
  have limited := useLimit_sound usesRead
  rw [semicolon.kinds_eq] at limited
  rw [named.kinds_eq, assign.kinds_eq]
  exact .binding (disjunction_sound sound valueRead) limited (sound.expression bodyRead)

theorem branch_sound {stream later : TokenStream} {condition result : Expression}
    (read : Reads (branch nested) stream (condition, result) later) :
    ∃ first, Spells levels (.operands .disjunction condition) stream.kinds (.colon :: first) ∧
      Spells levels (.expression result) first later.kinds := by
  obtain ⟨tree, between, conditionRead, read⟩ := reads_bind.mp read
  obtain ⟨after, colon, read⟩ := (reads_expect_bind (by decide)).mp read
  obtain ⟨tree', rest, resultRead, read⟩ := reads_bind.mp read
  obtain ⟨same, rfl⟩ := reads_pure.mp read
  obtain ⟨rfl, rfl⟩ := Prod.mk.inj same
  have spelled := disjunction_sound sound conditionRead
  rw [colon.kinds_eq] at spelled
  exact ⟨after.kinds, spelled, sound.expression resultRead⟩

theorem branchesFrom_sound {later : TokenStream} :
    ∀ {steps : Nat} {stream : TokenStream} {branches : List (Expression × Expression)},
      Reads (branchesFrom nested steps) stream branches later →
      Spells levels (.further branches) stream.kinds later.kinds := by
  intro steps
  induction steps with
  | zero =>
    intro stream branches read
    obtain ⟨rfl, rfl⟩ := reads_pure.mp read
    exact .noFurther
  | succ steps inductionHypothesis =>
    intro stream branches read
    rcases (reads_accept_bind (by decide)).mp read with ⟨after, word, read⟩ | ⟨-, read⟩
    · obtain ⟨⟨condition, result⟩, between, branchRead, read⟩ := reads_bind.mp read
      obtain ⟨further, rest, furtherRead, read⟩ := reads_bind.mp read
      obtain ⟨rfl, rfl⟩ := reads_pure.mp read
      obtain ⟨first, conditionSpelled, resultSpelled⟩ := branch_sound sound branchRead
      rw [word.kinds_eq]
      exact .further conditionSpelled resultSpelled (inductionHypothesis furtherRead)
    · obtain ⟨rfl, rfl⟩ := reads_pure.mp read
      exact .noFurther

theorem afterIf_sound {stream later : TokenStream} {tree : Expression}
    (read : Reads (afterIf nested) stream tree later) :
    Spells (levels + 1) (.expression tree) (.ifWord :: stream.kinds) later.kinds := by
  obtain ⟨⟨condition, result⟩, between, branchRead, read⟩ := reads_bind.mp read
  obtain ⟨further, after, furtherRead, read⟩ := reads_bind.mp (reads_tokensLeft_bind.mp read)
  obtain ⟨first, word, read⟩ := (reads_expect_bind (by decide)).mp read
  obtain ⟨second, colon, read⟩ := (reads_expect_bind (by decide)).mp read
  obtain ⟨otherwise, rest, otherwiseRead, read⟩ := reads_bind.mp read
  obtain ⟨rfl, rfl⟩ := reads_pure.mp read
  obtain ⟨first, conditionSpelled, resultSpelled⟩ := branch_sound sound branchRead
  have furtherSpelled := branchesFrom_sound sound furtherRead
  rw [word.kinds_eq, colon.kinds_eq] at furtherSpelled
  exact .conditional conditionSpelled resultSpelled furtherSpelled
    (sound.expression otherwiseRead)

theorem ternary_sound : ReadsOnly (Parser.ternary nested) (levels + 1) .expression := by
  intro stream later tree read
  obtain ⟨condition, between, conditionRead, read⟩ := reads_bind.mp read
  have spelled := disjunction_sound sound conditionRead
  rcases (reads_accept_bind (by decide)).mp read with ⟨first, question, read⟩ | ⟨-, read⟩
  · obtain ⟨whenTrue, second, trueRead, read⟩ := reads_bind.mp read
    obtain ⟨third, colon, read⟩ := (reads_expect_bind (by decide)).mp read
    obtain ⟨whenFalse, rest, falseRead, read⟩ := reads_bind.mp read
    obtain ⟨rfl, rfl⟩ := reads_pure.mp read
    have trueSpelled := sound.expression trueRead
    rw [question.kinds_eq] at spelled
    rw [colon.kinds_eq] at trueSpelled
    exact .ternary spelled trueSpelled (sound.expression falseRead)
  · obtain ⟨rfl, rfl⟩ := reads_pure.mp read
    exact .alone spelled

theorem expression_sound : ReadsOnly (Parser.expression nested) (levels + 1) .expression := by
  intro stream later tree read
  unfold Parser.expression at read
  rw [reads_next_bind] at read
  split at read
  next word =>
    obtain ⟨after, takes⟩ := TokenStream.takes_of_next_kind word nofun
    rw [takes.kinds_eq]
    exact afterLet_sound sound ((reads_advance_bind takes).mp read)
  next word =>
    obtain ⟨after, takes⟩ := TokenStream.takes_of_next_kind word nofun
    rw [takes.kinds_eq]
    exact afterIf_sound sound ((reads_advance_bind takes).mp read)
  next => exact ternary_sound sound read

omit sound in
/-- What the parsers read with so many levels left is spelled within them. -/
theorem nestedWithin_sound (levels : Nat) : SoundWithin levels (nestedWithin levels) := by
  induction levels with
  | zero =>
    exact ⟨fun _ _ _ read => absurd read not_reads_fail, fun read => absurd read not_reads_fail,
      fun read => absurd read not_reads_fail⟩
  | succ levels inductionHypothesis =>
    exact ⟨expression_sound inductionHypothesis,
      fun read => ⟨levels, rfl, power_sound inductionHypothesis read⟩,
      fun read => ⟨levels, rfl, unary_sound inductionHypothesis read⟩⟩

end Grammar

end Reckon
