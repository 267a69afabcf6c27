/-
This file writes the grammar of expressions down as a relation. A derivation
says that a part of an expression is spelled at the front of a list of tokens,
and which tokens are left after it. What may follow a part is not asked, with
one exception: a name before an opening parenthesis, or before a type hint and
an opening parenthesis, is never a name alone.

A derivation also counts how many more of the parts that nest may be opened.
-/

import Reckon.Expression
import Reckon.Expression.Parser

namespace Reckon

namespace Grammar

/-! ### The rules that group from the left -/

/-- The rules whose operators group from the left, the loosest first. -/
inductive Rule where
  | disjunction
  | conjunction
  | equality
  | comparison
  | sum
  | product
  deriving DecidableEq

/-- The operator of a rule that a token stands for. -/
inductive Joins : Rule → TokenKind → BinaryOperator → Prop
  | or : Joins .disjunction .or .or
  | and : Joins .conjunction .and .and
  | equal : Joins .equality .equal .equal
  | notEqual : Joins .equality .notEqual .notEqual
  | less : Joins .comparison .less .less
  | greater : Joins .comparison .greater .greater
  | lessEqual : Joins .comparison .lessEqual .lessEqual
  | greaterEqual : Joins .comparison .greaterEqual .greaterEqual
  | plus : Joins .sum .plus .add
  | minus : Joins .sum .minus .subtract
  | star : Joins .product .star .multiply
  | slash : Joins .product .slash .divide
  | percent : Joins .product .percent .modulo

/-- How tightly a token binds what stands before it, if it can continue an expression. -/
def strength : TokenKind → Nat
  | .question => 1
  | .or => 2
  | .and => 3
  | .equal | .notEqual => 4
  | .less | .greater | .lessEqual | .greaterEqual => 5
  | .plus | .minus => 6
  | .star | .slash | .percent => 7
  | .caret => 8
  | _ => 0

/-- How tightly the operators of a rule bind. -/
def Rule.strength : Rule → Nat
  | .disjunction => 2
  | .conjunction => 3
  | .equality => 4
  | .comparison => 5
  | .sum => 6
  | .product => 7

theorem Joins.strength_eq {rule : Rule} {kind : TokenKind} {operator : BinaryOperator}
    (joins : Joins rule kind operator) : strength kind = rule.strength := by
  cases joins <;> rfl

theorem Joins.two_le_strength {rule : Rule} {kind : TokenKind} {operator : BinaryOperator}
    (joins : Joins rule kind operator) : 2 ≤ Grammar.strength kind := by
  cases joins <;> decide

theorem strength_lt_nine (kind : TokenKind) : strength kind < 9 := by
  unfold strength
  split <;> decide

theorem eq_caret_of_strength {kind : TokenKind} (same : strength kind = 8) : kind = .caret := by
  cases kind <;> first | rfl | cases same

theorem eq_question_of_strength {kind : TokenKind} (same : strength kind = 1) :
    kind = .question := by
  cases kind <;> first | rfl | cases same

/-! ### The parts of an expression -/

/-- A part of an expression, as a rule of the grammar reads it. -/
inductive Phrase where
  | expression (tree : Expression)
  | operands (rule : Rule) (tree : Expression)
  | power (tree : Expression)
  | unary (tree : Expression)
  | primary (tree : Expression)
  | arguments (trees : List Expression)
  | further (branches : List (Expression × Expression))

/-- The operands between the operators of a rule: those of the next tighter rule. -/
def Rule.operand : Rule → Expression → Phrase
  | .disjunction => .operands .conjunction
  | .conjunction => .operands .equality
  | .equality => .operands .comparison
  | .comparison => .operands .sum
  | .sum => .operands .product
  | .product => .power

/-- Arguments are opened after a name, by a parenthesis or by a type hint and one. -/
inductive Opens : List TokenKind → Option String → List TokenKind → Prop
  | parenthesis (rest : List TokenKind) : Opens (.leftParen :: rest) none rest
  | hint (hint : String) (rest : List TokenKind) :
      Opens (.less :: .name hint :: .greater :: .leftParen :: rest) (some hint) rest

/-- The use limit of a binding. A count of zero is none. -/
inductive Limits : UseLimit → List TokenKind → List TokenKind → Prop
  | absent (rest : List TokenKind) : Limits .unlimited rest rest
  | count {uses : UseLimit} {number : Int64} (rest : List TokenKind)
      (counted : UseLimit.ofCount? number.toInt = some uses) :
      Limits uses (.asWord :: .integer number :: rest) rest
  | negated {uses : UseLimit} {number : Int64} (rest : List TokenKind)
      (counted : UseLimit.ofCount? (-number.toInt) = some uses) :
      Limits uses (.asWord :: .minus :: .integer number :: rest) rest

/-- A part of an expression is spelled at the front of the tokens, with the second list of
tokens left after it and so many nested parts open at once at most. An expression, the operand
of a unary operator and the right side of `^` nest. -/
inductive Spells : Nat → Phrase → List TokenKind → List TokenKind → Prop
  | binding {levels name value uses body input limit after rest}
      (valueSpelled : Spells levels (.operands .disjunction value) input limit)
      (limited : Limits uses limit (.semicolon :: after))
      (bodySpelled : Spells levels (.expression body) after rest) :
      Spells (levels + 1) (.expression (.binding name value uses body))
        (.letWord :: .name name :: .assign :: input) rest
  | conditional {levels condition result branches otherwise input first after final rest}
      (conditionSpelled : Spells levels (.operands .disjunction condition) input
        (.colon :: first))
      (resultSpelled : Spells levels (.expression result) first after)
      (furtherSpelled : Spells levels (.further branches) after (.elseWord :: .colon :: final))
      (otherwiseSpelled : Spells levels (.expression otherwise) final rest) :
      Spells (levels + 1)
        (.expression (.conditional ((condition, result) :: branches) (some otherwise)))
        (.ifWord :: input) rest
  | ternary {levels condition whenTrue whenFalse input first second rest}
      (conditionSpelled : Spells levels (.operands .disjunction condition) input
        (.question :: first))
      (trueSpelled : Spells levels (.expression whenTrue) first (.colon :: second))
      (falseSpelled : Spells levels (.expression whenFalse) second rest) :
      Spells (levels + 1) (.expression (.ternary condition whenTrue whenFalse)) input rest
  | alone {levels tree input rest}
      (spelled : Spells levels (.operands .disjunction tree) input rest) :
      Spells (levels + 1) (.expression tree) input rest
  | noFurther {levels rest} : Spells levels (.further []) rest rest
  | further {levels condition result branches input first after rest}
      (conditionSpelled : Spells levels (.operands .disjunction condition) input
        (.colon :: first))
      (resultSpelled : Spells levels (.expression result) first after)
      (furtherSpelled : Spells levels (.further branches) after rest) :
      Spells levels (.further ((condition, result) :: branches)) (.elifWord :: input) rest
  | operand {levels tree input rest} (rule : Rule)
      (spelled : Spells levels (rule.operand tree) input rest) :
      Spells levels (.operands rule tree) input rest
  | join {levels rule kind operator left right input after rest}
      (joins : Joins rule kind operator)
      (leftSpelled : Spells levels (.operands rule left) input (kind :: after))
      (rightSpelled : Spells levels (rule.operand right) after rest) :
      Spells levels (.operands rule (.binary operator left right)) input rest
  | base {levels tree input rest} (spelled : Spells levels (.unary tree) input rest) :
      Spells levels (.power tree) input rest
  | raise {levels base exponent input after rest}
      (baseSpelled : Spells (levels + 1) (.unary base) input (.caret :: after))
      (exponentSpelled : Spells levels (.power exponent) after rest) :
      Spells (levels + 1) (.power (.binary .power base exponent)) input rest
  | negate {levels operand input rest}
      (operandSpelled : Spells levels (.unary operand) input rest) :
      Spells (levels + 1) (.unary (.unary .negate operand)) (.minus :: input) rest
  | not {levels operand input rest}
      (operandSpelled : Spells levels (.unary operand) input rest) :
      Spells (levels + 1) (.unary (.unary .not operand)) (.not :: input) rest
  | primary {levels tree input rest} (spelled : Spells levels (.primary tree) input rest) :
      Spells levels (.unary tree) input rest
  | integer {levels number rest} :
      Spells levels (.primary (.integer number)) (.integer number :: rest) rest
  | float {levels number rest} :
      Spells levels (.primary (.float number)) (.float number :: rest) rest
  | text {levels content rest} :
      Spells levels (.primary (.text content)) (.text content :: rest) rest
  | boolean {levels truth rest} :
      Spells levels (.primary (.boolean truth)) (.boolean truth :: rest) rest
  | null {levels rest} : Spells levels (.primary .null) (.null :: rest) rest
  | grouping {levels inner input rest}
      (innerSpelled : Spells levels (.expression inner) input (.rightParen :: rest)) :
      Spells levels (.primary (.grouping inner)) (.leftParen :: input) rest
  | cast {levels typeName inner input rest}
      (innerSpelled : Spells levels (.expression inner) input (.rightParen :: rest)) :
      Spells levels (.primary (.cast typeName inner))
        (.outWord :: .less :: .name typeName :: .greater :: .leftParen :: input) rest
  | «variable» {levels name rest} (noCall : ∀ hint after, ¬ Opens rest hint after) :
      Spells levels (.primary (.variable name)) (.name name :: rest) rest
  | emptyCall {levels name hint input rest} (opens : Opens input hint (.rightParen :: rest)) :
      Spells levels (.primary (.call name hint [])) (.name name :: input) rest
  | call {levels name hint arguments input after rest} (opens : Opens input hint after)
      (argumentsSpelled : Spells levels (.arguments arguments) after (.rightParen :: rest)) :
      Spells levels (.primary (.call name hint arguments)) (.name name :: input) rest
  | lastArgument {levels argument input rest}
      (spelled : Spells levels (.expression argument) input rest) :
      Spells levels (.arguments [argument]) input rest
  | arguments {levels argument arguments input after rest}
      (spelled : Spells levels (.expression argument) input (.comma :: after))
      (argumentsSpelled : Spells levels (.arguments arguments) after rest) :
      Spells levels (.arguments (argument :: arguments)) input rest

/-- Where an operand without operators stands alone it is an expression. -/
theorem Spells.expression_of_primary {levels : Nat} {tree : Expression}
    {input rest : List TokenKind} (spelled : Spells levels (.primary tree) input rest) :
    Spells (levels + 1) (.expression tree) input rest :=
  .alone (.operand .disjunction (.operand .conjunction (.operand .equality (.operand .comparison
    (.operand .sum (.operand .product (.base (.primary spelled))))))))

/-- Tokens spell a whole expression, with no more than the greatest number of nested parts open
at once. -/
def Derives (input : List TokenKind) (tree : Expression) : Prop :=
  Spells nestingLimit (.expression tree) input []

/-! ### What a derivation leaves -/

theorem Opens.suffix {input rest : List TokenKind} {hint : Option String}
    (opens : Opens input hint rest) : rest <:+ input := by
  cases opens with
  | parenthesis => exact List.suffix_cons _ _
  | hint => exact ⟨[.less, .name _, .greater, .leftParen], rfl⟩

theorem Limits.suffix {uses : UseLimit} {input rest : List TokenKind}
    (limited : Limits uses input rest) : rest <:+ input := by
  cases limited with
  | absent => exact List.suffix_rfl
  | count => exact ⟨[.asWord, .integer _], rfl⟩
  | negated => exact ⟨[.asWord, .minus, .integer _], rfl⟩

theorem Opens.eq_of_none {input rest : List TokenKind} (opens : Opens input none rest) :
    input = .leftParen :: rest := by
  cases opens
  rfl

theorem Opens.eq_of_hint {input rest : List TokenKind} {hint : String}
    (opens : Opens input (some hint) rest) :
    input = .less :: .name hint :: .greater :: .leftParen :: rest := by
  cases opens
  rfl

/-- Whether tokens open arguments after a name. -/
def opensArguments : List TokenKind → Bool
  | .leftParen :: _ => true
  | .less :: .name _ :: .greater :: .leftParen :: _ => true
  | _ => false

theorem Opens.opensArguments {input rest : List TokenKind} {hint : Option String}
    (opens : Opens input hint rest) : opensArguments input = true := by
  cases opens <;> rfl

theorem opensArguments_eq_false {input : List TokenKind}
    (noCall : ∀ hint after, ¬ Opens input hint after) : opensArguments input = false := by
  unfold Grammar.opensArguments
  split
  · exact absurd (Opens.parenthesis _) (noCall _ _)
  · exact absurd (Opens.hint _ _) (noCall _ _)
  · rfl

/-- What follows a token at the end of a list is at the end of the list. -/
theorem suffix_of_cons_suffix {kind : TokenKind} {input rest : List TokenKind}
    (suffix : kind :: rest <:+ input) : rest <:+ input :=
  (List.suffix_cons kind rest).trans suffix

/-- A part of an expression is spelled at the front of the tokens: the rest of them is left. -/
theorem Spells.suffix {levels : Nat} {phrase : Phrase} {input rest : List TokenKind}
    (spelled : Spells levels phrase input rest) : rest <:+ input := by
  induction spelled with
  | binding _ limited _ valueSuffix bodySuffix =>
    have limit := suffix_of_cons_suffix (limited.suffix.trans valueSuffix)
    exact (bodySuffix.trans limit).trans ⟨[.letWord, .name _, .assign], rfl⟩
  | conditional _ _ _ _ conditionSuffix resultSuffix furtherSuffix otherwiseSuffix =>
    have first := suffix_of_cons_suffix conditionSuffix
    have final := suffix_of_cons_suffix (suffix_of_cons_suffix furtherSuffix)
    exact (otherwiseSuffix.trans (final.trans (resultSuffix.trans first))).trans
      (List.suffix_cons _ _)
  | ternary _ _ _ conditionSuffix trueSuffix falseSuffix =>
    exact falseSuffix.trans ((suffix_of_cons_suffix trueSuffix).trans
      (suffix_of_cons_suffix conditionSuffix))
  | further _ _ _ conditionSuffix resultSuffix furtherSuffix =>
    exact (furtherSuffix.trans (resultSuffix.trans (suffix_of_cons_suffix conditionSuffix))).trans
      (List.suffix_cons _ _)
  | join _ _ _ leftSuffix rightSuffix =>
    exact rightSuffix.trans (suffix_of_cons_suffix leftSuffix)
  | raise _ _ baseSuffix exponentSuffix =>
    exact exponentSuffix.trans (suffix_of_cons_suffix baseSuffix)
  | arguments _ _ firstSuffix restSuffix =>
    exact restSuffix.trans (suffix_of_cons_suffix firstSuffix)
  | noFurther => exact List.suffix_rfl
  | alone _ suffix | operand _ _ suffix | base _ suffix | primary _ suffix
  | lastArgument _ suffix => exact suffix
  | negate _ suffix | not _ suffix => exact suffix.trans (List.suffix_cons _ _)
  | grouping _ suffix =>
    exact (suffix_of_cons_suffix suffix).trans (List.suffix_cons _ _)
  | cast _ suffix =>
    exact (suffix_of_cons_suffix suffix).trans
      ⟨[.outWord, .less, .name _, .greater, .leftParen], rfl⟩
  | emptyCall opens =>
    exact (suffix_of_cons_suffix opens.suffix).trans (List.suffix_cons _ _)
  | call opens _ suffix =>
    exact ((suffix_of_cons_suffix suffix).trans opens.suffix).trans (List.suffix_cons _ _)
  | integer | float | text | boolean | null | «variable» => exact List.suffix_cons _ _

/-- An operand begins with a token that neither opens an expression with a reserved word nor
closes anything. -/
def beginsOperand : TokenKind → Bool
  | .integer _ | .float _ | .text _ | .boolean _ | .null | .name _ | .outWord | .leftParen
  | .minus | .not => true
  | _ => false

namespace Phrase

/-- Whether a part of an expression is an operand of some rule. -/
def isOperand : Phrase → Bool
  | .operands _ _ | .power _ | .unary _ | .primary _ => true
  | _ => false

end Phrase

theorem Rule.isOperand_operand (rule : Rule) (tree : Expression) :
    (rule.operand tree).isOperand = true := by
  cases rule <;> rfl

/-- Operands begin with a token that can begin one. -/
theorem Spells.begins {levels : Nat} {phrase : Phrase} {input rest : List TokenKind}
    (spelled : Spells levels phrase input rest) (operand : phrase.isOperand = true) :
    ∃ kind after, input = kind :: after ∧ beginsOperand kind = true := by
  induction spelled with
  | binding | conditional | ternary | alone | noFurther | further | lastArgument | arguments =>
    cases operand
  | operand rule _ inductionHypothesis =>
    exact inductionHypothesis (rule.isOperand_operand _)
  | join _ _ _ inductionHypothesis | base _ inductionHypothesis
  | raise _ _ inductionHypothesis | primary _ inductionHypothesis => exact inductionHypothesis rfl
  | negate | not | integer | float | text | boolean | null | grouping | cast | «variable»
  | emptyCall | call => exact ⟨_, _, rfl, rfl⟩

theorem Spells.begins_expression {levels : Nat} {tree : Expression} {input rest : List TokenKind}
    (spelled : Spells levels (.expression tree) input rest) :
    ∃ kind after, input = kind :: after ∧
      (kind = .letWord ∨ kind = .ifWord ∨ beginsOperand kind = true) := by
  cases spelled with
  | binding => exact ⟨_, _, rfl, .inl rfl⟩
  | conditional => exact ⟨_, _, rfl, .inr (.inl rfl)⟩
  | ternary spelled | alone spelled =>
    obtain ⟨kind, after, same, begins⟩ := spelled.begins rfl
    exact ⟨kind, after, same, .inr (.inr begins)⟩

theorem Spells.head_ne_rightParen {levels : Nat} {arguments : List Expression}
    {input rest : List TokenKind} (spelled : Spells levels (.arguments arguments) input rest) :
    input.head? ≠ some .rightParen := by
  have first : ∃ tree rest, Spells levels (.expression tree) input rest := by
    cases spelled with
    | lastArgument spelled | arguments spelled => exact ⟨_, _, spelled⟩
  obtain ⟨tree, rest, spelled⟩ := first
  obtain ⟨kind, after, rfl, begins⟩ := spelled.begins_expression
  intro same
  cases same
  rcases begins with same | same | same <;> cases same

theorem Spells.begins_primary {levels : Nat} {tree : Expression} {input rest : List TokenKind}
    (spelled : Spells levels (.primary tree) input rest) :
    ∃ kind after, input = kind :: after ∧ kind ≠ .minus ∧ kind ≠ .not := by
  cases spelled <;> exact ⟨_, _, rfl, nofun, nofun⟩

end Grammar

end Reckon
