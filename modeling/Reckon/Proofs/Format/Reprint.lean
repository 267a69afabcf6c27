/-
This file shows how each part of an expression that was read from a text is
written again. The tokens of the new text are those of the old one, but for the
use limits: a limit is written as the count that it allows, and none is written
where none is set.

A part is written again before whatever becomes of the tokens after it, so the
lemmas go from the end of a text to its front.
-/

import Reckon.Proofs.Format.Phrases
import Reckon.Proofs.Format.Pieces

namespace Reckon

namespace Grammar

/-! ### Tokens that are written again -/

/-- How the tokens of a text are written again: use limits are written as the counts they allow,
and counts that set no limit are left out. -/
inductive Rewrites : List TokenKind → List TokenKind → Prop
  | nil : Rewrites [] []
  | keep {input output} (kind : TokenKind) (rest : Rewrites input output) :
      Rewrites (kind :: input) (kind :: output)
  | count {input output} (number written : Int64) (rest : Rewrites input output) :
      Rewrites (.asWord :: .integer number :: .semicolon :: input)
        (.asWord :: .integer written :: .semicolon :: output)
  | drop {input output} (number : Int64) (rest : Rewrites input output) :
      Rewrites (.asWord :: .minus :: .integer number :: .semicolon :: input)
        (.semicolon :: output)

/-- What opens the arguments of a call is written again as it was. -/
theorem Rewrites.opens {input output after : List TokenKind} {hint : Option String}
    (rewrites : Rewrites input output) (opens : Opens output hint after) :
    ∃ before, Opens input hint before := by
  cases opens with
  | parenthesis =>
    cases rewrites with
    | keep _ _ => exact ⟨_, .parenthesis _⟩
  | hint =>
    cases rewrites with
    | keep _ rest =>
      cases rest with
      | keep _ rest =>
        cases rest with
        | keep _ rest =>
          cases rest with
          | keep _ _ => exact ⟨_, .hint _ _⟩

theorem Rewrites.keepAll {input output : List TokenKind} (kinds : List TokenKind)
    (rewrites : Rewrites input output) : Rewrites (kinds ++ input) (kinds ++ output) := by
  induction kinds with
  | nil => exact rewrites
  | cons kind kinds inductionHypothesis => exact inductionHypothesis.keep kind

/-- A part of an expression that is spelled before some tokens can be written again before what
becomes of these tokens. Its new tokens do not depend on the layout. -/
def Reprints (levels : Nat) (phrase : Phrase) (input rest : List TokenKind) : Prop :=
  ∀ output, Rewrites rest output → ∃ words, Spells levels phrase (words ++ output) output ∧
    Rewrites input (words ++ output) ∧ ∀ layout level, Prints (phrase.pieces layout level) words

variable {levels : Nat} {input rest : List TokenKind} {tree : Expression}

/-! ### Use limits -/

/-- The tokens of a use limit as it is written. -/
def limitWords : UseLimit → List TokenKind
  | .unlimited => []
  | .limited count => [.asWord, .integer (Int64.ofInt count)]

theorem ofCount?_of_nonneg {count : Int} {uses : UseLimit} (nonneg : 0 ≤ count)
    (counted : UseLimit.ofCount? count = some uses) :
    ∃ number, uses = .limited number ∧ 0 < number ∧ number ≤ UseLimit.greatestCount := by
  unfold UseLimit.ofCount? at counted
  by_cases zero : count = 0
  · rw [if_pos zero] at counted
    cases counted
  · rw [if_neg zero, if_neg (Int.not_lt_of_ge nonneg)] at counted
    cases counted
    have greatest : 0 < UseLimit.greatestCount := by decide
    exact ⟨_, rfl, by omega, Nat.min_le_right _ _⟩

theorem ofCount?_of_neg {count : Int} {uses : UseLimit} (nonneg : 0 ≤ count)
    (counted : UseLimit.ofCount? (-count) = some uses) : uses = .unlimited := by
  unfold UseLimit.ofCount? at counted
  by_cases zero : -count = 0
  · rw [if_pos zero] at counted
    cases counted
  · rw [if_neg zero, if_pos (by omega)] at counted
    cases counted
    rfl

theorem fitsInt64_of_count {number : Nat} (bound : number ≤ UseLimit.greatestCount) :
    fitsInt64 number = true := by
  have greatest : UseLimit.greatestCount = 4294967295 := by decide
  refine decide_eq_true ?_
  rw [Int64.toInt_minValue, Int64.toInt_maxValue]
  omega

/-- The count of a limit is read as the limit, if it is one that is told apart. -/
theorem limits_limitWords {uses : UseLimit}
    (counts : ∀ count, uses = .limited count → 1 ≤ count ∧ count ≤ UseLimit.greatestCount)
    (rest : List TokenKind) : Limits uses (limitWords uses ++ rest) rest := by
  cases uses with
  | unlimited => exact .absent rest
  | limited count =>
    obtain ⟨positive, bound⟩ := counts count rfl
    refine .count rest ?_
    rw [toInt_ofInt_of_fits (fitsInt64_of_count bound)]
    unfold UseLimit.ofCount?
    rw [if_neg (by omega), if_neg (by omega), Int.toNat_natCast, Nat.min_eq_left bound]

theorem prints_limit {uses : UseLimit}
    (counts : ∀ count, uses = .limited count → 1 ≤ count ∧ count ≤ UseLimit.greatestCount) :
    Prints uses.pieces (limitWords uses) := by
  cases uses with
  | unlimited => exact prints_nil
  | limited count =>
    have fits := fitsInt64_of_count (counts count rfl).2
    exact printsApart_as.before (prints_integer fits)

/-- A limit of a binding, as it is written, is read as the same limit. -/
theorem Limits.rewritten {uses : UseLimit} {limit after output : List TokenKind}
    (limited : Limits uses limit (.semicolon :: after)) (readable : ∀ kind ∈ limit, Readable kind)
    (rewrites : Rewrites after output) :
    Limits uses (limitWords uses ++ .semicolon :: output) (.semicolon :: output) ∧
      Rewrites limit (limitWords uses ++ .semicolon :: output) ∧
      Prints uses.pieces (limitWords uses) := by
  cases limited with
  | absent => exact ⟨.absent _, rewrites.keep _, prints_nil⟩
  | @count _ number _ counted =>
    have nonneg : 0 ≤ number.toInt := readable (.integer number) (by simp)
    obtain ⟨count, rfl, positive, bound⟩ := ofCount?_of_nonneg nonneg counted
    have counts : ∀ other, UseLimit.limited count = .limited other →
        1 ≤ other ∧ other ≤ UseLimit.greatestCount := by
      rintro _ ⟨⟩
      exact ⟨positive, bound⟩
    exact ⟨limits_limitWords counts _, .count _ _ rewrites, prints_limit counts⟩
  | @negated _ number _ counted =>
    have nonneg : 0 ≤ number.toInt := readable (.integer number) (by simp)
    obtain rfl := ofCount?_of_neg nonneg counted
    exact ⟨.absent _, .drop _ rewrites, prints_nil⟩

/-! ### The parts of an expression -/

theorem parenthesised_of_not {needed : Bool} {pieces : List Piece} (notNeeded : needed = false) :
    parenthesised needed pieces = pieces := by
  rw [notNeeded]
  rfl

/-- The same tokens can be written again as another part with the same pieces. -/
theorem Reprints.lift {levels' : Nat} {phrase phrase' : Phrase}
    (reprints : Reprints levels phrase input rest)
    (lift : ∀ {input rest}, Spells levels phrase input rest → Spells levels' phrase' input rest)
    (pieces : ∀ layout level, phrase'.pieces layout level = phrase.pieces layout level) :
    Reprints levels' phrase' input rest := by
  intro output rewrites
  obtain ⟨words, spelled, rewritten, prints⟩ := reprints output rewrites
  refine ⟨words, lift spelled, rewritten, fun layout level => ?_⟩
  rw [pieces]
  exact prints layout level

/-- A literal or a reserved word is written as one token. -/
theorem Reprints.single {kind : TokenKind} {word : String}
    (spelled : ∀ {rest}, Spells levels (.primary tree) (kind :: rest) rest)
    (pieces : ∀ layout level, tree.pieces layout level = [.word word])
    (prints : Prints [.word word] [kind]) :
    Reprints levels (.primary tree) (kind :: rest) rest := by
  intro output rewrites
  refine ⟨[kind], spelled, rewrites.keep kind, fun layout level => ?_⟩
  show Prints (tree.pieces layout level) [kind]
  rw [pieces]
  exact prints

theorem prints_toInt {number : Int64} (nonneg : 0 ≤ number.toInt) :
    Prints [.word (toString number.toInt)] [.integer number] := by
  obtain ⟨magnitude, same⟩ := Int.eq_ofNat_of_zero_le nonneg
  have fits : fitsInt64 (magnitude : Int) = true := by
    refine decide_eq_true ?_
    rw [← same]
    exact ⟨Int64.minValue_le_toInt number, Int64.toInt_le number⟩
  have prints := prints_integer fits
  rw [← same, Int64.ofInt_toInt] at prints
  rw [same]
  exact prints

/-- Two parts with a token between them are written again as one part, if its pieces are theirs
with the piece of the token between. -/
theorem Reprints.around {leftLevels rightLevels : Nat} {left right whole : Phrase}
    {kind : TokenKind} {after : List TokenKind} {between : List Piece}
    (leftReprints : Reprints leftLevels left input (kind :: after))
    (rightReprints : Reprints rightLevels right after rest)
    (spelled : ∀ {input after rest}, Spells leftLevels left input (kind :: after) →
      Spells rightLevels right after rest → Spells levels whole input rest)
    (apart : PrintsApart between [kind]) (ends : ∀ tail, Ends (Reckon.spelled between ++ tail))
    (pieces : ∀ layout level, whole.pieces layout level =
      left.pieces layout level ++ between ++ right.pieces layout level) :
    Reprints levels whole input rest := by
  intro output rewrites
  obtain ⟨rightWords, rightSpelled, rightRewrites, rightPrints⟩ := rightReprints output rewrites
  obtain ⟨leftWords, leftSpelled, leftRewrites, leftPrints⟩ :=
    leftReprints _ (rightRewrites.keep kind)
  refine ⟨leftWords ++ kind :: rightWords, ?_, ?_, fun layout level => ?_⟩
  · rw [List.append_assoc]
    exact spelled leftSpelled rightSpelled
  · rw [List.append_assoc]
    exact leftRewrites
  · have prints := ((leftPrints layout level).before apart ends).before (rightPrints layout level)
    rw [List.append_assoc leftWords] at prints
    rw [pieces]
    exact prints

theorem Reprints.join {rule : Rule} {kind : TokenKind} {operator : BinaryOperator}
    {left right : Expression} {after : List TokenKind} (joins : Joins rule kind operator)
    (leftReprints : Reprints levels (.operands rule left) input (kind :: after))
    (leftTight : Tight rule.strength left)
    (rightReprints : Reprints levels (rule.operand right) after rest)
    (rightTight : Tight (rule.strength + 1) right) :
    Reprints levels (.operands rule (.binary operator left right)) input rest := by
  have prints := printsApart_operator operator
  rw [← joins.kind_eq] at prints
  refine leftReprints.around rightReprints (.join joins) prints
    (ends_between _) fun layout level => ?_
  obtain ⟨strength, groupsLeft⟩ := joins.precedence_eq
  show Expression.pieces layout level (.binary operator left right) = _
  rw [Expression.pieces, rule.pieces_operand,
    parenthesised_of_not (leftTight.needsParentheses (by omega) (.inl groupsLeft.symm)),
    parenthesised_of_not (rightTight.needsParentheses (by omega) (.inr (by omega)))]
  rfl

theorem Reprints.raise {base exponent : Expression} {after : List TokenKind}
    (baseReprints : Reprints (levels + 1) (.unary base) input (.caret :: after))
    (baseTight : Tight 9 base)
    (exponentReprints : Reprints levels (.power exponent) after rest)
    (exponentTight : Tight 8 exponent) :
    Reprints (levels + 1) (.power (.binary .power base exponent)) input rest := by
  refine baseReprints.around exponentReprints .raise (printsApart_operator .power) (ends_between _)
    fun layout level => ?_
  have baseNeedless : base.needsParentheses .power false = false :=
    baseTight.needsParentheses (by decide) (.inr (by decide))
  have exponentNeedless : exponent.needsParentheses .power true = false :=
    exponentTight.needsParentheses (by decide) (.inl rfl)
  show Expression.pieces layout level (.binary .power base exponent) = _
  rw [Expression.pieces, parenthesised_of_not baseNeedless, parenthesised_of_not exponentNeedless]
  rfl

/-- A unary operator is written before its operand, which needs no parentheses. -/
theorem Reprints.unary {operator : UnaryOperator} {operand : Expression}
    (spelled : ∀ {input rest}, Spells levels (.unary operand) input rest →
      Spells (levels + 1) (.unary (.unary operator operand)) (operator.kind :: input) rest)
    (operandReprints : Reprints levels (.unary operand) input rest)
    (operandTight : Tight 9 operand) :
    Reprints (levels + 1) (.unary (.unary operator operand)) (operator.kind :: input) rest := by
  intro output rewrites
  obtain ⟨words, operandSpelled, operandRewrites, operandPrints⟩ :=
    operandReprints output rewrites
  refine ⟨operator.kind :: words, spelled operandSpelled, operandRewrites.keep operator.kind,
    fun layout level => ?_⟩
  have needless : operand.needsUnaryParentheses = false := by
    unfold Expression.needsUnaryParentheses
    rw [operandTight.closed, operandTight.outerOperator?_eq_none]
    rfl
  show Prints (Expression.pieces layout level (.unary operator operand)) _
  rw [Expression.pieces, parenthesised_of_not needless]
  exact (printsApart_unaryOperator operator).before (operandPrints layout level)

theorem Reprints.ternary {condition whenTrue whenFalse : Expression}
    {first second : List TokenKind}
    (conditionReprints : Reprints levels (.operands .disjunction condition) input
      (.question :: first))
    (conditionTight : Tight 2 condition)
    (trueReprints : Reprints levels (.expression whenTrue) first (.colon :: second))
    (falseReprints : Reprints levels (.expression whenFalse) second rest) :
    Reprints (levels + 1) (.expression (.ternary condition whenTrue whenFalse)) input rest := by
  intro output rewrites
  obtain ⟨falseWords, falseSpelled, falseRewrites, falsePrints⟩ := falseReprints output rewrites
  obtain ⟨trueWords, trueSpelled, trueRewrites, truePrints⟩ :=
    trueReprints _ (falseRewrites.keep .colon)
  obtain ⟨conditionWords, conditionSpelled, conditionRewrites, conditionPrints⟩ :=
    conditionReprints _ (trueRewrites.keep .question)
  refine ⟨conditionWords ++ .question :: (trueWords ++ .colon :: falseWords), ?_, ?_,
    fun layout level => ?_⟩
  · simp only [List.append_assoc, List.cons_append]
    exact .ternary conditionSpelled trueSpelled falseSpelled
  · simp only [List.append_assoc, List.cons_append]
    exact conditionRewrites
  · have asked := (conditionPrints layout level).before printsApart_question (ends_between _)
    have chosen := (asked.before (truePrints layout level)).before printsApart_choice
      (ends_between _)
    have prints := chosen.before (falsePrints layout level)
    simp only [List.append_assoc, List.singleton_append] at prints
    show Prints (Expression.pieces layout level (.ternary condition whenTrue whenFalse)) _
    rw [Expression.pieces, parenthesised_of_not conditionTight.closed]
    simp only [List.append_assoc]
    exact prints

theorem ends_limit (uses : UseLimit) (layout : Layout) (level : Nat) (tail : List Char) :
    Ends (spelled (uses.pieces ++ [.word ";", layout.lineBreak level]) ++ tail) := by
  cases uses with
  | unlimited => exact (rfl : endsWord ';' = true)
  | limited count => exact (rfl : endsWord ' ' = true)

theorem printsApart_semicolon_lineBreak (layout : Layout) (level : Nat) :
    PrintsApart [.word ";", layout.lineBreak level] [.semicolon] :=
  printsApart_semicolon.append (printsApart_lineBreak layout level)

theorem printsApart_colon_lineBreak (layout : Layout) (level : Nat) :
    PrintsApart [.word ":", layout.lineBreak level] [.colon] :=
  printsApart_colon.append (printsApart_lineBreak layout level)

theorem Reprints.binding {name : String} {value body : Expression} {uses : UseLimit}
    {limit after : List TokenKind} (isName : IsName name)
    (valueReprints : Reprints levels (.operands .disjunction value) input limit)
    (valueTight : Tight 2 value) (limited : Limits uses limit (.semicolon :: after))
    (readable : ∀ kind ∈ limit, Readable kind)
    (bodyReprints : Reprints levels (.expression body) after rest) :
    Reprints (levels + 1) (.expression (.binding name value uses body))
      (.letWord :: .name name :: .assign :: input) rest := by
  intro output rewrites
  obtain ⟨bodyWords, bodySpelled, bodyRewrites, bodyPrints⟩ := bodyReprints output rewrites
  obtain ⟨limitSpelled, limitRewrites, limitPrints⟩ := limited.rewritten readable bodyRewrites
  obtain ⟨valueWords, valueSpelled, valueRewrites, valuePrints⟩ := valueReprints _ limitRewrites
  refine ⟨.letWord :: .name name :: .assign ::
    (valueWords ++ (limitWords uses ++ .semicolon :: bodyWords)), ?_, ?_, fun layout level => ?_⟩
  · simp only [List.append_assoc, List.cons_append]
    exact .binding valueSpelled limitSpelled bodySpelled
  · simp only [List.append_assoc, List.cons_append]
    exact ((valueRewrites.keep _).keep _).keep _
  · have word : Prints [.word "let"] [.letWord] := prints_reserved "let" rfl rfl (by decide)
    have named := (word.space.before (prints_name isName)).before printsApart_assign
      (ends_between _)
    have limits := limitPrints.before (printsApart_semicolon_lineBreak layout level)
      fun tail => (rfl : endsWord ';' = true)
    have prints := ((named.before (valuePrints layout level)).before limits
      (ends_limit uses layout level)).before (bodyPrints layout level)
    simp only [List.append_assoc, List.cons_append, List.nil_append] at prints
    show Prints (Expression.pieces layout level (.binding name value uses body)) _
    rw [Expression.pieces, parenthesised_of_not valueTight.closed]
    simp only [List.append_assoc, List.cons_append, List.nil_append]
    exact prints

/-- The pieces of a branch after its reserved word. -/
def branchBody (layout : Layout) (level : Nat) (condition result : Expression) : List Piece :=
  condition.pieces layout level ++ ([.word ":", layout.lineBreak (level + 1)] ++
    result.pieces layout (layout.inner level))

/-- A condition and a result are written again as a branch without its reserved word. -/
theorem Reprints.branch {condition result : Expression} {first : List TokenKind}
    (conditionReprints : Reprints levels (.operands .disjunction condition) input
      (.colon :: first))
    (resultReprints : Reprints levels (.expression result) first rest) :
    ∀ output, Rewrites rest output → ∃ words between,
      Spells levels (.operands .disjunction condition) (words ++ output) (.colon :: between) ∧
      Spells levels (.expression result) between output ∧ Rewrites input (words ++ output) ∧
      ∀ layout level, Prints (branchBody layout level condition result) words := by
  intro output rewrites
  obtain ⟨resultWords, resultSpelled, resultRewrites, resultPrints⟩ :=
    resultReprints output rewrites
  obtain ⟨conditionWords, conditionSpelled, conditionRewrites, conditionPrints⟩ :=
    conditionReprints _ (resultRewrites.keep .colon)
  refine ⟨conditionWords ++ .colon :: resultWords, resultWords ++ output, ?_, resultSpelled, ?_,
    fun layout level => ?_⟩
  · rw [List.append_assoc]
    exact conditionSpelled
  · rw [List.append_assoc]
    exact conditionRewrites
  · have prints := ((conditionPrints layout level).before
      (printsApart_colon_lineBreak layout (level + 1))
      fun tail => (rfl : endsWord ':' = true)).before (resultPrints layout (layout.inner level))
    rw [List.append_assoc, List.append_assoc] at prints
    exact prints

theorem branchPieces_cons (layout : Layout) (level : Nat) (isFirst : Bool)
    {condition result : Expression} (tight : Tight 2 condition)
    (rest : List (Expression × Expression)) :
    Expression.branchPieces layout level isFirst ((condition, result) :: rest) =
      (if isFirst then [.word "if", .space] else [layout.lineBreak level, .word "elif", .space]) ++
        (branchBody layout level condition result ++
          Expression.branchPieces layout level false rest) := by
  rw [Expression.branchPieces, parenthesised_of_not tight.closed]
  unfold branchBody
  simp only [List.append_assoc]

theorem ends_branchPieces (layout : Layout) (level : Nat)
    (branches : List (Expression × Expression)) {tail : List Char} (ends : Ends tail) :
    Ends (spelled (Expression.branchPieces layout level false branches) ++ tail) := by
  cases branches with
  | nil =>
    rw [Expression.branchPieces]
    exact ends
  | cons branch rest =>
    rw [Expression.branchPieces]
    simp only [Bool.false_eq_true, if_false, List.append_assoc, List.cons_append]
    exact ends_lineBreak layout level _ tail

theorem Reprints.noFurther (levels : Nat) (rest : List TokenKind) :
    Reprints levels (.further []) rest rest := by
  intro output rewrites
  refine ⟨[], .noFurther, rewrites, fun layout level => ?_⟩
  show Prints (Expression.branchPieces layout level false []) []
  rw [Expression.branchPieces]
  exact prints_nil

theorem Reprints.further {condition result : Expression}
    {branches : List (Expression × Expression)} {first after : List TokenKind}
    (conditionReprints : Reprints levels (.operands .disjunction condition) input
      (.colon :: first))
    (conditionTight : Tight 2 condition)
    (resultReprints : Reprints levels (.expression result) first after)
    (furtherReprints : Reprints levels (.further branches) after rest) :
    Reprints levels (.further ((condition, result) :: branches)) (.elifWord :: input) rest := by
  intro output rewrites
  obtain ⟨furtherWords, furtherSpelled, furtherRewrites, furtherPrints⟩ :=
    furtherReprints output rewrites
  obtain ⟨words, between, conditionSpelled, resultSpelled, branchRewrites, branchPrints⟩ :=
    conditionReprints.branch resultReprints _ furtherRewrites
  refine ⟨.elifWord :: (words ++ furtherWords), ?_, ?_, fun layout level => ?_⟩
  · simp only [List.cons_append, List.append_assoc]
    exact .further conditionSpelled resultSpelled furtherSpelled
  · simp only [List.cons_append, List.append_assoc]
    exact branchRewrites.keep _
  · have word : Prints [.word "elif"] [.elifWord] := prints_reserved "elif" rfl rfl (by decide)
    have opened := ((printsApart_lineBreak layout level).before word).space
    show Prints (Expression.branchPieces layout level false ((condition, result) :: branches)) _
    rw [branchPieces_cons layout level false conditionTight]
    exact opened.before ((branchPrints layout level).append (furtherPrints layout level)
      fun tail ends => ends_branchPieces layout level branches ends)

theorem printsApart_else (layout : Layout) (level : Nat) :
    PrintsApart [layout.lineBreak level, .word "else", .word ":", layout.lineBreak (level + 1)]
      [.elseWord, .colon] := by
  have word : Prints [.word "else"] [.elseWord] := prints_reserved "else" rfl rfl (by decide)
  exact ((printsApart_lineBreak layout level).before word).before
    (printsApart_colon_lineBreak layout (level + 1)) fun tail => (rfl : endsWord ':' = true)

theorem Reprints.conditional {condition result otherwise : Expression}
    {branches : List (Expression × Expression)} {first after final : List TokenKind}
    (conditionReprints : Reprints levels (.operands .disjunction condition) input
      (.colon :: first))
    (conditionTight : Tight 2 condition)
    (resultReprints : Reprints levels (.expression result) first after)
    (furtherReprints : Reprints levels (.further branches) after (.elseWord :: .colon :: final))
    (otherwiseReprints : Reprints levels (.expression otherwise) final rest) :
    Reprints (levels + 1)
      (.expression (.conditional ((condition, result) :: branches) (some otherwise)))
      (.ifWord :: input) rest := by
  intro output rewrites
  obtain ⟨otherwiseWords, otherwiseSpelled, otherwiseRewrites, otherwisePrints⟩ :=
    otherwiseReprints output rewrites
  obtain ⟨furtherWords, furtherSpelled, furtherRewrites, furtherPrints⟩ :=
    furtherReprints _ ((otherwiseRewrites.keep .colon).keep .elseWord)
  obtain ⟨words, between, conditionSpelled, resultSpelled, branchRewrites, branchPrints⟩ :=
    conditionReprints.branch resultReprints _ furtherRewrites
  refine ⟨.ifWord :: (words ++ (furtherWords ++ .elseWord :: .colon :: otherwiseWords)), ?_, ?_,
    fun layout level => ?_⟩
  · simp only [List.cons_append, List.append_assoc]
    exact .conditional conditionSpelled resultSpelled furtherSpelled otherwiseSpelled
  · simp only [List.cons_append, List.append_assoc]
    exact branchRewrites.keep _
  · have word : Prints [.word "if"] [.ifWord] := prints_reserved "if" rfl rfl (by decide)
    have closing := (furtherPrints layout level).before (printsApart_else layout level)
      (ends_lineBreak layout level _)
    have branches' := (branchPrints layout level).before closing fun tail => by
      rw [spelled_append]
      exact ends_branchPieces layout level branches (ends_lineBreak layout level _ _)
    have prints := (word.space.append branches').before
      (otherwisePrints layout (layout.inner level))
    show Prints (Expression.pieces layout level
      (.conditional ((condition, result) :: branches) (some otherwise))) _
    rw [Expression.pieces, branchPieces_cons layout level true conditionTight,
      Expression.otherwisePieces]
    simp only [List.append_assoc, List.cons_append, List.nil_append, if_true] at prints ⊢
    exact prints

/-! ### Calls and casts -/

/-- The tokens that open the arguments of a call. -/
def openingWords : Option String → List TokenKind
  | none => [.leftParen]
  | some hint => [.less, .name hint, .greater, .leftParen]

theorem Opens.eq_openingWords {hint : Option String} (opens : Opens input hint rest) :
    input = openingWords hint ++ rest := by
  cases opens <;> rfl

theorem opens_openingWords (hint : Option String) (rest : List TokenKind) :
    Opens (openingWords hint ++ rest) hint rest := by
  cases hint <;> constructor

theorem printsApart_opening {function : String} {hint : Option String}
    (isName : IsName function) (hintIsName : ∀ type, hint = some type → IsName type) :
    PrintsApart
      ([.word function] ++
        (match hint with
        | some hint => [.word "<", .word hint, .word ">"]
        | none => []) ++ [.word "("])
      (.name function :: openingWords hint) := by
  cases hint with
  | none =>
    exact (prints_name isName).before printsApart_leftParen
      fun tail => (rfl : endsWord '(' = true)
  | some type =>
    exact (prints_name isName).before (printsApart_hint (hintIsName type rfl))
      fun tail => (rfl : endsWord '<' = true)

theorem Reprints.called {function : String} {hint : Option String}
    {arguments : List Expression} {after : List TokenKind} (isName : IsName function)
    (hintIsName : ∀ type, hint = some type → IsName type) (opens : Opens input hint after)
    (argumentsReprint : ∀ output, Rewrites rest output → ∃ words,
      (∀ {input}, Opens input hint (words ++ .rightParen :: output) →
        Spells levels (.primary (.call function hint arguments)) (.name function :: input)
          output) ∧
      Rewrites after (words ++ .rightParen :: output) ∧
      ∀ layout level, Prints (Expression.argumentPieces layout level true arguments) words) :
    Reprints levels (.primary (.call function hint arguments)) (.name function :: input) rest := by
  intro output rewrites
  obtain ⟨words, argumentsSpelled, argumentsRewrites, argumentsPrints⟩ :=
    argumentsReprint output rewrites
  have opensAgain := opens_openingWords hint (words ++ .rightParen :: output)
  refine ⟨.name function :: (openingWords hint ++ (words ++ [.rightParen])), ?_, ?_,
    fun layout level => ?_⟩
  · simp only [List.cons_append, List.append_assoc, List.nil_append]
    exact argumentsSpelled opensAgain
  · simp only [List.cons_append, List.append_assoc, List.nil_append]
    rw [opens.eq_openingWords]
    exact (argumentsRewrites.keepAll _).keep _
  · have prints := ((printsApart_opening isName hintIsName).before
      (argumentsPrints layout level)).rightParen
    rw [List.append_assoc _ words, @List.cons_append TokenKind] at prints
    show Prints (Expression.pieces layout level (.call function hint arguments)) _
    unfold Expression.pieces
    exact prints

theorem Reprints.cast {typeName : String} {inner : Expression} (isName : IsName typeName)
    (innerReprints : Reprints levels (.expression inner) input (.rightParen :: rest)) :
    Reprints levels (.primary (.cast typeName inner))
      (.outWord :: .less :: .name typeName :: .greater :: .leftParen :: input) rest := by
  intro output rewrites
  obtain ⟨words, innerSpelled, innerRewrites, innerPrints⟩ :=
    innerReprints _ (rewrites.keep .rightParen)
  refine ⟨[.outWord, .less, .name typeName, .greater, .leftParen] ++ (words ++ [.rightParen]),
    ?_, ?_, fun layout level => ?_⟩
  · simp only [List.cons_append, List.nil_append, List.append_assoc]
    exact .cast innerSpelled
  · simp only [List.cons_append, List.nil_append, List.append_assoc]
    exact innerRewrites.keepAll [.outWord, .less, .name typeName, .greater, .leftParen]
  · have word : Prints [.word "Out"] [.outWord] := prints_reserved "Out" rfl rfl (by decide)
    have opened := word.before (printsApart_hint isName) fun tail => (rfl : endsWord '<' = true)
    have prints := (opened.before (innerPrints layout level)).rightParen
    rw [List.append_assoc _ words] at prints
    show Prints (Expression.pieces layout level (.cast typeName inner)) _
    rw [Expression.pieces]
    exact prints

theorem Reprints.grouping {inner : Expression}
    (innerReprints : Reprints levels (.expression inner) input (.rightParen :: rest)) :
    Reprints levels (.primary (.grouping inner)) (.leftParen :: input) rest := by
  intro output rewrites
  obtain ⟨words, innerSpelled, innerRewrites, innerPrints⟩ :=
    innerReprints _ (rewrites.keep .rightParen)
  refine ⟨.leftParen :: (words ++ [.rightParen]), ?_, ?_, fun layout level => ?_⟩
  · simp only [List.cons_append, List.nil_append, List.append_assoc]
    exact .grouping innerSpelled
  · simp only [List.cons_append, List.nil_append, List.append_assoc]
    exact innerRewrites.keep _
  · have prints := (printsApart_leftParen.before (innerPrints layout level)).rightParen
    rw [List.append_assoc _ words] at prints
    show Prints (Expression.pieces layout level (.grouping inner)) _
    rw [Expression.pieces]
    exact prints

theorem Reprints.variable {name : String} (isName : IsName name)
    (noCall : ∀ hint after, ¬ Opens rest hint after) :
    Reprints levels (.primary (.variable name)) (.name name :: rest) rest := by
  intro output rewrites
  refine ⟨[.name name], .variable fun hint after opens => ?_, rewrites.keep _,
    fun layout level => ?_⟩
  · obtain ⟨before, opened⟩ := rewrites.opens opens
    exact noCall hint before opened
  · show Prints (Expression.pieces layout level (.variable name)) _
    rw [Expression.pieces]
    exact prints_name isName

theorem argumentPieces_more (layout : Layout) (level : Nat) (argument : Expression)
    (rest : List Expression) :
    Expression.argumentPieces layout level false (argument :: rest) =
      [.word ",", .space] ++ Expression.argumentPieces layout level true (argument :: rest) := by
  rw [Expression.argumentPieces, Expression.argumentPieces]
  simp only [Bool.false_eq_true, if_false, if_true, List.nil_append, List.append_assoc]

theorem Reprints.lastArgument {argument : Expression}
    (argumentReprints : Reprints levels (.expression argument) input rest) :
    Reprints levels (.arguments [argument]) input rest := by
  refine argumentReprints.lift .lastArgument fun layout level => ?_
  show Expression.argumentPieces layout level true [argument] = argument.pieces layout level
  rw [Expression.argumentPieces, Expression.argumentPieces]
  simp only [if_true, List.nil_append, List.append_nil]

theorem Reprints.arguments {argument next : Expression} {arguments : List Expression}
    {after : List TokenKind}
    (argumentReprints : Reprints levels (.expression argument) input (.comma :: after))
    (argumentsReprint : Reprints levels (.arguments (next :: arguments)) after rest) :
    Reprints levels (.arguments (argument :: next :: arguments)) input rest := by
  refine argumentReprints.around argumentsReprint .arguments
    (printsApart_comma.append printsApart_space) (fun tail => (rfl : endsWord ',' = true))
    fun layout level => ?_
  show Expression.argumentPieces layout level true (argument :: next :: arguments) = _
  rw [Expression.argumentPieces, argumentPieces_more]
  simp only [if_true, List.nil_append, List.append_assoc]
  rfl

end Grammar

end Reckon
