/-
This file shows that trees that were read from no text are written as texts that
read back, but for parentheses. With the parentheses put in that are written, a
tree is spelled by tokens, part by part: the rule for its own operator reads it
before all that may follow. Nothing else can go wrong with the text than that
its parts nest too deeply.
-/

import Reckon.Proofs.Format.RoundTrip
import Reckon.Proofs.Format.Tightness
import Reckon.Proofs.Grammar.Nesting

namespace Reckon

namespace Grammar

variable {input rest : List TokenKind} {tree : Expression} {bound : Nat}

/-! ### Trees that are spelled -/

/-- Some tokens that a text can hold spell a part of an expression before all tokens that may
follow. -/
def SpelledBefore (follows : List TokenKind → Prop) (phrase : Phrase) : Prop :=
  ∃ words, (∀ kind ∈ words, Readable kind) ∧
    ∀ rest, follows rest → Spelled phrase (words ++ rest) rest

/-- A tree, with the parentheses put in that are written, is spelled as the rule for its own
operator reads it. -/
def IsSpelled (tree : Expression) : Prop :=
  SpelledBefore (Follows tree) (.ofTightness tree.tightness tree.guarded)

theorem readable_append {first second : List TokenKind}
    (firstReadable : ∀ kind ∈ first, Readable kind)
    (secondReadable : ∀ kind ∈ second, Readable kind) : ∀ kind ∈ first ++ second, Readable kind :=
  List.forall_mem_append.mpr ⟨firstReadable, secondReadable⟩

theorem readable_cons {kind : TokenKind} {words : List TokenKind} (first : Readable kind)
    (later : ∀ kind ∈ words, Readable kind) : ∀ other ∈ kind :: words, Readable other :=
  List.forall_mem_cons.mpr ⟨first, later⟩

theorem readable_rightParen : ∀ kind ∈ [TokenKind.rightParen], Readable kind :=
  fun _ member => List.mem_singleton.mp member ▸ trivial

/-- A tree is read as a whole expression wherever one stands. -/
theorem IsSpelled.expression (spelled : IsSpelled tree) :
    SpelledBefore (Follows tree) (.expression tree.guarded) := by
  obtain ⟨words, readable, spells⟩ := spelled
  exact ⟨words, readable, fun rest follows => (spells rest follows).loosen (Nat.zero_le _)⟩

/-- A tree in parentheses is spelled whatever follows. -/
theorem IsSpelled.grouped (spelled : IsSpelled tree) :
    SpelledBefore (fun _ => True) (.primary (.grouping tree.guarded)) := by
  obtain ⟨words, readable, spells⟩ := spelled.expression
  refine ⟨.leftParen :: (words ++ [.rightParen]), ?_, fun rest _ => ?_⟩
  · exact readable_cons trivial (readable_append readable readable_rightParen)
  · obtain ⟨levels, inner⟩ := spells (.rightParen :: rest) (closed_cons rfl tree)
    rw [List.cons_append, List.append_assoc]
    exact ⟨levels, .grouping inner⟩

/-- A tree is read as an operand where it holds together tightly enough or is enclosed. -/
theorem IsSpelled.enclosed {needed : Bool} (spelled : IsSpelled tree)
    (fits : needed = false → bound ≤ tree.tightness) :
    SpelledBefore (fun rest => needed = false → Follows tree rest)
      (.ofTightness bound (Expression.enclosed needed tree.guarded)) := by
  cases needed with
  | false =>
    obtain ⟨words, readable, spells⟩ := spelled
    exact ⟨words, readable, fun rest follows =>
      (spells rest (follows rfl)).loosen (fits rfl)⟩
  | true =>
    obtain ⟨words, readable, spells⟩ := spelled.grouped
    refine ⟨words, readable, fun rest _ => ?_⟩
    have primary : Spelled (.ofTightness (bound + 10) (.grouping tree.guarded))
        (words ++ rest) rest := spells rest trivial
    exact primary.loosen (Nat.le_add_right bound 10)

/-! ### Operators -/

theorem Joins.readable {rule : Rule} {kind : TokenKind} {operator : BinaryOperator}
    (joins : Joins rule kind operator) : Readable kind := by
  cases joins <;> trivial

/-- An operand on the left without parentheses is one that the rule of its operator reads. -/
theorem Joins.fits_left {rule : Rule} {kind : TokenKind} {operator : BinaryOperator}
    (joins : Joins rule kind operator) (needless : tree.needsParentheses operator false = false) :
    rule.strength ≤ tree.tightness :=
  joins.precedence_eq.1 ▸ (Expression.tightness_of_not_needsParentheses needless).1

/-- An operand on the right without parentheses is one that the next tighter rule reads. -/
theorem Joins.fits_right {rule : Rule} {kind : TokenKind} {operator : BinaryOperator}
    (joins : Joins rule kind operator) (needless : tree.needsParentheses operator true = false) :
    rule.strength + 1 ≤ tree.tightness := by
  obtain ⟨strength, groupsLeft⟩ := joins.precedence_eq
  have otherSide : true ≠ operator.isRightAssociative := by
    rw [groupsLeft]
    decide
  exact strength ▸ (Expression.tightness_of_not_needsParentheses needless).2 otherSide

/-- The operator and what comes after it may follow the operand on the left. The one thing to
check is that `<` and the right operand are not the type hint of a call. -/
theorem Joins.follows {rule : Rule} {kind : TokenKind} {operator : BinaryOperator}
    {left right : Expression} (joins : Joins rule kind operator)
    (clear : (Expression.binary operator left right).isMistakable = false)
    (needless : left.needsParentheses operator false = false)
    (rightSpelled : Spelled (rule.operand (Expression.enclosed
      (right.needsParentheses operator true) right.guarded)) after rest)
    (follows : Follows (.binary operator left right) rest) : Follows left (kind :: after) := by
  have fits := (Expression.tightness_of_not_needsParentheses needless).1
  refine ⟨fun named hint arguments opens => ?_, fun same => ?_⟩
  · cases opens with
    | parenthesis => cases joins
    | hint name =>
      -- The right operand would be a name alone, with the `>` of the hint after the comparison.
      cases joins
      rw [← Rule.ofTightness_operand] at rightSpelled
      obtain ⟨isVariable, rfl⟩ := rightSpelled.eq_name (Nat.le_refl 6)
      obtain rfl := Expression.eq_variable_of_enclosed isVariable
      refine (follows.noHint rfl).2 ?_ rfl
      rw [Expression.isBelowName, needless, named]
      rfl
  · cases same
    cases joins
    refine ⟨fits, fun below parenthesis => ?_⟩
    obtain ⟨levels, spells⟩ := rightSpelled
    have grouped := (Rule.beginsAs_operand spells.beginsAs).mpr parenthesis
    rw [Expression.beginsGrouped_enclosed, Expression.beginsGrouped_guarded] at grouped
    rw [Expression.isMistakable, below, grouped] at clear
    cases clear

theorem endsInName_right {operator : BinaryOperator} {left right : Expression}
    (needless : right.needsParentheses operator true = false) (named : right.endsInName = true) :
    (Expression.binary operator left right).endsInName = true := by
  rw [Expression.endsInName, needless, named]
  rfl

theorem isSpelled_join {rule : Rule} {kind : TokenKind} {operator : BinaryOperator}
    {left right : Expression} (joins : Joins rule kind operator)
    (clear : (Expression.binary operator left right).isMistakable = false)
    (leftSpelled : IsSpelled left) (rightSpelled : IsSpelled right) :
    IsSpelled (.binary operator left right) := by
  obtain ⟨leftWords, leftReadable, leftSpells⟩ := leftSpelled.enclosed joins.fits_left
  obtain ⟨rightWords, rightReadable, rightSpells⟩ := rightSpelled.enclosed joins.fits_right
  refine ⟨leftWords ++ kind :: rightWords,
    readable_append leftReadable (readable_cons joins.readable rightReadable),
    fun rest follows => ?_⟩
  have tightness : (Expression.binary operator left right).tightness = rule.strength :=
    joins.precedence_eq.1
  -- The right operand is spelled first: what it is spelled by follows the left one.
  have right := rightSpells rest fun needless =>
    follows.part (endsInName_right needless) fun tight => by
      have := joins.fits_right needless
      omega
  rw [rule.ofTightness_operand] at right
  have left := leftSpells (kind :: (rightWords ++ rest)) fun needless =>
    joins.follows clear needless right follows
  rw [rule.ofTightness_strength] at left
  rw [tightness, rule.ofTightness_strength, List.append_assoc]
  obtain ⟨leftLevels, left⟩ := left
  obtain ⟨rightLevels, right⟩ := right
  exact ⟨leftLevels + rightLevels, .join joins (left.mono (Nat.le_add_right _ _))
    (right.mono (Nat.le_add_left _ _))⟩

theorem isSpelled_power {base exponent : Expression} (baseSpelled : IsSpelled base)
    (exponentSpelled : IsSpelled exponent) : IsSpelled (.binary .power base exponent) := by
  have baseFits : base.needsParentheses .power false = false → 9 ≤ base.tightness :=
    fun needless => (Expression.tightness_of_not_needsParentheses needless).2 (by decide)
  have exponentFits : exponent.needsParentheses .power true = false → 8 ≤ exponent.tightness :=
    fun needless => (Expression.tightness_of_not_needsParentheses needless).1
  obtain ⟨baseWords, baseReadable, baseSpells⟩ := baseSpelled.enclosed baseFits
  obtain ⟨exponentWords, exponentReadable, exponentSpells⟩ :=
    exponentSpelled.enclosed exponentFits
  refine ⟨baseWords ++ .caret :: exponentWords,
    readable_append baseReadable (readable_cons trivial exponentReadable),
    fun rest follows => ?_⟩
  obtain ⟨exponentLevels, exponent⟩ := exponentSpells rest fun needless =>
    follows.part (endsInName_right needless) fun _ =>
      Nat.le_trans (by decide : 6 ≤ 8) (exponentFits needless)
  obtain ⟨baseLevels, base⟩ := baseSpells (.caret :: (exponentWords ++ rest)) fun _ =>
    closed_cons rfl base
  rw [List.append_assoc]
  exact ⟨baseLevels + exponentLevels + 1, .raise (base.mono (by omega)) (exponent.mono (by omega))⟩

theorem isSpelled_unary {operator : UnaryOperator} {operand : Expression}
    (operandSpelled : IsSpelled operand) : IsSpelled (.unary operator operand) := by
  have fits : operand.needsUnaryParentheses = false → 9 ≤ operand.tightness :=
    Expression.tightness_of_not_needsUnaryParentheses
  obtain ⟨words, readable, spells⟩ := operandSpelled.enclosed fits
  have inner : ∀ rest, Follows (.unary operator operand) rest →
      Spelled (.unary (Expression.enclosed operand.needsUnaryParentheses operand.guarded))
        (words ++ rest) rest := fun rest follows =>
    spells rest fun needless =>
      follows.part (fun named => by rw [Expression.endsInName, needless, named]; rfl)
        fun _ => Nat.le_trans (by decide : 6 ≤ 9) (fits needless)
  cases operator with
  | negate =>
    refine ⟨.minus :: words, readable_cons trivial readable, fun rest follows => ?_⟩
    obtain ⟨levels, spelled⟩ := inner rest follows
    exact ⟨levels + 1, .negate spelled⟩
  | not =>
    refine ⟨.not :: words, readable_cons trivial readable, fun rest follows => ?_⟩
    obtain ⟨levels, spelled⟩ := inner rest follows
    exact ⟨levels + 1, .not spelled⟩

/-! ### Expressions that reach to the right -/

/-- A condition or a value is read by the rule for `or`. -/
theorem IsSpelled.operand (spelled : IsSpelled tree) :
    SpelledBefore Closed
      (.operands .disjunction (Expression.enclosed tree.isOpenEnded tree.guarded)) := by
  obtain ⟨words, readable, spells⟩ := spelled.enclosed Expression.tightness_of_not_isOpenEnded
  exact ⟨words, readable, fun rest closed => spells rest fun _ => closed tree⟩

theorem isSpelled_ternary {condition whenTrue whenFalse : Expression}
    (conditionSpelled : IsSpelled condition) (trueSpelled : IsSpelled whenTrue)
    (falseSpelled : IsSpelled whenFalse) : IsSpelled (.ternary condition whenTrue whenFalse) := by
  obtain ⟨conditionWords, conditionReadable, conditionSpells⟩ := conditionSpelled.operand
  obtain ⟨trueWords, trueReadable, trueSpells⟩ := trueSpelled.expression
  obtain ⟨falseWords, falseReadable, falseSpells⟩ := falseSpelled.expression
  refine ⟨conditionWords ++ .question :: (trueWords ++ .colon :: falseWords),
    readable_append conditionReadable (readable_cons trivial
      (readable_append trueReadable (readable_cons trivial falseReadable))),
    fun rest follows => ?_⟩
  obtain ⟨falseLevels, whenFalse⟩ := falseSpells rest
    (follows.part (fun _ => rfl) fun tight => absurd tight (by decide : ¬ 5 ≤ 1))
  obtain ⟨trueLevels, whenTrue⟩ := trueSpells (.colon :: (falseWords ++ rest)) (closed_cons rfl _)
  obtain ⟨conditionLevels, condition⟩ := conditionSpells
    (.question :: (trueWords ++ .colon :: (falseWords ++ rest))) (closed_cons rfl)
  simp only [List.append_assoc, List.cons_append]
  exact ⟨conditionLevels + trueLevels + falseLevels + 1, .ternary (condition.mono (by omega))
    (whenTrue.mono (by omega)) (whenFalse.mono (by omega))⟩

theorem readable_limitWords {uses : UseLimit}
    (counts : ∀ count, uses = .limited count → 1 ≤ count ∧ count ≤ UseLimit.greatestCount) :
    ∀ kind ∈ limitWords uses, Readable kind := by
  cases uses with
  | unlimited => exact nofun
  | limited count =>
    refine readable_cons trivial (readable_cons ?_ nofun)
    show 0 ≤ (Int64.ofInt count).toInt
    rw [toInt_ofInt_of_fits (fitsInt64_of_count (counts count rfl).2)]
    exact Int.natCast_nonneg count

theorem closed_limitWords (uses : UseLimit) : Closed (limitWords uses ++ .semicolon :: rest) := by
  cases uses <;> exact closed_cons rfl

theorem isSpelled_binding {name : String} {value body : Expression} {uses : UseLimit}
    (plain : (Expression.binding name value uses body).IsPlain)
    (valueSpelled : IsSpelled value) (bodySpelled : IsSpelled body) :
    IsSpelled (.binding name value uses body) := by
  obtain ⟨isName, counts⟩ := plain
  obtain ⟨valueWords, valueReadable, valueSpells⟩ := valueSpelled.operand
  obtain ⟨bodyWords, bodyReadable, bodySpells⟩ := bodySpelled.expression
  refine ⟨.letWord :: .name name :: .assign ::
      (valueWords ++ (limitWords uses ++ .semicolon :: bodyWords)),
    readable_cons trivial (readable_cons isName (readable_cons trivial
      (readable_append valueReadable (readable_append (readable_limitWords counts)
        (readable_cons trivial bodyReadable))))),
    fun rest follows => ?_⟩
  obtain ⟨bodyLevels, body⟩ := bodySpells rest
    (follows.part (fun _ => rfl) fun tight => absurd tight (by decide : ¬ 5 ≤ 1))
  obtain ⟨valueLevels, value⟩ := valueSpells
    (limitWords uses ++ .semicolon :: (bodyWords ++ rest)) (closed_limitWords uses)
  simp only [List.append_assoc, List.cons_append]
  exact ⟨valueLevels + bodyLevels + 1, .binding (value.mono (by omega))
    (limits_limitWords counts _) (body.mono (by omega))⟩

/-- What may follow any tree may do so after further branches before it. -/
theorem Spelled.closed_further {branches : List (Expression × Expression)}
    (spelled : Spelled (.further branches) input rest) (closed : Closed rest) : Closed input := by
  obtain ⟨levels, spells⟩ := spelled
  cases spells with
  | noFurther => exact closed
  | further => exact closed_cons rfl

/-- A branch is spelled without its reserved word before what may follow any tree. -/
theorem spelledBefore_branch {condition result : Expression}
    (conditionSpelled : IsSpelled condition) (resultSpelled : IsSpelled result) :
    ∃ words, (∀ kind ∈ words, Readable kind) ∧
      ∀ rest, Closed rest → ∃ between,
        Spelled (.operands .disjunction
          (Expression.enclosed condition.isOpenEnded condition.guarded)) (words ++ rest)
          (.colon :: between) ∧
        Spelled (.expression result.guarded) between rest := by
  obtain ⟨conditionWords, conditionReadable, conditionSpells⟩ := conditionSpelled.operand
  obtain ⟨resultWords, resultReadable, resultSpells⟩ := resultSpelled.expression
  refine ⟨conditionWords ++ .colon :: resultWords,
    readable_append conditionReadable (readable_cons trivial resultReadable),
    fun rest closed => ⟨resultWords ++ rest, ?_, resultSpells rest (closed result)⟩⟩
  rw [List.append_assoc]
  exact conditionSpells (.colon :: (resultWords ++ rest)) (closed_cons rfl)

theorem spelledBefore_further {branches : List (Expression × Expression)}
    (branchesSpelled : ∀ branch ∈ branches, IsSpelled branch.1 ∧ IsSpelled branch.2) :
    SpelledBefore Closed (.further (Expression.guardedBranches branches)) := by
  induction branches with
  | nil => exact ⟨[], nofun, fun rest _ => ⟨0, .noFurther⟩⟩
  | cons branch branches inductionHypothesis =>
    obtain ⟨⟨conditionSpelled, resultSpelled⟩, later⟩ := List.forall_mem_cons.mp branchesSpelled
    obtain ⟨words, readable, spells⟩ := spelledBefore_branch conditionSpelled resultSpelled
    obtain ⟨furtherWords, furtherReadable, furtherSpells⟩ := inductionHypothesis later
    refine ⟨.elifWord :: (words ++ furtherWords),
      readable_cons trivial (readable_append readable furtherReadable), fun rest closed => ?_⟩
    have furtherSpelled := furtherSpells rest closed
    obtain ⟨between, ⟨conditionLevels, condition⟩, resultLevels, result⟩ :=
      spells (furtherWords ++ rest) (furtherSpelled.closed_further closed)
    obtain ⟨furtherLevels, further⟩ := furtherSpelled
    rw [List.cons_append, List.append_assoc]
    exact ⟨conditionLevels + resultLevels + furtherLevels, .further (condition.mono (by omega))
      (result.mono (by omega)) (further.mono (by omega))⟩

theorem isSpelled_conditional {condition result otherwise : Expression}
    {branches : List (Expression × Expression)} (conditionSpelled : IsSpelled condition)
    (resultSpelled : IsSpelled result)
    (branchesSpelled : ∀ branch ∈ branches, IsSpelled branch.1 ∧ IsSpelled branch.2)
    (otherwiseSpelled : IsSpelled otherwise) :
    IsSpelled (.conditional ((condition, result) :: branches) (some otherwise)) := by
  obtain ⟨words, readable, spells⟩ := spelledBefore_branch conditionSpelled resultSpelled
  obtain ⟨furtherWords, furtherReadable, furtherSpells⟩ := spelledBefore_further branchesSpelled
  obtain ⟨otherwiseWords, otherwiseReadable, otherwiseSpells⟩ := otherwiseSpelled.expression
  refine ⟨.ifWord :: (words ++ (furtherWords ++ .elseWord :: .colon :: otherwiseWords)),
    readable_cons trivial (readable_append readable (readable_append furtherReadable
      (readable_cons trivial (readable_cons trivial otherwiseReadable)))),
    fun rest follows => ?_⟩
  obtain ⟨otherwiseLevels, otherwise⟩ := otherwiseSpells rest
    (follows.part (fun _ => rfl) fun tight => absurd tight (by decide : ¬ 5 ≤ 1))
  have closed : Closed (.elseWord :: .colon :: (otherwiseWords ++ rest)) := closed_cons rfl
  have furtherSpelled := furtherSpells _ closed
  obtain ⟨between, ⟨conditionLevels, condition⟩, resultLevels, result⟩ :=
    spells _ (furtherSpelled.closed_further closed)
  obtain ⟨furtherLevels, further⟩ := furtherSpelled
  simp only [List.append_assoc, List.cons_append]
  exact ⟨conditionLevels + resultLevels + furtherLevels + otherwiseLevels + 1,
    .conditional (condition.mono (by omega)) (result.mono (by omega)) (further.mono (by omega))
      (otherwise.mono (by omega))⟩

/-! ### Calls, casts and parentheses -/

theorem spelledBefore_arguments {argument : Expression} {arguments : List Expression}
    (first : IsSpelled argument) (later : ∀ argument ∈ arguments, IsSpelled argument) :
    SpelledBefore Closed (.arguments (Expression.guardedAll (argument :: arguments))) := by
  induction arguments generalizing argument with
  | nil =>
    obtain ⟨words, readable, spells⟩ := first.expression
    refine ⟨words, readable, fun rest closed => ?_⟩
    obtain ⟨levels, spelled⟩ := spells rest (closed argument)
    exact ⟨levels, .lastArgument spelled⟩
  | cons next arguments inductionHypothesis =>
    obtain ⟨words, readable, spells⟩ := first.expression
    obtain ⟨nextSpelled, later⟩ := List.forall_mem_cons.mp later
    obtain ⟨laterWords, laterReadable, laterSpells⟩ := inductionHypothesis nextSpelled later
    refine ⟨words ++ .comma :: laterWords,
      readable_append readable (readable_cons trivial laterReadable), fun rest closed => ?_⟩
    obtain ⟨laterLevels, later⟩ := laterSpells rest closed
    obtain ⟨levels, spelled⟩ := spells (.comma :: (laterWords ++ rest)) (closed_cons rfl argument)
    rw [List.append_assoc]
    exact ⟨levels + laterLevels, .arguments (spelled.mono (by omega)) (later.mono (by omega))⟩

theorem readable_openingWords {hint : Option String}
    (hintIsName : ∀ type, hint = some type → IsName type) :
    ∀ kind ∈ openingWords hint, Readable kind := by
  cases hint with
  | none => exact readable_cons trivial nofun
  | some type =>
    refine readable_cons trivial (readable_cons (hintIsName type rfl) ?_)
    exact readable_cons trivial (readable_cons trivial nofun)

theorem isSpelled_call {function : String} {hint : Option String} {arguments : List Expression}
    (plain : (Expression.call function hint arguments).IsPlain)
    (argumentsSpelled : ∀ argument ∈ arguments, IsSpelled argument) :
    IsSpelled (.call function hint arguments) := by
  obtain ⟨isName, hintIsName⟩ := plain
  have opening := readable_openingWords hintIsName
  cases arguments with
  | nil =>
    refine ⟨.name function :: (openingWords hint ++ [.rightParen]),
      readable_cons isName (readable_append opening readable_rightParen),
      fun rest _ => ?_⟩
    rw [List.cons_append, List.append_assoc]
    exact ⟨0, .emptyCall (opens_openingWords hint _)⟩
  | cons argument arguments =>
    obtain ⟨first, later⟩ := List.forall_mem_cons.mp argumentsSpelled
    obtain ⟨words, readable, spells⟩ := spelledBefore_arguments first later
    refine ⟨.name function :: (openingWords hint ++ (words ++ [.rightParen])),
      readable_cons isName (readable_append opening
        (readable_append readable readable_rightParen)),
      fun rest _ => ?_⟩
    obtain ⟨levels, spelled⟩ := spells (.rightParen :: rest) (closed_cons rfl)
    simp only [List.append_assoc, List.cons_append, List.nil_append]
    exact ⟨levels, .call (opens_openingWords hint _) spelled⟩

theorem isSpelled_cast {typeName : String} {inner : Expression} (isName : IsName typeName)
    (innerSpelled : IsSpelled inner) : IsSpelled (.cast typeName inner) := by
  obtain ⟨words, readable, spells⟩ := innerSpelled.expression
  refine ⟨.outWord :: .less :: .name typeName :: .greater :: .leftParen ::
      (words ++ [.rightParen]), ?_, fun rest _ => ?_⟩
  · refine readable_cons trivial (readable_cons trivial (readable_cons isName ?_))
    exact readable_cons trivial (readable_cons trivial
      (readable_append readable readable_rightParen))
  · obtain ⟨levels, spelled⟩ := spells (.rightParen :: rest) (closed_cons rfl inner)
    simp only [List.append_assoc, List.cons_append, List.nil_append]
    exact ⟨levels, .cast spelled⟩

theorem isSpelled_grouping {inner : Expression} (innerSpelled : IsSpelled inner) :
    IsSpelled (.grouping inner) := by
  obtain ⟨words, readable, spells⟩ := innerSpelled.grouped
  exact ⟨words, readable, fun rest _ => spells rest trivial⟩

/-- A tree that is one token is spelled by it, unless what follows makes it a call. -/
theorem isSpelled_token (kind : TokenKind) (readable : Readable kind)
    (spells : ∀ rest, Follows tree rest →
      Spelled (.ofTightness tree.tightness tree.guarded) (kind :: rest) rest) :
    IsSpelled tree :=
  ⟨[kind], readable_cons readable nofun, spells⟩

/-! ### All trees -/

theorem joins_or_power (operator : BinaryOperator) :
    (∃ rule kind, Joins rule kind operator) ∨ operator = .power := by
  cases operator <;> first | exact .inr rfl | exact .inl ⟨_, _, by constructor⟩

/-- Every tree whose nodes can be written and are not mistaken is spelled. -/
theorem isSpelled_of_isLegible (tree : Expression) :
    (∀ part : Expression, part.Within tree → part.IsLegible) → IsSpelled tree := by
  induction tree using Expression.parts_induction with
  | integer number =>
    exact fun legible => isSpelled_token (.integer number) (legible _ .itself).plain fun _ _ =>
      ⟨0, .integer⟩
  | float number =>
    exact fun legible => isSpelled_token (.float number) (legible _ .itself).plain.1 fun _ _ =>
      ⟨0, .float⟩
  | text content =>
    exact fun _ => isSpelled_token (.text content) trivial fun _ _ => ⟨0, .text⟩
  | boolean truth =>
    exact fun _ => isSpelled_token (.boolean truth) trivial fun _ _ => ⟨0, .boolean⟩
  | null => exact fun _ => isSpelled_token .null trivial fun _ _ => ⟨0, .null⟩
  | «variable» name =>
    exact fun legible => isSpelled_token (.name name) (legible _ .itself).plain fun _ follows =>
      ⟨0, .variable (follows.noCall rfl)⟩
  | binary operator left right leftSpelled rightSpelled =>
    intro legible
    have left := leftSpelled fun part within => legible part (.left operator right within)
    have right := rightSpelled fun part within => legible part (.right operator _ within)
    rcases joins_or_power operator with ⟨rule, kind, joins⟩ | rfl
    · exact isSpelled_join joins (legible _ .itself).clear left right
    · exact isSpelled_power left right
  | unary operator operand spelled =>
    exact fun legible => isSpelled_unary
      (spelled fun part within => legible part (.operand operator within))
  | ternary condition whenTrue whenFalse conditionSpelled trueSpelled falseSpelled =>
    intro legible
    exact isSpelled_ternary
      (conditionSpelled fun part within => legible part (.condition whenTrue whenFalse within))
      (trueSpelled fun part within => legible part (.whenTrue condition whenFalse within))
      (falseSpelled fun part within => legible part (.whenFalse condition whenTrue within))
  | binding name value uses body valueSpelled bodySpelled =>
    intro legible
    exact isSpelled_binding (legible _ .itself).plain
      (valueSpelled fun part within => legible part (.value name uses body within))
      (bodySpelled fun part within => legible part (.body name value uses within))
  | conditional branches otherwise branchesSpelled otherwiseSpelled =>
    intro legible
    obtain ⟨someBranch, someOtherwise⟩ := (legible _ .itself).plain
    have branchesSpelled : ∀ branch ∈ branches, IsSpelled branch.1 ∧ IsSpelled branch.2 :=
      fun branch member =>
        ⟨(branchesSpelled branch member).1 fun part within =>
            legible part (.branchCondition otherwise member within),
          (branchesSpelled branch member).2 fun part within =>
            legible part (.branchResult otherwise member within)⟩
    cases branches with
    | nil => exact absurd rfl someBranch
    | cons branch branches =>
      cases otherwise with
      | none => exact absurd rfl someOtherwise
      | some result =>
        obtain ⟨⟨condition, first⟩, later⟩ := List.forall_mem_cons.mp branchesSpelled
        exact isSpelled_conditional condition first later
          (otherwiseSpelled result rfl fun part within => legible part (.otherwise _ within))
  | call function hint arguments argumentsSpelled =>
    intro legible
    exact isSpelled_call (legible _ .itself).plain fun argument member =>
      argumentsSpelled argument member fun part within =>
        legible part (.argument function hint member within)
  | cast typeName inner spelled =>
    exact fun legible => isSpelled_cast (legible _ .itself).plain
      (spelled fun part within => legible part (.inner typeName within))
  | grouping inner spelled =>
    exact fun legible => isSpelled_grouping
      (spelled fun part within => legible part (.grouped within))

end Grammar

namespace Expression

/-- A tree whose nodes can be written and are not mistaken is read back with the parentheses it was
written with, or it is nested too deeply. -/
theorem parse_render_guarded {tree : Expression}
    (legible : ∀ part : Expression, part.Within tree → part.IsLegible) (layout : Layout) :
    parse (tree.render layout) = .ok tree.guarded ∨
      ∃ position, parse (tree.render layout) = .error ⟨.nestedTooDeeply, position⟩ := by
  obtain ⟨words, readable, spells⟩ := (Grammar.isSpelled_of_isLegible tree legible).expression
  obtain ⟨levels, spelled⟩ := spells [] (Grammar.closed_nil tree)
  rw [List.append_nil] at spelled
  have bounded : ∀ number ∈ tree.guarded.floats, number.less (.ofNat (Nat.pow 10 15)) = true :=
    fun number member => (legible _ (within_of_mem_floats number tree member)).plain.2
  obtain ⟨body, stop, tokenized, spelled, noEnd⟩ :=
    tokenize_render spelled readable bounded layout
  unfold parse
  rw [← render_guarded, tokenized]
  exact spelled.ofTokens noEnd

/-- The text of a tree whose nodes can be written is read as the tree, but for parentheses, unless
it is nested too deeply. -/
theorem parse_render_ungrouped {tree : Expression}
    (writable : ∀ part : Expression, part.Within tree → part.IsWritable) (layout : Layout) :
    (∃ error, parse (tree.render layout) = .error error ∧
        error.message = "Expression nested too deeply.") ∨
      ∃ read, parse (tree.render layout) = .ok read ∧ read.ungrouped = tree.ungrouped := by
  have legible : ∀ part : Expression, part.Within tree → part.IsLegible :=
    fun part within => (writable part within).isLegible
  rcases parse_render_guarded legible layout with read | ⟨position, tooDeep⟩
  · exact .inr ⟨_, read, tree.ungrouped_guarded⟩
  · exact .inl ⟨_, tooDeep, rfl⟩

/-- Both texts of a tree whose nodes can be written are read as the tree, but for parentheses,
unless it is nested too deeply. -/
theorem parse_compact_pretty_ungrouped {tree : Expression}
    (writable : ∀ part : Expression, part.Within tree → part.IsWritable) :
    ((∃ error, parse tree.compact = .error error ∧
        error.message = "Expression nested too deeply.") ∨
      ∃ read, parse tree.compact = .ok read ∧ read.ungrouped = tree.ungrouped) ∧
    ((∃ error, parse tree.pretty = .error error ∧
        error.message = "Expression nested too deeply.") ∨
      ∃ read, parse tree.pretty = .ok read ∧ read.ungrouped = tree.ungrouped) :=
  ⟨parse_render_ungrouped writable .compact, parse_render_ungrouped writable .pretty⟩

/-- The product of a sum and a bound name, neither of them in parentheses. -/
def scaledSum : Expression :=
  .binary .multiply (.binary .add (.variable "y") (.float (.ofDecimalText false ⟨['0'], ['5'], 0⟩)))
    (.binding "x" (.integer 3) (.limited 1) (.variable "x"))

theorem isWritable_scaledSum {part : Expression} (within : part.Within scaledSum) :
    part.IsWritable := by
  have isName : ∀ character : Char, IsWord character [] →
      TokenKind.ofWord (String.ofList [character]) = .name (String.ofList [character]) →
      IsName (String.ofList [character]) :=
    fun character word kind => ⟨character, [], rfl, word, kind⟩
  cases within with
  | itself => exact fun same => by cases same.1
  | left _ _ within =>
    cases within with
    | itself => exact fun same => by cases same.1
    | left _ _ within =>
      cases within
      exact isName 'y' (by constructor <;> decide) rfl
    | right _ _ within =>
      cases within
      exact ⟨by decide +kernel, by decide +kernel⟩
  | right _ _ within =>
    cases within with
    | itself =>
      refine ⟨isName 'x' (by constructor <;> decide) rfl, ?_⟩
      rintro _ ⟨⟩
      decide
    | value _ _ _ within =>
      cases within
      exact (by decide : (0 : Int) ≤ (3 : Int64).toInt)
    | body _ _ _ within =>
      cases within
      exact isName 'x' (by constructor <;> decide) rfl

theorem parse_compact_pretty_ungrouped_scaledSum :
    scaledSum.compact = "(y + 0.5) * (let x = 3 as 1; x)" ∧
    ((∃ error, parse scaledSum.compact = .error error ∧
        error.message = "Expression nested too deeply.") ∨
      ∃ read, parse scaledSum.compact = .ok read ∧ read.ungrouped = scaledSum.ungrouped) ∧
    ((∃ error, parse scaledSum.pretty = .error error ∧
        error.message = "Expression nested too deeply.") ∨
      ∃ read, parse scaledSum.pretty = .ok read ∧ read.ungrouped = scaledSum.ungrouped) :=
  ⟨by decide +kernel, @parse_compact_pretty_ungrouped scaledSum fun _ => isWritable_scaledSum⟩

/-- What is less than a variable is written without parentheses before `>`, and then the name of
the variable is read as the type hint of a call. -/
example : ((parse (compact (.binary .greater (.binary .less (.variable "a") (.variable "b"))
    (.grouping (.variable "c"))))).toOption.map
      (same (.call "a" (some "b") [.variable "c"]))) = some true := by decide +kernel

end Expression

end Reckon
