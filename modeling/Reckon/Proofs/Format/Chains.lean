/-
This file follows the text of a comparison with `<` and a variable, compared
again with `>`. Such a text can look like the call of a function with a type
hint, and it does exactly if a name ends the left side and a parenthesis begins
the right one. Calls tell the two apart: every call in a tree is a name before
arguments among its tokens, and whatever is read from tokens has as many calls.
A comparison that looks like a call, anywhere in a tree, is one such name more
than the tree has calls, so that the tree is never read back from its text.
-/

import Reckon.Proofs.Format.Spelling
import Reckon.Proofs.Format.Wording

namespace Reckon

namespace Expression

/-! ### The calls in a tree -/

mutual

/-- How many calls of functions there are in a tree. -/
def calls : Expression → Nat
  | .integer _ | .float _ | .text _ | .boolean _ | .null | .variable _ => 0
  | .binary _ left right => left.calls + right.calls
  | .unary _ operand => operand.calls
  | .ternary condition whenTrue whenFalse => condition.calls + whenTrue.calls + whenFalse.calls
  | .binding _ value _ body => value.calls + body.calls
  | .conditional branches otherwise => branchCalls branches + otherwiseCalls otherwise
  | .call _ _ arguments => argumentCalls arguments + 1
  | .cast _ inner => inner.calls
  | .grouping inner => inner.calls

/-- How many calls there are in the branches of a conditional. -/
def branchCalls : List (Expression × Expression) → Nat
  | [] => 0
  | (condition, result) :: rest => condition.calls + result.calls + branchCalls rest

/-- How many calls there are in the result of a conditional without a branch. -/
def otherwiseCalls : Option Expression → Nat
  | none => 0
  | some result => result.calls

/-- How many calls there are in the arguments of a call. -/
def argumentCalls : List Expression → Nat
  | [] => 0
  | argument :: rest => argument.calls + argumentCalls rest

end

theorem branchCalls_ungrouped {branches : List (Expression × Expression)}
    (same : ∀ branch ∈ branches, branch.1.ungrouped.calls = branch.1.calls ∧
      branch.2.ungrouped.calls = branch.2.calls) :
    branchCalls (ungroupedBranches branches) = branchCalls branches := by
  induction branches with
  | nil => rfl
  | cons branch rest inductionHypothesis =>
    obtain ⟨⟨condition, result⟩, later⟩ := List.forall_mem_cons.mp same
    rw [ungroupedBranches, branchCalls, branchCalls, condition, result, inductionHypothesis later]

theorem argumentCalls_ungrouped {arguments : List Expression}
    (same : ∀ argument ∈ arguments, argument.ungrouped.calls = argument.calls) :
    argumentCalls (ungroupedAll arguments) = argumentCalls arguments := by
  induction arguments with
  | nil => rfl
  | cons argument rest inductionHypothesis =>
    obtain ⟨first, later⟩ := List.forall_mem_cons.mp same
    rw [ungroupedAll, argumentCalls, argumentCalls, first, inductionHypothesis later]

/-- Taking parentheses out of a tree leaves its calls. -/
theorem calls_ungrouped (tree : Expression) : tree.ungrouped.calls = tree.calls := by
  induction tree using parts_induction with
  | integer | float | text | boolean | null | «variable» => rfl
  | binary operator left right leftSame rightSame =>
    rw [ungrouped, calls, calls, leftSame, rightSame]
  | unary operator operand same => rw [ungrouped, calls, calls, same]
  | ternary condition whenTrue whenFalse conditionSame trueSame falseSame =>
    rw [ungrouped, calls, calls, conditionSame, trueSame, falseSame]
  | binding name value uses body valueSame bodySame =>
    rw [ungrouped, calls, calls, valueSame, bodySame]
  | conditional branches otherwise branchesSame otherwiseSame =>
    rw [ungrouped, calls, calls, branchCalls_ungrouped branchesSame]
    cases otherwise with
    | none => rfl
    | some result =>
      rw [ungroupedOptional, otherwiseCalls, otherwiseCalls, otherwiseSame result rfl]
  | call function hint arguments argumentsSame =>
    rw [ungrouped, calls, calls, argumentCalls_ungrouped argumentsSame]
  | cast typeName inner same => rw [ungrouped, calls, calls, same]
  | grouping inner same => rw [ungrouped, calls, same]

theorem calls_eq_of_ungrouped {tree tree' : Expression}
    (same : tree.ungrouped = tree'.ungrouped) : tree.calls = tree'.calls := by
  rw [← tree.calls_ungrouped, same, calls_ungrouped]

end Expression

namespace Grammar

variable {input rest : List TokenKind} {tree : Expression}

/-! ### The calls among tokens -/

/-- How many names among tokens stand before arguments. -/
def callSites : List TokenKind → Nat
  | .name _ :: rest => callSites rest + (opensArguments rest).toNat
  | _ :: rest => callSites rest
  | [] => 0

theorem opensArguments_append (first second : List TokenKind)
    (opens : opensArguments first = true) : opensArguments (first ++ second) = true := by
  unfold opensArguments at opens
  split at opens
  · rfl
  · rfl
  · cases opens

/-- More tokens after some open no fewer arguments. -/
theorem opensArguments_toNat_le (first second : List TokenKind) :
    (opensArguments first).toNat ≤ (opensArguments (first ++ second)).toNat := by
  cases opens : opensArguments first with
  | false => exact Nat.zero_le _
  | true => exact Nat.le_of_eq (congrArg Bool.toNat (opensArguments_append first second opens).symm)

theorem callSites_opening {hint : Option String} (opens : Opens input hint rest) :
    callSites input = callSites rest := by
  cases opens <;> rfl

theorem callSites_limits {uses : UseLimit} (limited : Limits uses input rest) :
    callSites input = callSites rest := by
  cases limited <;> rfl

theorem Joins.callSites_cons {rule : Rule} {kind : TokenKind} {operator : BinaryOperator}
    (joins : Joins rule kind operator) (rest : List TokenKind) :
    callSites (kind :: rest) = callSites rest := by
  cases joins <;> rfl

/-- How many calls there are in a part of an expression. -/
def Phrase.calls : Phrase → Nat
  | .expression tree | .operands _ tree | .power tree | .unary tree | .primary tree => tree.calls
  | .arguments trees => Expression.argumentCalls trees
  | .further branches => Expression.branchCalls branches

theorem Rule.calls_operand (rule : Rule) (tree : Expression) :
    (rule.operand tree).calls = tree.calls := by
  cases rule <;> rfl

/-- Tokens have a name before arguments for each call in the part of an expression that they
spell. -/
theorem Spells.callSites_eq {levels : Nat} {phrase : Phrase}
    (spelled : Spells levels phrase input rest) :
    callSites input = callSites rest + phrase.calls := by
  induction spelled with
  | integer | float | text | boolean | null | noFurther => rfl
  | alone _ same | base _ same | primary _ same | negate _ same | not _ same
  | lastArgument _ same => exact same
  | operand rule _ same =>
    rw [rule.calls_operand] at same
    exact same
  | join joins _ _ leftSame rightSame =>
    rw [Rule.calls_operand] at rightSame
    rw [joins.callSites_cons, rightSame] at leftSame
    simp only [Phrase.calls, Expression.calls] at leftSame ⊢
    omega
  | binding _ limited _ valueSame bodySame =>
    rw [callSites_limits limited] at valueSame
    simp only [Phrase.calls, Expression.calls, callSites, opensArguments, Bool.toNat_false] at *
    omega
  | «variable» noCall =>
    rw [callSites, opensArguments_eq_false noCall]
    rfl
  | emptyCall opens =>
    rw [callSites, opens.opensArguments, callSites_opening opens]
    rfl
  | call opens _ same =>
    rw [callSites, opens.opensArguments, callSites_opening opens, same]
    rfl
  | _ =>
    simp only [Phrase.calls, Expression.calls, Expression.branchCalls, Expression.argumentCalls,
      Expression.otherwiseCalls, callSites, opensArguments, Bool.toNat_false] at *
    omega

/-- A name before arguments is one more than there are on either side of where they begin. -/
theorem callSites_append_call (before : List TokenKind) (name : String) {after : List TokenKind}
    (opens : opensArguments after = true) :
    callSites (before ++ [.name name]) + callSites after <
      callSites (before ++ .name name :: after) := by
  induction before with
  | nil =>
    show 0 + callSites after < callSites after + (opensArguments after).toNat
    rw [opens, Nat.zero_add]
    exact Nat.lt_succ_self _
  | cons kind before inductionHypothesis =>
    cases kind with
    | name other =>
      have more := opensArguments_toNat_le (before ++ [.name name]) after
      rw [List.append_assoc] at more
      simp only [List.cons_append, List.nil_append, callSites] at *
      omega
    | _ => exact inductionHypothesis

/-- There are no fewer names before arguments among tokens than in two parts of them. -/
theorem callSites_append_le (first second : List TokenKind) :
    callSites first + callSites second ≤ callSites (first ++ second) := by
  induction first with
  | nil => exact Nat.le_of_eq (Nat.zero_add _)
  | cons kind first inductionHypothesis =>
    cases kind with
    | name other =>
      have more := opensArguments_toNat_le first second
      simp only [List.cons_append, callSites]
      omega
    | _ => exact inductionHypothesis

theorem callSites_cons_le (kind : TokenKind) (words : List TokenKind) :
    callSites words ≤ callSites (kind :: words) := by
  cases kind with
  | name other => exact Nat.le_add_right _ _
  | _ => exact Nat.le_refl _

/-- Tokens between two parts of others take no name before arguments from either. -/
theorem callSites_between_le (first : List TokenKind) (kind : TokenKind)
    (second : List TokenKind) :
    callSites first + callSites second ≤ callSites (first ++ kind :: second) :=
  Nat.le_trans (Nat.add_le_add_left (callSites_cons_le kind second) _)
    (callSites_append_le first (kind :: second))

theorem callSites_enclosed_le (words : List TokenKind) :
    callSites words ≤ callSites (words ++ [.rightParen]) :=
  callSites_append_le words [.rightParen]

theorem callSites_parenthesisedWords_le (needed : Bool) (words : List TokenKind) :
    callSites words ≤ callSites (parenthesisedWords needed words) := by
  cases needed with
  | true => exact callSites_enclosed_le words
  | false => exact Nat.le_refl _

end Grammar

namespace Expression

open Grammar (callSites callSites_append_le callSites_cons_le callSites_between_le
  callSites_enclosed_le callSites_parenthesisedWords_le)

variable {part tree left right : Expression} {name : String}

/-! ### The calls among the tokens of a tree -/

theorem callSites_binary (operator : BinaryOperator) (left right : Expression) :
    callSites left.words + callSites right.words ≤
      callSites (Expression.binary operator left right).words := by
  rw [words]
  exact Nat.le_trans
    (Nat.add_le_add (callSites_parenthesisedWords_le _ _) (callSites_parenthesisedWords_le _ _))
    (callSites_between_le _ _ _)

theorem callSites_unary (operator : UnaryOperator) (operand : Expression) :
    callSites operand.words ≤ callSites (Expression.unary operator operand).words := by
  rw [words]
  exact Nat.le_trans (callSites_parenthesisedWords_le _ _) (callSites_cons_le _ _)

theorem callSites_ternary (condition whenTrue whenFalse : Expression) :
    callSites condition.words + callSites whenTrue.words + callSites whenFalse.words ≤
      callSites (Expression.ternary condition whenTrue whenFalse).words := by
  have asked := callSites_parenthesisedWords_le condition.isOpenEnded condition.words
  have chosen := callSites_between_le whenTrue.words .colon whenFalse.words
  have whole := callSites_between_le (parenthesisedWords condition.isOpenEnded condition.words)
    .question (whenTrue.words ++ .colon :: whenFalse.words)
  rw [words]
  omega

theorem callSites_binding (name : String) (value : Expression) (uses : UseLimit)
    (body : Expression) : callSites value.words + callSites body.words ≤
      callSites (Expression.binding name value uses body).words := by
  have bound := callSites_parenthesisedWords_le value.isOpenEnded value.words
  have limited := callSites_between_le (Grammar.limitWords uses) .semicolon body.words
  have joined := callSites_append_le (parenthesisedWords value.isOpenEnded value.words)
    (Grammar.limitWords uses ++ .semicolon :: body.words)
  have whole := callSites_append_le [.letWord, .name name, .assign]
    (parenthesisedWords value.isOpenEnded value.words ++
      (Grammar.limitWords uses ++ .semicolon :: body.words))
  rw [words]
  omega

theorem callSites_branch (isFirst : Bool) (condition result : Expression)
    (rest : List (Expression × Expression)) :
    callSites condition.words + callSites result.words + callSites (branchWords false rest) ≤
      callSites (branchWords isFirst ((condition, result) :: rest)) := by
  have asked := callSites_parenthesisedWords_le condition.isOpenEnded condition.words
  have answered := callSites_append_le result.words (branchWords false rest)
  have joined := callSites_between_le (parenthesisedWords condition.isOpenEnded condition.words)
    .colon (result.words ++ branchWords false rest)
  rw [branchWords]
  exact Nat.le_trans (by omega) (callSites_cons_le _ _)

theorem callSites_conditional (branches : List (Expression × Expression))
    (otherwise : Option Expression) :
    callSites (branchWords true branches) + callSites (otherwiseWords otherwise) ≤
      callSites (Expression.conditional branches otherwise).words := by
  rw [words]
  exact callSites_append_le _ _

theorem callSites_argument (isFirst : Bool) (argument : Expression) (rest : List Expression) :
    callSites argument.words + callSites (argumentWords false rest) ≤
      callSites (argumentWords isFirst (argument :: rest)) := by
  have joined := callSites_append_le argument.words (argumentWords false rest)
  have separated := callSites_append_le (if isFirst then [] else [.comma])
    (argument.words ++ argumentWords false rest)
  rw [argumentWords]
  omega

/-- The name of a function stands before its arguments. -/
theorem callSites_call (function : String) (hint : Option String) (arguments : List Expression) :
    callSites (argumentWords true arguments) + 1 ≤
      callSites (Expression.call function hint arguments).words := by
  have enclosed := callSites_enclosed_le (argumentWords true arguments)
  have opens := Grammar.opens_openingWords hint (argumentWords true arguments ++ [.rightParen])
  rw [words, callSites, opens.opensArguments, Grammar.callSites_opening opens]
  exact Nat.succ_le_succ enclosed

theorem callSites_cast (typeName : String) (inner : Expression) :
    callSites inner.words ≤ callSites (Expression.cast typeName inner).words := by
  rw [words]
  exact Nat.le_trans (callSites_enclosed_le inner.words)
    (Nat.le_of_add_left_le (callSites_append_le _ _))

theorem callSites_grouping (inner : Expression) :
    callSites inner.words ≤ callSites (Expression.grouping inner).words := by
  rw [words]
  exact callSites_enclosed_le inner.words

theorem branchCalls_le {branches : List (Expression × Expression)}
    (counted : ∀ branch ∈ branches, branch.1.calls ≤ callSites branch.1.words ∧
      branch.2.calls ≤ callSites branch.2.words) (isFirst : Bool) :
    branchCalls branches ≤ callSites (branchWords isFirst branches) := by
  induction branches generalizing isFirst with
  | nil => exact Nat.zero_le _
  | cons branch rest inductionHypothesis =>
    obtain ⟨⟨condition, result⟩, later⟩ := List.forall_mem_cons.mp counted
    exact Nat.le_trans
      (Nat.add_le_add (Nat.add_le_add condition result) (inductionHypothesis later false))
      (callSites_branch isFirst branch.1 branch.2 rest)

theorem otherwiseCalls_le {otherwise : Option Expression}
    (counted : ∀ result, otherwise = some result → result.calls ≤ callSites result.words) :
    otherwiseCalls otherwise ≤ callSites (otherwiseWords otherwise) := by
  cases otherwise with
  | none => exact Nat.zero_le _
  | some result => exact counted result rfl

theorem argumentCalls_le {arguments : List Expression}
    (counted : ∀ argument ∈ arguments, argument.calls ≤ callSites argument.words)
    (isFirst : Bool) : argumentCalls arguments ≤ callSites (argumentWords isFirst arguments) := by
  induction arguments generalizing isFirst with
  | nil => exact Nat.zero_le _
  | cons argument rest inductionHypothesis =>
    obtain ⟨first, later⟩ := List.forall_mem_cons.mp counted
    exact Nat.le_trans (Nat.add_le_add first (inductionHypothesis later false))
      (callSites_argument isFirst argument rest)

/-- Every call in a tree is a name before arguments among the tokens of the tree. -/
theorem calls_le (tree : Expression) : tree.calls ≤ callSites tree.words := by
  induction tree using parts_induction with
  | integer | float | text | boolean | null | «variable» => exact Nat.zero_le _
  | binary operator left right leftCounted rightCounted =>
    exact Nat.le_trans (Nat.add_le_add leftCounted rightCounted) (callSites_binary _ _ _)
  | unary operator operand counted => exact Nat.le_trans counted (callSites_unary _ _)
  | ternary condition whenTrue whenFalse conditionCounted trueCounted falseCounted =>
    exact Nat.le_trans (Nat.add_le_add (Nat.add_le_add conditionCounted trueCounted) falseCounted)
      (callSites_ternary _ _ _)
  | binding name value uses body valueCounted bodyCounted =>
    exact Nat.le_trans (Nat.add_le_add valueCounted bodyCounted) (callSites_binding _ _ _ _)
  | conditional branches otherwise branchesCounted otherwiseCounted =>
    exact Nat.le_trans
      (Nat.add_le_add (branchCalls_le branchesCounted true) (otherwiseCalls_le otherwiseCounted))
      (callSites_conditional _ _)
  | call function hint arguments counted =>
    exact Nat.le_trans (Nat.succ_le_succ (argumentCalls_le counted true)) (callSites_call _ _ _)
  | cast typeName inner counted => exact Nat.le_trans counted (callSites_cast _ _)
  | grouping inner counted => exact Nat.le_trans counted (callSites_grouping _)

/-! ### Comparisons that look like calls -/

theorem parenthesisedWords_of_not {needed : Bool} (notNeeded : needed = false)
    (words : List TokenKind) : parenthesisedWords needed words = words := by
  rw [notNeeded]
  rfl

/-- A tree whose text may end in a name is written with one at the end. -/
theorem words_of_endsInName (tree : Expression) (operand : tree.isOpenEnded = false) :
    tree.endsInName = true → ∃ before name, tree.words = before ++ [.name name] := by
  induction tree using parts_induction with
  | «variable» name => exact fun _ => ⟨[], name, rfl⟩
  | binary operator left right _ inductionHypothesis =>
    intro named
    obtain ⟨notNeeded, named⟩ := Bool.and_eq_true_iff.mp named
    have needless := (Bool.not_eq_true' _).mp notNeeded
    obtain ⟨before, name, same⟩ :=
      inductionHypothesis (Bool.or_eq_false_iff.mp needless).1 named
    rw [words, parenthesisedWords_of_not needless, same]
    exact ⟨_ ++ operator.kind :: before, name, by rw [List.append_assoc]; rfl⟩
  | unary operator operand inductionHypothesis =>
    intro named
    obtain ⟨notNeeded, named⟩ := Bool.and_eq_true_iff.mp named
    have needless := (Bool.not_eq_true' _).mp notNeeded
    obtain ⟨before, name, same⟩ :=
      inductionHypothesis (Bool.or_eq_false_iff.mp needless).1 named
    rw [words, parenthesisedWords_of_not needless, same]
    exact ⟨operator.kind :: before, name, rfl⟩
  | ternary | binding | conditional => cases operand
  | _ =>
    intro named
    cases named

theorem parenthesisedWords_of_grouped {needed : Bool} {words : List TokenKind}
    (grouped : needed = true ∨ ∃ after, words = .leftParen :: after) :
    ∃ after, parenthesisedWords needed words = .leftParen :: after := by
  cases needed with
  | true => exact ⟨_, rfl⟩
  | false => exact grouped.resolve_left Bool.false_ne_true

/-- A tree whose text begins with an opening parenthesis is written with one first. -/
theorem words_of_beginsGrouped (tree : Expression) :
    tree.beginsGrouped = true → ∃ after, tree.words = .leftParen :: after := by
  induction tree using parts_induction with
  | grouping inner => exact fun _ => ⟨_, rfl⟩
  | binary operator left right inductionHypothesis _ =>
    intro grouped
    obtain ⟨after, same⟩ := parenthesisedWords_of_grouped
      ((Bool.or_eq_true_iff.mp grouped).imp_right inductionHypothesis)
    rw [words, same]
    exact ⟨_, rfl⟩
  | ternary condition whenTrue whenFalse inductionHypothesis _ _ =>
    intro grouped
    obtain ⟨after, same⟩ := parenthesisedWords_of_grouped
      ((Bool.or_eq_true_iff.mp grouped).imp_right inductionHypothesis)
    rw [words, same]
    exact ⟨_, rfl⟩
  | _ =>
    intro grouped
    cases grouped

/-- What asks if something whose text ends in a name is less than a variable is written as the
tokens of that, `<` and the variable. -/
theorem words_of_isBelowName (below : tree.isBelowName = true) :
    ∃ first hint before function, tree = .binary .less first (.variable hint) ∧
      first.words = before ++ [.name function] ∧
      tree.words = first.words ++ [.less, .name hint] := by
  unfold isBelowName at below
  split at below
  next first hint =>
    obtain ⟨notNeeded, named⟩ := Bool.and_eq_true_iff.mp below
    have needless := (Bool.not_eq_true' _).mp notNeeded
    obtain ⟨before, function, same⟩ :=
      first.words_of_endsInName (Bool.or_eq_false_iff.mp needless).1 named
    refine ⟨first, hint, before, function, rfl, same, ?_⟩
    rw [words, parenthesisedWords_of_not needless]
    rfl
  · cases below

/-- A comparison that looks like a call is one name before arguments more than it has calls: the
name that its left side ends in. -/
theorem calls_lt_of_isMistakable (mistakable : tree.isMistakable = true) :
    tree.calls < callSites tree.words := by
  unfold isMistakable at mistakable
  split at mistakable
  next left right =>
    obtain ⟨below, grouped⟩ := Bool.and_eq_true_iff.mp mistakable
    obtain ⟨first, hint, before, function, rfl, firstWords, leftWords⟩ :=
      words_of_isBelowName below
    obtain ⟨after, rightWords⟩ := parenthesisedWords_of_grouped
      ((Bool.or_eq_true_iff.mp grouped).imp_right right.words_of_beginsGrouped)
    have needless : (Expression.binary .less first (.variable hint)).needsParentheses .greater
      false = false := rfl
    have wholeWords : (Expression.binary .greater (.binary .less first (.variable hint))
        right).words =
      before ++ .name function :: .less :: .name hint :: .greater :: .leftParen :: after := by
      rw [words, parenthesisedWords_of_not needless, leftWords, firstWords, rightWords]
      simp only [List.append_assoc, List.cons_append, List.nil_append]
      rfl
    have opens : Grammar.opensArguments (.less :: .name hint :: .greater :: .leftParen :: after) =
      true := rfl
    -- The name at the end of the left side is the one that is no call's in the tree.
    have sites := Grammar.callSites_append_call before function opens
    have firstCalls := first.calls_le
    have rightCalls := Nat.le_trans right.calls_le
      (callSites_parenthesisedWords_le (right.needsParentheses .greater true) right.words)
    rw [rightWords] at rightCalls
    rw [firstWords] at firstCalls
    rw [wholeWords]
    exact Nat.lt_of_le_of_lt (Nat.add_le_add firstCalls rightCalls) sites
  · cases mistakable

theorem branchCalls_lt {branches : List (Expression × Expression)}
    {branch : Expression × Expression} (member : branch ∈ branches)
    (more : branch.1.calls + branch.2.calls <
      callSites branch.1.words + callSites branch.2.words) (isFirst : Bool) :
    branchCalls branches < callSites (branchWords isFirst branches) := by
  induction branches generalizing isFirst with
  | nil => cases member
  | cons other rest inductionHypothesis =>
    refine Nat.lt_of_lt_of_le ?_ (callSites_branch isFirst other.1 other.2 rest)
    rcases List.mem_cons.mp member with rfl | member
    · exact Nat.add_lt_add_of_lt_of_le more
        (branchCalls_le (fun branch _ => ⟨branch.1.calls_le, branch.2.calls_le⟩) false)
    · exact Nat.add_lt_add_of_le_of_lt (Nat.add_le_add other.1.calls_le other.2.calls_le)
        (inductionHypothesis member false)

theorem argumentCalls_lt {arguments : List Expression} {argument : Expression}
    (member : argument ∈ arguments) (more : argument.calls < callSites argument.words)
    (isFirst : Bool) : argumentCalls arguments < callSites (argumentWords isFirst arguments) := by
  induction arguments generalizing isFirst with
  | nil => cases member
  | cons other rest inductionHypothesis =>
    refine Nat.lt_of_lt_of_le ?_ (callSites_argument isFirst other rest)
    rcases List.mem_cons.mp member with rfl | member
    · exact Nat.add_lt_add_of_lt_of_le more
        (argumentCalls_le (fun argument _ => argument.calls_le) false)
    · exact Nat.add_lt_add_of_le_of_lt other.calls_le (inductionHypothesis member false)

/-- A comparison that looks like a call makes a name before arguments more in every tree that it
occurs in. -/
theorem calls_lt_of_within (mistakable : part.isMistakable = true) (within : part.Within tree) :
    tree.calls < callSites tree.words := by
  induction within with
  | itself => exact calls_lt_of_isMistakable mistakable
  | left operator right _ more =>
    exact Nat.lt_of_lt_of_le (Nat.add_lt_add_of_lt_of_le more right.calls_le)
      (callSites_binary _ _ _)
  | right operator left _ more =>
    exact Nat.lt_of_lt_of_le (Nat.add_lt_add_of_le_of_lt left.calls_le more)
      (callSites_binary _ _ _)
  | operand operator _ more => exact Nat.lt_of_lt_of_le more (callSites_unary _ _)
  | condition whenTrue whenFalse _ more =>
    exact Nat.lt_of_lt_of_le (Nat.add_lt_add_of_lt_of_le
      (Nat.add_lt_add_of_lt_of_le more whenTrue.calls_le) whenFalse.calls_le)
      (callSites_ternary _ _ _)
  | whenTrue condition whenFalse _ more =>
    exact Nat.lt_of_lt_of_le (Nat.add_lt_add_of_lt_of_le
      (Nat.add_lt_add_of_le_of_lt condition.calls_le more) whenFalse.calls_le)
      (callSites_ternary _ _ _)
  | whenFalse condition whenTrue _ more =>
    exact Nat.lt_of_lt_of_le (Nat.add_lt_add_of_le_of_lt
      (Nat.add_le_add condition.calls_le whenTrue.calls_le) more) (callSites_ternary _ _ _)
  | value name uses body _ more =>
    exact Nat.lt_of_lt_of_le (Nat.add_lt_add_of_lt_of_le more body.calls_le)
      (callSites_binding _ _ _ _)
  | body name value uses _ more =>
    exact Nat.lt_of_lt_of_le (Nat.add_lt_add_of_le_of_lt value.calls_le more)
      (callSites_binding _ _ _ _)
  | @branchCondition branches condition result otherwise member _ more =>
    exact Nat.lt_of_lt_of_le (Nat.add_lt_add_of_lt_of_le
      (branchCalls_lt member (Nat.add_lt_add_of_lt_of_le more result.calls_le) true)
      (otherwiseCalls_le fun result _ => result.calls_le)) (callSites_conditional _ _)
  | @branchResult branches condition result otherwise member _ more =>
    exact Nat.lt_of_lt_of_le (Nat.add_lt_add_of_lt_of_le
      (branchCalls_lt member (Nat.add_lt_add_of_le_of_lt condition.calls_le more) true)
      (otherwiseCalls_le fun result _ => result.calls_le)) (callSites_conditional _ _)
  | @otherwise branches result _ more =>
    exact Nat.lt_of_lt_of_le (Nat.add_lt_add_of_le_of_lt
      (branchCalls_le (fun branch _ => ⟨branch.1.calls_le, branch.2.calls_le⟩) true) more)
      (callSites_conditional branches (some result))
  | argument function hint member _ more =>
    exact Nat.lt_of_lt_of_le (Nat.succ_lt_succ (argumentCalls_lt member more true))
      (callSites_call _ _ _)
  | inner typeName _ more => exact Nat.lt_of_lt_of_le more (callSites_cast _ _)
  | grouped _ more => exact Nat.lt_of_lt_of_le more (callSites_grouping _)

/-- A tree in which a comparison looks like a call is never read back from its text, not even but
for parentheses: what is read has more calls. -/
theorem ungrouped_ne_of_isMistakable
    (plain : ∀ part : Expression, part.Within tree → part.IsPlain)
    (mistakable : part.isMistakable = true) (within : part.Within tree) {layout : Layout}
    {read : Expression} (parsed : parse (tree.render layout) = .ok read) :
    read.ungrouped ≠ tree.ungrouped := by
  intro same
  obtain ⟨body, stop, tokenized, kinds, noEnd⟩ := tokenize_render_words plain layout
  rw [parse_of_lexed tokenized] at parsed
  have derived := (Grammar.ofTokens_eq_ok_iff noEnd).mp parsed
  rw [kinds] at derived
  have sites : callSites tree.words = 0 + read.calls := derived.callSites_eq
  have more := calls_lt_of_within mistakable within
  rw [sites, Nat.zero_add, calls_eq_of_ungrouped same] at more
  exact Nat.lt_irrefl _ more

/-! ### Chains of comparisons -/

/-- A tree is less than a variable, and that is greater than another tree. -/
def chain (left : Expression) (name : String) (right : Expression) : Expression :=
  .binary .greater (.binary .less left (.variable name)) right

/-- What holds of a chain, of what it compares and of all that occurs in its sides holds of all that
occurs in it. -/
theorem forall_within_chain {holds : Expression → Prop} (whole : holds (chain left name right))
    (compared : holds (.binary .less left (.variable name))) (named : holds (.variable name))
    (onLeft : ∀ part : Expression, part.Within left → holds part)
    (onRight : ∀ part : Expression, part.Within right → holds part) (part : Expression)
    (within : part.Within (chain left name right)) : holds part := by
  cases within with
  | itself => exact whole
  | left _ _ within =>
    cases within with
    | itself => exact compared
    | left _ _ within => exact onLeft part within
    | right _ _ within =>
      cases within
      exact named
  | right _ _ within => exact onRight part within

/-- The text of a chain in which no comparison looks like a call is read as the chain, but for
parentheses, or is nested too deeply. With a comparison that does, it is never read as the chain. -/
theorem parse_compact_chain (isName : IsName name)
    (leftPlain : ∀ part : Expression, part.Within left → part.IsPlain)
    (rightPlain : ∀ part : Expression, part.Within right → part.IsPlain) :
    ((∀ part : Expression, part.Within (chain left name right) → part.isMistakable = false) →
      (∃ error, parse (chain left name right).compact = .error error ∧
          error.message = "Expression nested too deeply.") ∨
        ∃ read, parse (chain left name right).compact = .ok read ∧
          read.ungrouped = (chain left name right).ungrouped) ∧
    ((∃ part : Expression, part.Within (chain left name right) ∧ part.isMistakable = true) →
      ∀ read, parse (chain left name right).compact = .ok read →
        read.ungrouped ≠ (chain left name right).ungrouped) := by
  have plain : ∀ part : Expression, part.Within (chain left name right) → part.IsPlain :=
    forall_within_chain trivial trivial isName leftPlain rightPlain
  refine ⟨fun clear => ?_, fun ⟨part, within, mistakable⟩ read parsed => ?_⟩
  · rcases parse_render_guarded (fun part within => ⟨plain part within, clear part within⟩)
      .compact with parsed | ⟨position, tooDeep⟩
    · exact .inr ⟨_, parsed, ungrouped_guarded _⟩
    · exact .inl ⟨_, tooDeep, rfl⟩
  · exact ungrouped_ne_of_isMistakable plain mistakable within parsed

theorem isName_ofList {character : Char} (word : IsWord character [])
    (kind : TokenKind.ofWord (String.ofList [character]) = .name (String.ofList [character])) :
    IsName (String.ofList [character]) :=
  ⟨character, [], rfl, word, kind⟩

/-- Whether one variable is less than another. -/
def comparedNames : Expression := .binary .less (.variable "c") (.variable "d")

theorem isLegible_variable (isName : IsName name) (part : Expression)
    (within : part.Within (.variable name)) : part.IsLegible := by
  cases within
  exact ⟨isName, rfl⟩

theorem isLegible_one (part : Expression) (within : part.Within (.integer 1)) :
    part.IsLegible := by
  cases within
  exact ⟨(by decide : 0 ≤ (1 : Int64).toInt), rfl⟩

theorem isLegible_comparedNames (part : Expression) (within : part.Within comparedNames) :
    part.IsLegible := by
  cases within with
  | itself => exact ⟨trivial, rfl⟩
  | left _ _ within =>
    exact isLegible_variable (@isName_ofList 'c' (by constructor <;> decide) rfl) part within
  | right _ _ within =>
    exact isLegible_variable (@isName_ofList 'd' (by constructor <;> decide) rfl) part within

theorem isName_a : IsName "a" :=
  @isName_ofList 'a' (by constructor <;> decide) rfl

theorem isName_b : IsName "b" :=
  @isName_ofList 'b' (by constructor <;> decide) rfl

/-- A number on the left is no name of a function, but a variable is. -/
theorem parse_compact_chain_sides :
    ((∃ error, parse (chain (.integer 1) "b" comparedNames).compact = .error error ∧
          error.message = "Expression nested too deeply.") ∨
        ∃ read, parse (chain (.integer 1) "b" comparedNames).compact = .ok read ∧
          read.ungrouped = (chain (.integer 1) "b" comparedNames).ungrouped) ∧
      ∀ read, parse (chain (.variable "a") "b" comparedNames).compact = .ok read →
        read.ungrouped ≠ (chain (.variable "a") "b" comparedNames).ungrouped := by
  have plain := fun part within => (isLegible_comparedNames part within).plain
  have clear : ∀ part : Expression, part.Within (chain (.integer 1) "b" comparedNames) →
      part.isMistakable = false :=
    forall_within_chain (by decide +kernel) rfl rfl
      (fun part within => (isLegible_one part within).clear)
      fun part within => (isLegible_comparedNames part within).clear
  exact ⟨(parse_compact_chain isName_b (fun part within => (isLegible_one part within).plain)
      plain).1 clear,
    (parse_compact_chain isName_b
      (fun part within => (isLegible_variable isName_a part within).plain) plain).2
      ⟨_, .itself, by decide +kernel⟩⟩

/-- A chain of variables can be written, and its text is read as the call of a function. -/
theorem parse_compact_chain_variable :
    (∀ part : Expression, part.Within (chain (.variable "a") "b" comparedNames) → part.IsPlain) ∧
      (chain (.variable "a") "b" comparedNames).compact = "a < b > (c < d)" ∧
      parse "a < b > (c < d)" = .ok (.call "a" (some "b") [comparedNames]) ∧
      (Expression.call "a" (some "b") [comparedNames]).ungrouped ≠
        (chain (.variable "a") "b" comparedNames).ungrouped := by
  have lexed : tokenize "a < b > (c < d)" =
      .ok [⟨.name "a", "a", 0⟩, ⟨.less, "<", 2⟩, ⟨.name "b", "b", 4⟩, ⟨.greater, ">", 6⟩,
        ⟨.leftParen, "(", 8⟩, ⟨.name "c", "c", 9⟩, ⟨.less, "<", 11⟩, ⟨.name "d", "d", 13⟩,
        ⟨.rightParen, ")", 14⟩, .endAt 15] := rfl
  refine ⟨?_, by decide +kernel, (parse_of_lexed lexed).trans rfl, nofun⟩
  exact forall_within_chain trivial trivial isName_b
    (fun part within => (isLegible_variable isName_a part within).plain)
    fun part within => (isLegible_comparedNames part within).plain

end Expression

end Reckon
