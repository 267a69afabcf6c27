/-
This file says which tokens the text of a tree is read as, whether or not these
tokens spell the tree. They follow from the tree alone: the layout decides about
gaps only. So the two texts of a tree are read as the same tokens, if what its
nodes hold can be written.
-/

import Reckon.Proofs.Format.RoundTrip
import Reckon.Proofs.Format.Tightness

namespace Reckon

/-- Tokens in parentheses, if they need them. -/
def parenthesisedWords (needed : Bool) (words : List TokenKind) : List TokenKind :=
  if needed then .leftParen :: (words ++ [.rightParen]) else words

namespace Expression

/-! ### The tokens of a tree -/

mutual

/-- The tokens that a tree is written as. -/
def words : Expression → List TokenKind
  | .integer number => [.integer number]
  | .float number => [.float number]
  | .text content => [.text content]
  | .boolean truth => [.boolean truth]
  | .null => [.null]
  | .variable name => [.name name]
  | .binary operator left right =>
    parenthesisedWords (left.needsParentheses operator false) left.words ++
      operator.kind :: parenthesisedWords (right.needsParentheses operator true) right.words
  | .unary operator operand =>
    operator.kind :: parenthesisedWords operand.needsUnaryParentheses operand.words
  | .ternary condition whenTrue whenFalse =>
    parenthesisedWords condition.isOpenEnded condition.words ++
      .question :: (whenTrue.words ++ .colon :: whenFalse.words)
  | .binding name value uses body =>
    [.letWord, .name name, .assign] ++
      (parenthesisedWords value.isOpenEnded value.words ++
        (Grammar.limitWords uses ++ .semicolon :: body.words))
  | .conditional branches otherwise => branchWords true branches ++ otherwiseWords otherwise
  | .call function hint arguments =>
    .name function :: (Grammar.openingWords hint ++ (argumentWords true arguments ++ [.rightParen]))
  | .cast typeName inner =>
    [.outWord, .less, .name typeName, .greater, .leftParen] ++ (inner.words ++ [.rightParen])
  | .grouping inner => .leftParen :: (inner.words ++ [.rightParen])

/-- The tokens of the branches of a conditional; the first of them begins with another word. -/
def branchWords (isFirst : Bool) : List (Expression × Expression) → List TokenKind
  | [] => []
  | (condition, result) :: rest =>
    (if isFirst then .ifWord else .elifWord) ::
      (parenthesisedWords condition.isOpenEnded condition.words ++
        .colon :: (result.words ++ branchWords false rest))

/-- The tokens of what a conditional gives when no branch applies. -/
def otherwiseWords : Option Expression → List TokenKind
  | none => []
  | some result => .elseWord :: .colon :: result.words

/-- The tokens of the arguments of a call, with commas between them. -/
def argumentWords (isFirst : Bool) : List Expression → List TokenKind
  | [] => []
  | argument :: rest =>
    (if isFirst then [] else [.comma]) ++ (argument.words ++ argumentWords false rest)

end

end Expression

variable {pieces : List Piece} {words : List TokenKind} {layout : Layout} {level : Nat}

/-! ### Pieces around the parts of a tree -/

theorem prints_parenthesised (needed : Bool) (prints : Prints pieces words) :
    Prints (parenthesised needed pieces) (parenthesisedWords needed words) := by
  cases needed with
  | true => exact printsApart_leftParen.before prints.rightParen
  | false => exact prints

/-- The reserved word that a branch begins with. -/
theorem printsApart_branch (layout : Layout) (level : Nat) (isFirst : Bool) :
    PrintsApart (if isFirst then [.word "if", .space]
      else [layout.lineBreak level, .word "elif", .space])
      [if isFirst then .ifWord else .elifWord] := by
  cases isFirst with
  | true =>
    have word : Prints [.word "if"] [.ifWord] := prints_reserved "if" rfl rfl (by decide)
    exact word.space
  | false =>
    have word : Prints [.word "elif"] [.elifWord] := prints_reserved "elif" rfl rfl (by decide)
    exact ((printsApart_lineBreak layout level).before word).space

theorem printsApart_argument (isFirst : Bool) :
    PrintsApart (if isFirst then [] else [.word ",", .space])
      (if isFirst then [] else [.comma]) := by
  cases isFirst with
  | true => exact fun _ _ scans => scans
  | false => exact printsApart_comma.append printsApart_space

theorem ends_otherwisePieces (otherwise : Option Expression) {tail : List Char}
    (ends : Ends tail) :
    Ends (spelled (Expression.otherwisePieces layout level otherwise) ++ tail) := by
  cases otherwise with
  | none =>
    rw [Expression.otherwisePieces]
    exact ends
  | some result =>
    rw [Expression.otherwisePieces]
    exact ends_lineBreak layout level _ tail

theorem ends_argumentPieces (arguments : List Expression) {tail : List Char} (ends : Ends tail) :
    Ends (spelled (Expression.argumentPieces layout level false arguments) ++ tail) := by
  cases arguments with
  | nil =>
    rw [Expression.argumentPieces]
    exact ends
  | cons argument rest =>
    rw [Expression.argumentPieces]
    exact (rfl : endsWord ',' = true)

/-! ### The parts of a tree -/

namespace Expression

/-- A tree is written as its tokens, at every place in either layout. -/
def IsWorded (tree : Expression) : Prop :=
  ∀ layout level, Prints (tree.pieces layout level) tree.words

theorem prints_branches {branches : List (Expression × Expression)}
    (worded : ∀ branch ∈ branches, branch.1.IsWorded ∧ branch.2.IsWorded) (layout : Layout)
    (level : Nat) (isFirst : Bool) :
    Prints (branchPieces layout level isFirst branches) (branchWords isFirst branches) := by
  induction branches generalizing isFirst with
  | nil =>
    rw [branchPieces, branchWords]
    exact prints_nil
  | cons branch rest inductionHypothesis =>
    obtain ⟨⟨condition, result⟩, later⟩ := List.forall_mem_cons.mp worded
    have opened := (printsApart_branch layout level isFirst).before
      (prints_parenthesised branch.1.isOpenEnded (condition layout level))
    have answered := (opened.before (Grammar.printsApart_colon_lineBreak layout (level + 1))
      fun tail => (rfl : endsWord ':' = true)).before (result layout (layout.inner level))
    have prints := answered.append (inductionHypothesis later false)
      fun tail ends => Grammar.ends_branchPieces layout level rest ends
    rw [branchPieces, branchWords]
    simpa only [List.append_assoc, List.cons_append, List.nil_append] using prints

theorem prints_otherwise {otherwise : Option Expression}
    (worded : ∀ result, otherwise = some result → result.IsWorded) (layout : Layout)
    (level : Nat) :
    Prints (otherwisePieces layout level otherwise) (otherwiseWords otherwise) := by
  cases otherwise with
  | none =>
    rw [otherwisePieces, otherwiseWords]
    exact prints_nil
  | some result =>
    rw [otherwisePieces, otherwiseWords]
    exact (Grammar.printsApart_else layout level).before
      (worded result rfl layout (layout.inner level))

theorem prints_arguments {arguments : List Expression}
    (worded : ∀ argument ∈ arguments, argument.IsWorded) (layout : Layout) (level : Nat)
    (isFirst : Bool) :
    Prints (argumentPieces layout level isFirst arguments) (argumentWords isFirst arguments) := by
  induction arguments generalizing isFirst with
  | nil =>
    rw [argumentPieces, argumentWords]
    exact prints_nil
  | cons argument rest inductionHypothesis =>
    obtain ⟨first, later⟩ := List.forall_mem_cons.mp worded
    have prints := ((printsApart_argument isFirst).before (first layout level)).append
      (inductionHypothesis later false) fun tail ends => ends_argumentPieces rest ends
    rw [argumentPieces, argumentWords]
    simpa only [List.append_assoc] using prints

theorem isWorded_binary {operator : BinaryOperator} {left right : Expression}
    (leftWorded : left.IsWorded) (rightWorded : right.IsWorded) :
    (Expression.binary operator left right).IsWorded := by
  intro layout level
  have prints := ((prints_parenthesised (left.needsParentheses operator false)
    (leftWorded layout level)).before (printsApart_operator operator)
      (ends_between _)).before
    (prints_parenthesised (right.needsParentheses operator true) (rightWorded layout level))
  rw [pieces, words]
  simpa only [List.append_assoc, List.cons_append, List.nil_append] using prints

theorem isWorded_ternary {condition whenTrue whenFalse : Expression}
    (conditionWorded : condition.IsWorded) (trueWorded : whenTrue.IsWorded)
    (falseWorded : whenFalse.IsWorded) :
    (Expression.ternary condition whenTrue whenFalse).IsWorded := by
  intro layout level
  have asked := (prints_parenthesised condition.isOpenEnded (conditionWorded layout level)).before
    printsApart_question (ends_between _)
  have chosen := (asked.before (trueWorded layout level)).before printsApart_choice
    (ends_between _)
  have prints := chosen.before (falseWorded layout level)
  rw [pieces, words]
  simpa only [List.append_assoc, List.cons_append, List.nil_append] using prints

theorem isWorded_binding {name : String} {value body : Expression} {uses : UseLimit}
    (plain : (Expression.binding name value uses body).IsPlain)
    (valueWorded : value.IsWorded) (bodyWorded : body.IsWorded) :
    (Expression.binding name value uses body).IsWorded := by
  intro layout level
  obtain ⟨isName, counts⟩ := plain
  have word : Prints [.word "let"] [.letWord] := prints_reserved "let" rfl rfl (by decide)
  have named := (word.space.before (prints_name isName)).before printsApart_assign
    (ends_between _)
  have limits := (Grammar.prints_limit counts).before
    (Grammar.printsApart_semicolon_lineBreak layout level) fun tail => (rfl : endsWord ';' = true)
  have prints := ((named.before (prints_parenthesised value.isOpenEnded
    (valueWorded layout level))).before limits (Grammar.ends_limit uses layout level)).before
    (bodyWorded layout level)
  rw [pieces, words]
  simpa only [List.append_assoc, List.cons_append, List.nil_append] using prints

theorem isWorded_call {function : String} {hint : Option String} {arguments : List Expression}
    (plain : (Expression.call function hint arguments).IsPlain)
    (argumentsWorded : ∀ argument ∈ arguments, argument.IsWorded) :
    (Expression.call function hint arguments).IsWorded := by
  intro layout level
  obtain ⟨isName, hintIsName⟩ := plain
  have prints := ((Grammar.printsApart_opening isName hintIsName).before
    (prints_arguments argumentsWorded layout level true)).rightParen
  rw [List.append_assoc _ (argumentWords true arguments), @List.cons_append TokenKind] at prints
  rw [words]
  unfold pieces
  exact prints

theorem isWorded_cast {typeName : String} {inner : Expression} (isName : IsName typeName)
    (innerWorded : inner.IsWorded) : (Expression.cast typeName inner).IsWorded := by
  intro layout level
  have word : Prints [.word "Out"] [.outWord] := prints_reserved "Out" rfl rfl (by decide)
  have opened := word.before (printsApart_hint isName) fun tail => (rfl : endsWord '<' = true)
  have prints := (opened.before (innerWorded layout level)).rightParen
  rw [pieces, words]
  simpa only [List.append_assoc, List.cons_append, List.nil_append] using prints

/-- A tree whose nodes can be written is written as its tokens. -/
theorem isWorded_of_isPlain (tree : Expression) :
    (∀ part : Expression, part.Within tree → part.IsPlain) → tree.IsWorded := by
  induction tree using parts_induction with
  | integer number =>
    intro plain layout level
    rw [pieces, words]
    exact Grammar.prints_toInt (plain _ .itself)
  | float number =>
    intro plain layout level
    obtain ⟨unsigned, bounded⟩ := plain _ .itself
    rw [pieces, words]
    exact prints_float unsigned bounded
  | text content =>
    intro _ layout level
    rw [pieces, words]
    exact prints_text content
  | boolean truth =>
    intro _ layout level
    rw [pieces, words]
    exact prints_boolean truth
  | null =>
    intro _ layout level
    rw [pieces, words]
    exact prints_reserved "null" rfl rfl (by decide)
  | «variable» name =>
    intro plain layout level
    rw [pieces, words]
    exact prints_name (plain _ .itself)
  | binary operator left right leftWorded rightWorded =>
    exact fun plain => isWorded_binary
      (leftWorded fun part within => plain part (.left operator right within))
      (rightWorded fun part within => plain part (.right operator left within))
  | unary operator operand worded =>
    intro plain layout level
    have operandPrints :=
      worded (fun part within => plain part (.operand operator within)) layout level
    rw [pieces, words]
    exact (printsApart_unaryOperator operator).before (prints_parenthesised _ operandPrints)
  | ternary condition whenTrue whenFalse conditionWorded trueWorded falseWorded =>
    exact fun plain => isWorded_ternary
      (conditionWorded fun part within => plain part (.condition whenTrue whenFalse within))
      (trueWorded fun part within => plain part (.whenTrue condition whenFalse within))
      (falseWorded fun part within => plain part (.whenFalse condition whenTrue within))
  | binding name value uses body valueWorded bodyWorded =>
    exact fun plain => isWorded_binding (plain _ .itself)
      (valueWorded fun part within => plain part (.value name uses body within))
      (bodyWorded fun part within => plain part (.body name value uses within))
  | conditional branches otherwise branchesWorded otherwiseWorded =>
    intro plain layout level
    have branchesWorded : ∀ branch ∈ branches, branch.1.IsWorded ∧ branch.2.IsWorded :=
      fun branch member =>
        ⟨(branchesWorded branch member).1 fun part within =>
            plain part (.branchCondition otherwise member within),
          (branchesWorded branch member).2 fun part within =>
            plain part (.branchResult otherwise member within)⟩
    have otherwiseWorded : ∀ result, otherwise = some result → result.IsWorded :=
      fun result same => otherwiseWorded result same fun part within =>
        plain part (same ▸ .otherwise branches within)
    rw [pieces, words]
    exact (prints_branches branchesWorded layout level true).append
      (prints_otherwise otherwiseWorded layout level)
      fun tail ends => ends_otherwisePieces otherwise ends
  | call function hint arguments argumentsWorded =>
    exact fun plain => isWorded_call (plain _ .itself) fun argument member =>
      argumentsWorded argument member fun part within =>
        plain part (.argument function hint member within)
  | cast typeName inner worded =>
    exact fun plain => isWorded_cast (plain _ .itself)
      (worded fun part within => plain part (.inner typeName within))
  | grouping inner worded =>
    intro plain layout level
    have innerPrints := worded (fun part within => plain part (.grouped within)) layout level
    rw [pieces, words]
    exact printsApart_leftParen.before innerPrints.rightParen

/-- Either text of a tree whose nodes can be written is read as the tokens of the tree. -/
theorem tokenize_render_words {tree : Expression}
    (plain : ∀ part : Expression, part.Within tree → part.IsPlain) (layout : Layout) :
    ∃ body stop, tokenize (tree.render layout) = .ok (body ++ [.endAt stop]) ∧
      body.map Token.kind = tree.words ∧ ∀ token ∈ body, token.kind ≠ .endOfInput := by
  have scans := isWorded_of_isPlain tree plain layout 0 (show Ends [] from trivial) scans_nil
  rw [List.append_nil, List.append_nil] at scans
  have rendered : Scans (tree.render layout).toList tree.words := by
    rw [toList_render]
    exact scans
  exact rendered.tokenize

end Expression

end Reckon
