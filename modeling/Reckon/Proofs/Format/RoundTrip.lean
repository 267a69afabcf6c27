/-
This file shows that an expression that was read from a text is written as a
text that reads back as the same expression, in either layout. The derivation
of the old tokens is followed part by part, and each part is written again.
-/

import Reckon.Proofs.Format.Reprint
import Reckon.Proofs.Grammar.Texts

namespace Reckon

namespace Grammar

variable {levels : Nat} {input rest : List TokenKind}

/-! ### Whole expressions -/

theorem readable_of_suffix {kinds : List TokenKind} (suffix : rest <:+ kinds)
    (readable : ∀ kind ∈ kinds, Readable kind) : ∀ kind ∈ rest, Readable kind :=
  fun kind member => readable kind (suffix.subset member)

theorem readable_tail {kind : TokenKind} {kinds : List TokenKind}
    (readable : ∀ other ∈ kind :: kinds, Readable other) : ∀ other ∈ kinds, Readable other :=
  readable_of_suffix (List.suffix_cons kind kinds) readable

theorem Opens.isName {hint : Option String} (opens : Opens input hint rest)
    (readable : ∀ kind ∈ input, Readable kind) : ∀ type, hint = some type → IsName type := by
  rintro type rfl
  rw [opens.eq_of_hint] at readable
  exact readable_tail readable _ List.mem_cons_self

/-- Every part of an expression that was read can be written again, if its names and numbers are
ones a text can hold and its literals with a point are below `10 ^ 15`. -/
theorem Spells.reprints {phrase : Phrase} (spelled : Spells levels phrase input rest)
    (readable : ∀ kind ∈ input, Readable kind)
    (bounded : ∀ number ∈ phrase.floats, number.less (.ofNat (Nat.pow 10 15)) = true) :
    Reprints levels phrase input rest := by
  induction spelled with
  | binding valueSpelled limited bodySpelled valueReprints bodyReprints =>
    obtain ⟨valueBounded, bodyBounded⟩ := List.forall_mem_append.mp bounded
    have valueReadable := readable_tail (readable_tail (readable_tail readable))
    have limitReadable := readable_of_suffix valueSpelled.suffix valueReadable
    have bodyReadable := readable_tail (readable_of_suffix limited.suffix limitReadable)
    have isName := readable_tail readable _ List.mem_cons_self
    exact (valueReprints valueReadable valueBounded).binding isName valueSpelled.isTight limited
      limitReadable (bodyReprints bodyReadable bodyBounded)
  | conditional conditionSpelled resultSpelled furtherSpelled _ conditionReprints resultReprints
      furtherReprints otherwiseReprints =>
    obtain ⟨branchesBounded, otherwiseBounded⟩ := List.forall_mem_append.mp bounded
    obtain ⟨branchBounded, furtherBounded⟩ := List.forall_mem_append.mp branchesBounded
    obtain ⟨conditionBounded, resultBounded⟩ := List.forall_mem_append.mp branchBounded
    have conditionReadable := readable_tail readable
    have resultReadable :=
      readable_tail (readable_of_suffix conditionSpelled.suffix conditionReadable)
    have furtherReadable := readable_of_suffix resultSpelled.suffix resultReadable
    have otherwiseReadable :=
      readable_tail (readable_tail (readable_of_suffix furtherSpelled.suffix furtherReadable))
    exact (conditionReprints conditionReadable conditionBounded).conditional
      conditionSpelled.isTight (resultReprints resultReadable resultBounded)
      (furtherReprints furtherReadable furtherBounded)
      (otherwiseReprints otherwiseReadable otherwiseBounded)
  | ternary conditionSpelled trueSpelled _ conditionReprints trueReprints falseReprints =>
    obtain ⟨firstBounded, falseBounded⟩ := List.forall_mem_append.mp bounded
    obtain ⟨conditionBounded, trueBounded⟩ := List.forall_mem_append.mp firstBounded
    have trueReadable := readable_tail (readable_of_suffix conditionSpelled.suffix readable)
    have falseReadable := readable_tail (readable_of_suffix trueSpelled.suffix trueReadable)
    exact (conditionReprints readable conditionBounded).ternary conditionSpelled.isTight
      (trueReprints trueReadable trueBounded) (falseReprints falseReadable falseBounded)
  | alone _ reprints => exact (reprints readable bounded).lift .alone fun _ _ => rfl
  | noFurther => exact Reprints.noFurther _ _
  | further conditionSpelled resultSpelled _ conditionReprints resultReprints furtherReprints =>
    obtain ⟨branchBounded, furtherBounded⟩ := List.forall_mem_append.mp bounded
    obtain ⟨conditionBounded, resultBounded⟩ := List.forall_mem_append.mp branchBounded
    have conditionReadable := readable_tail readable
    have resultReadable :=
      readable_tail (readable_of_suffix conditionSpelled.suffix conditionReadable)
    have furtherReadable := readable_of_suffix resultSpelled.suffix resultReadable
    exact (conditionReprints conditionReadable conditionBounded).further conditionSpelled.isTight
      (resultReprints resultReadable resultBounded) (furtherReprints furtherReadable furtherBounded)
  | operand rule _ reprints =>
    refine (reprints readable ?_).lift (.operand rule) fun layout level =>
      (rule.pieces_operand _ layout level).symm
    rw [rule.floats_operand]
    exact bounded
  | join joins leftSpelled rightSpelled leftReprints rightReprints =>
    obtain ⟨leftBounded, rightBounded⟩ := List.forall_mem_append.mp bounded
    have rightReadable := readable_tail (readable_of_suffix leftSpelled.suffix readable)
    refine (leftReprints readable leftBounded).join joins leftSpelled.isTight
      (rightReprints rightReadable ?_) (Rule.tight_operand rightSpelled.isTight)
    rw [Rule.floats_operand]
    exact rightBounded
  | base _ reprints => exact (reprints readable bounded).lift .base fun _ _ => rfl
  | raise baseSpelled exponentSpelled baseReprints exponentReprints =>
    obtain ⟨baseBounded, exponentBounded⟩ := List.forall_mem_append.mp bounded
    have exponentReadable := readable_tail (readable_of_suffix baseSpelled.suffix readable)
    exact (baseReprints readable baseBounded).raise baseSpelled.isTight
      (exponentReprints exponentReadable exponentBounded) exponentSpelled.isTight
  | negate operandSpelled reprints =>
    exact (reprints (readable_tail readable) bounded).unary .negate operandSpelled.isTight
  | not operandSpelled reprints =>
    exact (reprints (readable_tail readable) bounded).unary .not operandSpelled.isTight
  | primary _ reprints => exact (reprints readable bounded).lift .primary fun _ _ => rfl
  | integer =>
    refine .single .integer (fun layout level => ?_)
      (prints_toInt (readable _ List.mem_cons_self))
    rw [Expression.pieces]
  | float =>
    refine .single .float (fun layout level => ?_)
      (prints_float (readable _ List.mem_cons_self) (bounded _ List.mem_cons_self))
    rw [Expression.pieces]
  | text =>
    refine .single .text (fun layout level => ?_) (prints_text _)
    rw [Expression.pieces]
  | boolean =>
    refine .single .boolean (fun layout level => ?_) (prints_boolean _)
    rw [Expression.pieces]
  | null =>
    refine .single .null (fun layout level => ?_) (prints_reserved "null" rfl rfl (by decide))
    rw [Expression.pieces]
  | grouping _ reprints => exact (reprints (readable_tail readable) bounded).grouping
  | cast _ reprints =>
    have inner := readable_tail (readable_tail readable)
    exact (reprints (readable_tail (readable_tail (readable_tail inner))) bounded).cast
      (inner _ List.mem_cons_self)
  | «variable» noCall => exact .variable (readable _ List.mem_cons_self) noCall
  | emptyCall opens =>
    have hintIsName := opens.isName (readable_tail readable)
    refine .called (readable _ List.mem_cons_self) hintIsName opens fun output rewrites => ?_
    refine ⟨[], .emptyCall, rewrites.keep _, fun layout level => ?_⟩
    rw [Expression.argumentPieces]
    exact prints_nil
  | call opens argumentsSpelled reprints =>
    have hintIsName := opens.isName (readable_tail readable)
    have argumentsReadable := readable_of_suffix opens.suffix (readable_tail readable)
    refine .called (readable _ List.mem_cons_self) hintIsName opens fun output rewrites => ?_
    obtain ⟨words, spelled, rewritten, prints⟩ :=
      reprints argumentsReadable bounded _ (rewrites.keep .rightParen)
    exact ⟨words, fun opens => .call opens spelled, rewritten, prints⟩
  | lastArgument _ reprints =>
    have argumentBounded := (List.forall_mem_append.mp bounded).1
    exact (reprints readable argumentBounded).lastArgument
  | @arguments _ _ arguments _ _ _ argumentSpelled argumentsSpelled reprints laterReprints =>
    obtain ⟨argumentBounded, laterBounded⟩ := List.forall_mem_append.mp bounded
    have laterReadable := readable_tail (readable_of_suffix argumentSpelled.suffix readable)
    cases arguments with
    | nil => cases argumentsSpelled
    | cons next arguments =>
      exact (reprints readable argumentBounded).arguments
        (laterReprints laterReadable laterBounded)

end Grammar

namespace Expression

theorem toList_render (layout : Layout) (tree : Expression) :
    (tree.render layout).toList = spelled (tree.pieces layout 0) := by
  unfold render spelled
  rw [String.toList_join, List.flatMap_map]

/-- An expression that is spelled by tokens is written as a text whose tokens spell it. -/
theorem tokenize_render {levels : Nat} {input : List TokenKind} {tree : Expression}
    (spelled : Grammar.Spells levels (.expression tree) input [])
    (readable : ∀ kind ∈ input, Readable kind)
    (bounded : ∀ number ∈ tree.floats, number.less (.ofNat (Nat.pow 10 15)) = true)
    (layout : Layout) : ∃ body stop, tokenize (tree.render layout) = .ok (body ++ [.endAt stop]) ∧
      Grammar.Spells levels (.expression tree) (body.map Token.kind) [] ∧
      ∀ token ∈ body, token.kind ≠ .endOfInput := by
  obtain ⟨words, spelled, -, prints⟩ := spelled.reprints readable bounded [] .nil
  have ends : Ends [] := trivial
  have scans := prints layout 0 ends scans_nil
  rw [List.append_nil] at spelled
  rw [List.append_nil, List.append_nil] at scans
  have rendered : Scans (tree.render layout).toList words := by
    rw [toList_render]
    exact scans
  obtain ⟨body, stop, tokenized, rfl, noEnd⟩ := rendered.tokenize
  exact ⟨body, stop, tokenized, spelled, noEnd⟩

/-- Writing an expression that was read from a text loses nothing: the new text is read as the
same expression, in either layout, if the literals with a point are below `10 ^ 15`. -/
theorem parse_render {source : String} {tree : Expression} (read : parse source = .ok tree)
    (bounded : ∀ number ∈ tree.floats, number.less (.ofNat (Nat.pow 10 15)) = true)
    (layout : Layout) : parse (tree.render layout) = .ok tree := by
  obtain ⟨kinds, -, readable, derived⟩ := Grammar.exists_scans_of_parse read
  obtain ⟨body, stop, tokenized, spelled, noEnd⟩ :=
    tokenize_render derived readable bounded layout
  rw [parse_of_lexed tokenized]
  exact (Grammar.ofTokens_eq_ok_iff noEnd).mpr spelled

/-- Both layouts of an expression that was read from a text read back as the expression. -/
theorem parse_compact_pretty {source : String} {tree : Expression}
    (read : parse source = .ok tree)
    (bounded : ∀ number ∈ tree.floats, number.less (.ofNat (Nat.pow 10 15)) = true) :
    parse tree.compact = .ok tree ∧ parse tree.pretty = .ok tree :=
  ⟨parse_render read bounded .compact, parse_render read bounded .pretty⟩

/-- The square of one half, with the half bound to a name that may be read twice. -/
def squaredHalf : Expression :=
  .binding "x" (.float (.ofDecimalText false ⟨['0'], ['5'], 0⟩)) (.limited 2)
    (.binary .multiply (.variable "x") (.variable "x"))

theorem parse_compact_pretty_squaredHalf :
    parse squaredHalf.compact = .ok squaredHalf ∧ parse squaredHalf.pretty = .ok squaredHalf :=
  @parse_compact_pretty "let x=0.5 as 2;x*x" squaredHalf rfl (by decide +kernel)

end Expression

end Reckon
