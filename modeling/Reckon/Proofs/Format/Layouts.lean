/-
This file shows that the layout of an expression means nothing: the text on one
line and the text broken across several are read as the same tokens, or neither
can be read. Nothing is asked of the tree but that its names are words, which
may be reserved ones. Where its text is another expression, or none, it is so in
both layouts.

The two texts differ in their gaps only. What stands between the gaps is quoted
as a whole or has no quotes: names have none, nor have numbers, be they
negative, infinite or no numbers at all.
-/

import Reckon.Proofs.Binary64.Literal
import Reckon.Proofs.Expression.Occurrence
import Reckon.Proofs.Format.RoundTrip
import Reckon.Proofs.Token.Gaps

namespace Reckon

/-- Characters without a quote among them. -/
def Unquoted (characters : List Char) : Prop :=
  ∀ character ∈ characters, ¬IsQuote character

instance (characters : List Char) : Decidable (Unquoted characters) :=
  List.decidableBAll (fun character => ¬IsQuote character) characters

theorem Unquoted.append {first second : List Char} (unquoted : Unquoted first)
    (unquoted' : Unquoted second) : Unquoted (first ++ second) :=
  List.forall_mem_append.mpr ⟨unquoted, unquoted'⟩

theorem Unquoted.cons {first : Char} {rest : List Char} (here : ¬IsQuote first)
    (later : Unquoted rest) : Unquoted (first :: rest) :=
  List.forall_mem_cons.mpr ⟨here, later⟩

/-! ### Words without quotes -/

/-- A text that is one word, a reserved one or not. -/
def IsWordText (name : String) : Prop :=
  ∃ first rest, name = String.ofList (first :: rest) ∧ IsWord first rest

theorem not_isQuote_of_isNamePart {character : Char} (part : isNamePart character = true) :
    ¬IsQuote character := by
  rintro (rfl | rfl)
  · exact absurd part (by decide)
  · exact absurd part (by decide)

/-- The characters of a name are no quotes. -/
theorem unquoted_nameLength {characters : List Char}
    (whole : nameLength characters = characters.length) : Unquoted characters := by
  induction characters with
  | nil => exact nofun
  | cons first rest inductionHypothesis =>
    have continues : ContinuesName first rest := by
      by_contra ends
      rw [nameLength_cons_of_not ends] at whole
      cases whole
    rw [nameLength_cons continues, List.length_cons] at whole
    refine .cons ?_ (inductionHypothesis (Nat.succ.inj whole))
    rcases continues with part | ⟨rfl, -⟩
    · exact not_isQuote_of_isNamePart part
    · decide

theorem IsWordText.unquoted {name : String} (word : IsWordText name) : Unquoted name.toList := by
  obtain ⟨first, rest, rfl, word⟩ := word
  rw [String.toList_ofList]
  exact .cons word.notQuote (unquoted_nameLength word.whole)

theorem unquoted_digitsOf (number : Nat) : Unquoted (digitsOf number) :=
  fun _ member => not_quote_of_isDigit (isDigit_of_mem_digitsOf member)

theorem unquoted_zeros (count : Nat) : Unquoted (List.replicate count '0') := by
  intro character member
  obtain rfl := List.eq_of_mem_replicate member
  decide

theorem unquoted_toString_nat (number : Nat) : Unquoted (toString number).toList := by
  rw [toList_toString]
  exact unquoted_digitsOf number

theorem unquoted_toString_int (number : Int) : Unquoted (toString number).toList := by
  cases number with
  | ofNat number => exact unquoted_toString_nat number
  | negSucc number =>
    show Unquoted ("-" ++ toString (number + 1)).toList
    rw [String.toList_append]
    exact .append (by decide)
      (unquoted_toString_nat _)

theorem DecimalDigits.unquoted_positional (decimal : DecimalDigits) :
    Unquoted decimal.positional := by
  have point : ¬IsQuote '.' := by decide
  have zero : ¬IsQuote '0' := by decide
  have digits := unquoted_digitsOf decimal.digits
  unfold positional
  dsimp only
  split
  · exact digits.append (unquoted_zeros _)
  · split
    · exact Unquoted.append (fun character member => digits character (List.mem_of_mem_take member))
        (.cons point fun character member => digits character (List.mem_of_mem_drop member))
    · exact .cons zero (.cons point ((unquoted_zeros _).append digits))

theorem unquoted_signText (negative : Bool) : Unquoted (signText negative) := by
  cases negative with
  | true => exact .cons (by decide) nofun
  | false => exact nofun

theorem Binary64.unquoted_positionalText (rank : Nat) :
    Unquoted (Binary64.positionalText rank) := by
  unfold positionalText
  split
  · exact .cons (by decide) nofun
  · exact DecimalDigits.unquoted_positional _

theorem Binary64.unquoted_literalText (number : Binary64) :
    Unquoted number.literalText.toList := by
  unfold literalText
  split
  · rw [String.toList_ofList]
    exact ((unquoted_signText _).append (unquoted_digitsOf _)).append
      (by decide)
  · unfold plainText
    split
    · decide
    · split
      · decide
      · decide
    · rw [String.toList_ofList]
      exact (unquoted_signText _).append (unquoted_positionalText _)

/-! ### Pieces that differ in their gaps -/

/-- Pieces differ in their gaps only, whatever follows them. -/
def Respaced (pieces pieces' : List Piece) : Prop :=
  ∀ ⦃tail tail'⦄, DifferInGaps tail tail' →
    DifferInGaps (spelled pieces ++ tail) (spelled pieces' ++ tail')

variable {pieces pieces' more more' : List Piece}

theorem Respaced.append (respaced : Respaced pieces pieces') (respacedMore : Respaced more more') :
    Respaced (pieces ++ more) (pieces' ++ more') := by
  intro tail tail' differ
  rw [spelled_append, spelled_append]
  exact respaced (respacedMore differ)

theorem respaced_nil : Respaced [] [] :=
  fun _ _ differ => differ

/-- A piece without quotes. -/
theorem respaced_unquoted {piece : Piece} (unquoted : Unquoted piece.characters.toList) :
    Respaced [piece] [piece] := by
  intro tail tail' differ
  rw [spelled_singleton, spelled_singleton]
  exact differ.after unquoted

theorem respaced_quoted (content : String) :
    Respaced [.word (quoted content)] [.word (quoted content)] := by
  intro tail tail' differ
  rw [spelled_singleton, spelled_singleton]
  exact .text content differ

/-- Pieces of which none has a quote. -/
theorem respaced_same (pieces : List Piece)
    (unquoted : ∀ piece ∈ pieces, Unquoted piece.characters.toList) :
    Respaced pieces pieces := by
  induction pieces with
  | nil => exact respaced_nil
  | cons piece rest inductionHypothesis =>
    obtain ⟨here, later⟩ := List.forall_mem_cons.mp unquoted
    exact (respaced_unquoted here).append (inductionHypothesis later)

/-- The gap at the end of a line is some gap in every layout. -/
theorem exists_lineBreak (layout : Layout) (level : Nat) :
    ∃ space, space ≠ [] ∧ (∀ character ∈ space, isBlank character = true) ∧
      (layout.lineBreak level).characters.toList = space := by
  cases layout with
  | compact =>
    exact ⟨[' '], List.cons_ne_nil _ _, List.forall_mem_singleton.mpr (by decide),
      show " ".toList = [' '] by decide⟩
  | pretty =>
    refine ⟨'\n' :: List.replicate (4 * level) ' ', nofun, List.forall_mem_cons.mpr
      ⟨by decide, fun character member => ?_⟩, String.toList_ofList⟩
    obtain rfl := List.eq_of_mem_replicate member
    decide

theorem respaced_lineBreak (layout layout' : Layout) (level level' : Nat) :
    Respaced [layout.lineBreak level] [layout'.lineBreak level'] := by
  intro tail tail' differ
  obtain ⟨space, nonempty, blank, same⟩ := exists_lineBreak layout level
  obtain ⟨space', nonempty', blank', same'⟩ := exists_lineBreak layout' level'
  rw [spelled_singleton, spelled_singleton, same, same']
  exact .gap nonempty nonempty' blank blank' differ

theorem respaced_parenthesised (needed : Bool) (respaced : Respaced pieces pieces') :
    Respaced (parenthesised needed pieces) (parenthesised needed pieces') := by
  cases needed with
  | false => exact respaced
  | true =>
    have opening := respaced_same [.word "("] (by decide)
    have closing := respaced_same [.word ")"] (by decide)
    exact opening.append (respaced.append closing)

/-! ### Expressions -/

namespace Expression

/-- Whether the names that a node of a tree holds are words. -/
def HasWordNames : Expression → Prop
  | .variable name => IsWordText name
  | .binding name _ _ _ => IsWordText name
  | .call function hint _ => IsWordText function ∧ ∀ type, hint = some type → IsWordText type
  | .cast typeName _ => IsWordText typeName
  | _ => True

/-- Two texts of a tree differ in their gaps only, whatever their layouts. -/
def IsRespaced (tree : Expression) : Prop :=
  ∀ layout layout' level level',
    Respaced (tree.pieces layout level) (tree.pieces layout' level')

theorem respaced_word {name : String} (word : IsWordText name) :
    Respaced [.word name] [.word name] :=
  respaced_unquoted word.unquoted

theorem respaced_limit (uses : UseLimit) : Respaced uses.pieces uses.pieces := by
  cases uses with
  | unlimited => exact respaced_nil
  | limited count =>
    have words := respaced_same [.space, .word "as", .space] (by decide)
    exact words.append (respaced_unquoted (unquoted_toString_nat count))

theorem respaced_hint (hint : Option String) :
    (∀ type, hint = some type → IsWordText type) →
    Respaced
      (match hint with
      | some type => [.word "<", .word type, .word ">"]
      | none => [])
      (match hint with
      | some type => [.word "<", .word type, .word ">"]
      | none => []) := by
  intro named
  cases hint with
  | none => exact respaced_nil
  | some type =>
    have opening := respaced_same [.word "<"] (by decide)
    have closing := respaced_same [.word ">"] (by decide)
    exact opening.append ((respaced_word (named type rfl)).append closing)

theorem respaced_branches {branches : List (Expression × Expression)}
    (respaced : ∀ branch ∈ branches, branch.1.IsRespaced ∧ branch.2.IsRespaced)
    (layout layout' : Layout) (level level' : Nat) (isFirst : Bool) :
    Respaced (branchPieces layout level isFirst branches)
      (branchPieces layout' level' isFirst branches) := by
  induction branches generalizing isFirst with
  | nil =>
    rw [branchPieces, branchPieces]
    exact respaced_nil
  | cons branch rest inductionHypothesis =>
    obtain ⟨⟨condition, result⟩, later⟩ := List.forall_mem_cons.mp respaced
    have begins : Respaced (if isFirst then [.word "if", .space]
        else [layout.lineBreak level, .word "elif", .space])
        (if isFirst then [.word "if", .space]
        else [layout'.lineBreak level', .word "elif", .space]) := by
      cases isFirst with
      | true => exact respaced_same [.word "if", .space] (by decide)
      | false =>
        have word := respaced_same [.word "elif", .space] (by decide)
        exact (respaced_lineBreak layout layout' level level').append word
    have colon := respaced_same [.word ":"] (by decide)
    rw [branchPieces, branchPieces]
    exact (((begins.append (respaced_parenthesised _ (condition layout layout' level level'))).append
      (colon.append (respaced_lineBreak layout layout' (level + 1) (level' + 1)))).append
      (result layout layout' _ _)).append (inductionHypothesis later false)

theorem respaced_otherwise {otherwise : Option Expression}
    (respaced : ∀ result, otherwise = some result → result.IsRespaced)
    (layout layout' : Layout) (level level' : Nat) :
    Respaced (otherwisePieces layout level otherwise)
      (otherwisePieces layout' level' otherwise) := by
  cases otherwise with
  | none =>
    rw [otherwisePieces, otherwisePieces]
    exact respaced_nil
  | some result =>
    have word := respaced_same [.word "else", .word ":"] (by decide)
    rw [otherwisePieces, otherwisePieces]
    exact ((respaced_lineBreak layout layout' level level').append
      (word.append (respaced_lineBreak layout layout' (level + 1) (level' + 1)))).append
      (respaced result rfl layout layout' _ _)

theorem respaced_arguments {arguments : List Expression}
    (respaced : ∀ argument ∈ arguments, argument.IsRespaced) (layout layout' : Layout)
    (level level' : Nat) (isFirst : Bool) :
    Respaced (argumentPieces layout level isFirst arguments)
      (argumentPieces layout' level' isFirst arguments) := by
  induction arguments generalizing isFirst with
  | nil =>
    rw [argumentPieces, argumentPieces]
    exact respaced_nil
  | cons argument rest inductionHypothesis =>
    obtain ⟨first, later⟩ := List.forall_mem_cons.mp respaced
    have comma : Respaced (if isFirst then [] else [.word ",", .space])
        (if isFirst then [] else [.word ",", .space]) := by
      cases isFirst with
      | true => exact respaced_nil
      | false => exact respaced_same [.word ",", .space] (by decide)
    rw [argumentPieces, argumentPieces]
    exact (comma.append (first layout layout' level level')).append
      (inductionHypothesis later false)

/-- If all names in a tree are words, its texts differ in their gaps only. -/
theorem isRespaced_of_hasWordNames (tree : Expression) :
    (∀ part : Expression, part.Within tree → part.HasWordNames) → tree.IsRespaced := by
  induction tree using parts_induction with
  | integer number =>
    intro _ layout layout' level level'
    rw [pieces, pieces]
    exact respaced_unquoted (unquoted_toString_int _)
  | float number =>
    intro _ layout layout' level level'
    rw [pieces, pieces]
    exact respaced_unquoted number.unquoted_literalText
  | text content =>
    intro _ layout layout' level level'
    rw [pieces, pieces]
    exact respaced_quoted content
  | boolean truth =>
    intro _ layout layout' level level'
    rw [pieces, pieces]
    cases truth <;> exact respaced_same _ (by decide)
  | null =>
    intro _ layout layout' level level'
    rw [pieces, pieces]
    exact respaced_same [.word "null"] (by decide)
  | «variable» name =>
    intro named layout layout' level level'
    rw [pieces, pieces]
    exact respaced_word (named _ .itself)
  | binary operator left right leftRespaced rightRespaced =>
    intro named layout layout' level level'
    have leftRespaced := leftRespaced fun part within => named part (.left operator right within)
    have rightRespaced :=
      rightRespaced fun part within => named part (.right operator left within)
    have joined : Respaced [.space, .word operator.symbol, .space]
        [.space, .word operator.symbol, .space] := by
      cases operator <;> exact respaced_same _ (by decide)
    rw [pieces, pieces]
    exact ((respaced_parenthesised _ (leftRespaced layout layout' level level')).append
      joined).append (respaced_parenthesised _ (rightRespaced layout layout' level level'))
  | unary operator operand respaced =>
    intro named layout layout' level level'
    have respaced := respaced fun part within => named part (.operand operator within)
    have signed : Respaced operator.pieces operator.pieces := by
      cases operator <;> exact respaced_same _ (by decide)
    rw [pieces, pieces]
    exact signed.append (respaced_parenthesised _ (respaced layout layout' level level'))
  | ternary condition whenTrue whenFalse conditionRespaced trueRespaced falseRespaced =>
    intro named layout layout' level level'
    have conditionRespaced :=
      conditionRespaced fun part within => named part (.condition whenTrue whenFalse within)
    have trueRespaced :=
      trueRespaced fun part within => named part (.whenTrue condition whenFalse within)
    have falseRespaced :=
      falseRespaced fun part within => named part (.whenFalse condition whenTrue within)
    have asks := respaced_same [.space, .word "?", .space] (by decide)
    have chooses := respaced_same [.space, .word ":", .space] (by decide)
    rw [pieces, pieces]
    exact ((((respaced_parenthesised _ (conditionRespaced layout layout' level level')).append
      asks).append (trueRespaced layout layout' level level')).append chooses).append
      (falseRespaced layout layout' level level')
  | binding name value uses body valueRespaced bodyRespaced =>
    intro named layout layout' level level'
    have valueRespaced :=
      valueRespaced fun part within => named part (.value name uses body within)
    have bodyRespaced := bodyRespaced fun part within => named part (.body name value uses within)
    have lets := respaced_same [.word "let", .space] (by decide)
    have assigns := respaced_same [.space, .word "=", .space] (by decide)
    have ends := respaced_same [.word ";"] (by decide)
    have word : Respaced [.word name] [.word name] := respaced_word (named _ .itself)
    rw [pieces, pieces]
    exact (((((lets.append (word.append assigns)).append
      (respaced_parenthesised _ (valueRespaced layout layout' level level'))).append
      (respaced_limit uses)).append
      (ends.append (respaced_lineBreak layout layout' level level')))).append
      (bodyRespaced layout layout' level level')
  | conditional branches otherwise branchesRespaced otherwiseRespaced =>
    intro named layout layout' level level'
    have branchesRespaced : ∀ branch ∈ branches, branch.1.IsRespaced ∧ branch.2.IsRespaced :=
      fun branch member =>
        ⟨(branchesRespaced branch member).1 fun part within =>
            named part (.branchCondition otherwise member within),
          (branchesRespaced branch member).2 fun part within =>
            named part (.branchResult otherwise member within)⟩
    have otherwiseRespaced : ∀ result, otherwise = some result → result.IsRespaced :=
      fun result same => otherwiseRespaced result same fun part within =>
        named part (same ▸ .otherwise branches within)
    rw [pieces, pieces]
    exact (respaced_branches branchesRespaced layout layout' level level' true).append
      (respaced_otherwise otherwiseRespaced layout layout' level level')
  | call function hint arguments argumentsRespaced =>
    intro named layout layout' level level'
    obtain ⟨functionNamed, hintNamed⟩ : IsWordText function ∧ _ := named _ .itself
    have argumentsRespaced : ∀ argument ∈ arguments, argument.IsRespaced :=
      fun argument member => argumentsRespaced argument member fun part within =>
        named part (.argument function hint member within)
    have opening := respaced_same [.word "("] (by decide)
    have closing := respaced_same [.word ")"] (by decide)
    unfold pieces
    exact ((((respaced_word functionNamed).append (respaced_hint hint hintNamed)).append opening).append
      (respaced_arguments argumentsRespaced layout layout' level level' true)).append closing
  | cast typeName inner respaced =>
    intro named layout layout' level level'
    have respaced := respaced fun part within => named part (.inner typeName within)
    have opening := respaced_same [.word "Out", .word "<"] (by decide)
    have closing := respaced_same [.word ">", .word "("] (by decide)
    have ends := respaced_same [.word ")"] (by decide)
    have word : Respaced [.word typeName] [.word typeName] := respaced_word (named _ .itself)
    rw [pieces, pieces]
    exact ((opening.append (word.append closing)).append
      (respaced layout layout' level level')).append ends
  | grouping inner respaced =>
    intro named layout layout' level level'
    have respaced := respaced fun part within => named part (.grouped within)
    have opening := respaced_same [.word "("] (by decide)
    have closing := respaced_same [.word ")"] (by decide)
    rw [pieces, pieces]
    exact (opening.append (respaced layout layout' level level')).append closing

/-- The two texts of a tree are the same program, if all names in the tree are words: they are
read as tokens of the same kinds and lexemes, or neither can be read, and they are the same
expression, or neither is one. -/
theorem tokenize_compact_pretty {tree : Expression}
    (named : ∀ part : Expression, part.Within tree → part.HasWordNames) :
    (tokenize tree.compact).toOption.map (List.map Token.unplaced) =
        (tokenize tree.pretty).toOption.map (List.map Token.unplaced) ∧
      (parse tree.compact).toOption = (parse tree.pretty).toOption := by
  have differ := isRespaced_of_hasWordNames tree named .compact .pretty 0 0 .nil
  rw [List.append_nil, List.append_nil, ← toList_render, ← toList_render] at differ
  exact ⟨differ.tokenize, differ.parse⟩

/-- A conditional with no `else`, whose condition is a variable of a reserved name, and whose
result is a binding of an infinite number before a negative one. -/
def elselessBinding : Expression :=
  .conditional [(.variable "else",
    .binding "x" (.float (.infinite true)) .unlimited (.integer (-1)))] none

theorem hasWordNames_elselessBinding {part : Expression} (within : part.Within elselessBinding) :
    part.HasWordNames := by
  have named : ∀ characters first rest, characters = first :: rest → IsWord first rest →
      IsWordText (String.ofList characters) :=
    fun characters first rest same word => ⟨first, rest, congrArg String.ofList same, word⟩
  cases within with
  | itself => trivial
  | branchCondition _ member within =>
    obtain ⟨rfl, -⟩ := Prod.mk.inj (List.mem_singleton.mp member)
    cases within
    exact named _ 'e' ['l', 's', 'e'] rfl (by constructor <;> decide)
  | branchResult _ member within =>
    obtain ⟨-, rfl⟩ := Prod.mk.inj (List.mem_singleton.mp member)
    cases within with
    | itself => exact named _ 'x' [] rfl (by constructor <;> decide)
    | value _ _ _ within =>
      cases within
      trivial
    | body _ _ _ within =>
      cases within
      trivial

theorem tokenize_compact_pretty_elselessBinding :
    elselessBinding.compact = "if else: let x = -inf; -1" ∧
    elselessBinding.pretty = "if else:\n    let x = -inf;\n    -1" ∧
    (tokenize elselessBinding.compact).toOption.map (List.map Token.unplaced) =
        (tokenize elselessBinding.pretty).toOption.map (List.map Token.unplaced) ∧
      (parse elselessBinding.compact).toOption = (parse elselessBinding.pretty).toOption :=
  ⟨by decide +kernel, by decide +kernel,
    @tokenize_compact_pretty elselessBinding fun _ => hasWordNames_elselessBinding⟩

end Expression

end Reckon
