/-
This file shows that a cast may be written around the text of any expression.
However far to the right an expression reaches, it ends before a closing
parenthesis that it did not open, since no derivation goes on there: the one
thing that could make a difference is a name at the end, and a name is not the
name of a call before a closing parenthesis.

So the text of a cast around a text is read as the cast of the tree of that
text. Only the limit on nesting may be in the way.
-/

import Reckon.Proofs.Format.Pieces
import Reckon.Proofs.Grammar.Nesting
import Reckon.Proofs.Grammar.Texts

namespace Reckon

namespace Grammar

variable {levels : Nat} {input rest : List TokenKind} {tree : Expression}

/-! ### Tokens before a closing parenthesis -/

/-- Tokens that open arguments before a closing parenthesis open them by themselves. -/
theorem Opens.before_rightParen {hint : Option String} {later after : List TokenKind}
    (opens : Opens (rest ++ .rightParen :: later) hint after) :
    ∃ after', Opens rest hint after' := by
  rcases rest with _ | ⟨first, _ | ⟨second, _ | ⟨third, _ | ⟨fourth, rest⟩⟩⟩⟩ <;> cases opens
  case cons.cons.cons.cons.hint => exact ⟨rest, .hint _ _⟩
  all_goals exact ⟨_, .parenthesis _⟩

theorem Opens.followed {hint : Option String} (opens : Opens input hint rest)
    (more : List TokenKind) : Opens (input ++ more) hint (rest ++ more) := by
  cases opens with
  | parenthesis => exact .parenthesis _
  | hint => exact .hint _ _

theorem Limits.followed {uses : UseLimit} (limited : Limits uses input rest)
    (more : List TokenKind) : Limits uses (input ++ more) (rest ++ more) := by
  cases limited with
  | absent => exact .absent _
  | count _ counted => exact .count _ counted
  | negated _ counted => exact .negated _ counted

/-- What is spelled at the front of tokens is spelled there by the same ones if a closing
parenthesis comes after all of them. -/
theorem Spells.followed {phrase : Phrase} (spelled : Spells levels phrase input rest)
    (later : List TokenKind) :
    Spells levels phrase (input ++ .rightParen :: later) (rest ++ .rightParen :: later) := by
  induction spelled with
  | binding _ limited _ value body => exact .binding value (limited.followed _) body
  | conditional _ _ _ _ condition result further otherwise =>
    exact .conditional condition result further otherwise
  | ternary _ _ _ condition whenTrue whenFalse => exact .ternary condition whenTrue whenFalse
  | alone _ operand => exact .alone operand
  | noFurther => exact .noFurther
  | further _ _ _ condition result further => exact .further condition result further
  | operand rule _ operand => exact .operand rule operand
  | join joins _ _ left right => exact .join joins left right
  | base _ operand => exact .base operand
  | raise _ _ base exponent => exact .raise base exponent
  | negate _ operand => exact .negate operand
  | not _ operand => exact .not operand
  | primary _ operand => exact .primary operand
  | integer => exact .integer
  | float => exact .float
  | text => exact .text
  | boolean => exact .boolean
  | null => exact .null
  | grouping _ inner => exact .grouping inner
  | cast _ inner => exact .cast inner
  | «variable» noCall =>
    refine .variable fun hint after opens => ?_
    obtain ⟨after', opened⟩ := opens.before_rightParen
    exact noCall hint after' opened
  | emptyCall opens => exact .emptyCall (opens.followed _)
  | call opens _ arguments => exact .call (opens.followed _) arguments
  | lastArgument _ argument => exact .lastArgument argument
  | arguments _ _ argument arguments => exact .arguments argument arguments

/-- What is spelled as a cast is an expression by itself. -/
theorem Spells.expression_of_cast {typeName : String}
    (spelled : Spells levels (.expression tree) input (.rightParen :: rest)) :
    Spells (levels + 1) (.expression (.cast typeName tree))
      (.outWord :: .less :: .name typeName :: .greater :: .leftParen :: input) rest :=
  .expression_of_primary (.cast spelled)

/-! ### The text of a cast -/

/-- The text of a cast around a text. -/
def castText (typeName source : String) : String :=
  "Out<" ++ typeName ++ ">(" ++ source ++ ")"

theorem toList_castText (typeName source : String) :
    (castText typeName source).toList =
      spelled ([.word "Out"] ++ [.word "<", .word typeName, .word ">", .word "("]) ++
        (source.toList ++ [')']) := by
  simp [castText, spelled, Piece.characters]

/-- A cast has no blank at either end. -/
theorem trimmed_castText (typeName source : String) :
    trimmed (castText typeName source) = castText typeName source := by
  have parts : (castText typeName source).toList =
      'O' :: ("ut<".toList ++ typeName.toList ++ ">(".toList ++ source.toList ++ [')']) := by
    simp [castText]
  exact trimmed_eq_self parts (by decide) (by decide)

/-- The tokens of a text stand between those of the cast around it. -/
theorem scans_castText {typeName source : String} (isName : IsName typeName)
    {kinds : List TokenKind} (scans : Scans source.toList kinds) :
    Scans (castText typeName source).toList
      ([.outWord, .less, .name typeName, .greater, .leftParen] ++ (kinds ++ [.rightParen])) := by
  have word : Prints [.word "Out"] [.outWord] := prints_reserved "Out" rfl rfl (by decide)
  have opened := word.before (printsApart_hint isName) fun tail => (rfl : endsWord '<' = true)
  have closing : Scans [')'] [.rightParen] := scans_nil.symbol (by decide) fun _ => rfl
  have apart : StandsApart [')'] := (rfl : endsToken ')' = true)
  have closed := scans.append apart closing
  rw [toList_castText]
  exact opened closed

/-- A text that is an expression is the inside of a cast just as it is read by itself: the text of
the cast is read as the cast of its tree, unless its parts are nested too deeply then. -/
theorem parse_castText {typeName source : String} (isName : IsName typeName)
    (parsed : Expression.parse (trimmed source) = .ok tree) :
    Expression.parse (castText typeName source) = .ok (.cast typeName tree) ∨
      ∃ position, Expression.parse (castText typeName source) =
        .error ⟨.nestedTooDeeply, position⟩ := by
  obtain ⟨kinds, scans, -, derived⟩ := exists_scans_of_parse parsed
  obtain ⟨body, stop, lexed, same, noEnd⟩ := (scans_castText isName scans.untrimmed).tokenize
  have spelled : Spells (nestingLimit + 1) (.expression (.cast typeName tree))
      (body.map Token.kind) [] := by
    rw [same]
    exact (Spells.followed derived []).expression_of_cast
  rw [Expression.parse_of_lexed lexed]
  exact spelled.ofTokens noEnd

end Grammar

end Reckon
