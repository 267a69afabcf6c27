/-
This file says which characters are blank: the ones Unicode gives the property
White_Space. Blanks separate tokens, and texts are stripped of them at both
ends before they are read as numbers, truth values or expressions.
-/

import Reckon.Text.CodePoints

namespace Reckon

/-- The characters with the Unicode property White_Space. -/
def blankPoints : CodePoints :=
  ⟨[(9, 13), (32, 32), (133, 133), (160, 160), (5760, 5760), (8192, 8202), (8232, 8233),
    (8239, 8239), (8287, 8287), (12288, 12288)]⟩

/-- Whether a character is blank. -/
def isBlank (character : Char) : Bool :=
  blankPoints.has character

/-- The white space of ASCII is blank. -/
theorem isBlank_of_isWhitespace {character : Char} (white : character.isWhitespace = true) :
    isBlank character = true := by
  simp only [Char.isWhitespace, Bool.or_eq_true, decide_eq_true_eq] at white
  rcases white with ((rfl | rfl) | rfl) | rfl <;> decide

/-- A list of characters without the blanks at its two ends. -/
def trimBlanks (characters : List Char) : List Char :=
  ((characters.dropWhile isBlank).reverse.dropWhile isBlank).reverse

/-- A text without the blanks at its two ends. -/
def trimmed (text : String) : String :=
  String.ofList (trimBlanks text.toList)

end Reckon
