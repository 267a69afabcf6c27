/-
This file holds sets of characters written as ranges of code points. The
classes the language needs (blanks, letters, numerals) are tables of this kind,
so one membership test serves them all.
-/

namespace Reckon

/-- A set of characters, given by inclusive ranges of code points in increasing order. -/
structure CodePoints where
  ranges : List (Nat × Nat)

namespace CodePoints

/-- Whether a character lies in one of the ranges. -/
def has (points : CodePoints) (character : Char) : Bool :=
  points.ranges.any fun range => range.1 ≤ character.toNat && character.toNat ≤ range.2

theorem has_iff {points : CodePoints} {character : Char} :
    points.has character = true ↔
      ∃ range ∈ points.ranges, range.1 ≤ character.toNat ∧ character.toNat ≤ range.2 := by
  simp [has]

end CodePoints

end Reckon
