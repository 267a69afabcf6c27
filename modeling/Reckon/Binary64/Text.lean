/-
This file writes numbers as text: the digits of a number are the fewest that
read back as it, and they are placed around a decimal point, never with an
exponent.
-/

import Reckon.Binary64.Shortest

namespace Reckon

/-- The digits of a natural number. -/
def digitsOf (number : Nat) : List Char :=
  Nat.toDigits 10 number

theorem toList_toString (number : Nat) : (toString number).toList = digitsOf number := by
  rw [Nat.toString_eq_ofList_toDigits, String.toList_ofList]
  rfl

theorem isDigit_of_mem_digitsOf {number : Nat} {character : Char}
    (member : character ∈ digitsOf number) : character.isDigit = true :=
  Nat.isDigit_of_mem_toDigits (by decide) (by decide) member

theorem digitsOf_ne_nil (number : Nat) : digitsOf number ≠ [] :=
  Nat.toDigits_ne_nil

namespace DecimalDigits

/-- A decimal written out, with as many zeros before or after the digits as their place asks
for. -/
def positional (decimal : DecimalDigits) : List Char :=
  let digits := digitsOf decimal.digits
  if 0 ≤ decimal.exponent then digits ++ List.replicate decimal.exponent.toNat '0'
  else
    let places := decimal.exponent.natAbs
    if places < digits.length then
      digits.take (digits.length - places) ++ '.' :: digits.drop (digits.length - places)
    else '0' :: '.' :: (List.replicate (places - digits.length) '0' ++ digits)

end DecimalDigits

/-- A minus sign for negative numbers. -/
def signText (negative : Bool) : List Char :=
  if negative then ['-'] else []

namespace Binary64

/-- The digits of a magnitude written out; of two equally short and equally near decimals the
greater is taken. -/
def positionalText (rank : Nat) : List Char :=
  if rank = 0 then ['0'] else (shortest .up rank).positional

/-- A number written out with the fewest digits that read back as it. -/
def plainText : Binary64 → String
  | .notANumber => "NaN"
  | .infinite negative => if negative then "-inf" else "inf"
  | .finite negative rank => String.ofList (signText negative ++ positionalText rank)

/-- The integer part of a number, written with its sign. -/
def integerPartText (number : Binary64) : List Char :=
  signText number.isNegative ++ digitsOf (number.units / one)

/-- A number as a literal of the language: a whole number below `10 ^ 15` keeps one zero after
the point, so that it reads back as a number with a fraction part. -/
def literalText (number : Binary64) : String :=
  if number.isShortWhole then String.ofList (number.integerPartText ++ ['.', '0'])
  else number.plainText

/-- A number as it is shown to a reader: a whole number below `10 ^ 15` is shown as an
integer, so the zeros are both `0`. -/
def shownText (number : Binary64) : String :=
  if number.isShortWhole then toString number.truncate.toInt else number.plainText

end Binary64

end Reckon
