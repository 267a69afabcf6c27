/-
This file reads numbers from text: decimals, with or without a point and an
exponent, the names of the values that are not finite, and 64-bit integers. A
decimal denotes an exact quotient, which is rounded once.
-/

import Reckon.Binary64

namespace Reckon

/-- The number that a list of digits denotes. -/
def digitsValue (digits : List Char) : Nat :=
  digits.foldl (fun value digit => 10 * value + (digit.toNat - '0'.toNat)) 0

/-- A text split into its sign and the rest. -/
def splitSign : List Char → Bool × List Char
  | '-' :: rest => (true, rest)
  | '+' :: rest => (false, rest)
  | rest => (false, rest)

/-- A decimal text taken apart: the digits before and after the point and the exponent. -/
structure DecimalText where
  whole : List Char
  fraction : List Char
  exponent : Int

namespace DecimalText

/-- The exponent part of a decimal text: nothing, or an `e` and an integer. -/
def readExponent? : List Char → Option Int
  | [] => some 0
  | mark :: rest =>
    if mark = 'e' ∨ mark = 'E' then
      let (negative, digits) := splitSign rest
      if digits ≠ [] ∧ digits.all Char.isDigit then
        some (if negative then -(digitsValue digits : Int) else digitsValue digits)
      else none
    else none

/-- Reads a decimal text without a sign. The point may have digits on one side only. -/
def read? (text : List Char) : Option DecimalText :=
  let whole := text.takeWhile Char.isDigit
  let (fraction, rest) :=
    match text.dropWhile Char.isDigit with
    | '.' :: after => (after.takeWhile Char.isDigit, after.dropWhile Char.isDigit)
    | after => ([], after)
  if whole = [] ∧ fraction = [] then none
  else (readExponent? rest).map fun exponent => ⟨whole, fraction, exponent⟩

end DecimalText

namespace Binary64

/-- The number nearest `significand * 10 ^ exponent`, with a sign. Exponents that decide the
answer by their size alone are not written out as powers. -/
def ofDecimal (negative : Bool) (significand : Nat) (exponent : Int) : Binary64 :=
  if significand = 0 then ofRank negative 0
  else if 400 < exponent then .infinite negative
  else if exponent < -(400 + significand.log2 : Int) then ofRank negative 0
  else if exponent < 0 then ofRatio negative significand (Nat.pow 10 exponent.natAbs)
  else ofRatio negative (significand * Nat.pow 10 exponent.natAbs) 1

/-- The number that a decimal text denotes. -/
def ofDecimalText (negative : Bool) (text : DecimalText) : Binary64 :=
  ofDecimal negative (digitsValue (text.whole ++ text.fraction))
    (text.exponent - text.fraction.length)

/-- Reads a number: an optional sign, then a decimal or, in letters of any case, `inf`,
`infinity` or `nan`. -/
def ofText? (text : String) : Option Binary64 :=
  let (negative, rest) := splitSign text.toList
  let word := rest.map Char.toLower
  if word = ['n', 'a', 'n'] then some .notANumber
  else if word = ['i', 'n', 'f'] ∨ word = ['i', 'n', 'f', 'i', 'n', 'i', 't', 'y'] then
    some (.infinite negative)
  else (DecimalText.read? rest).map (ofDecimalText negative)

end Binary64

/-- Whether an integer fits into 64 bits. -/
def fitsInt64 (number : Int) : Bool :=
  decide (Int64.minValue.toInt ≤ number ∧ number ≤ Int64.maxValue.toInt)

/-- Reads a 64-bit integer: an optional sign and digits. -/
def readInt64? (text : String) : Option Int64 :=
  let (negative, digits) := splitSign text.toList
  if digits ≠ [] ∧ digits.all Char.isDigit then
    let number : Int := if negative then -(digitsValue digits : Int) else digitsValue digits
    if fitsInt64 number then some (Int64.ofInt number) else none
  else none

end Reckon
