/-
This file holds the numbers of the format binary64: the finite ones, two
infinities, and one value that is not a number.

A finite number is a sign and a rank. The rank numbers the magnitudes of the
format in increasing order from zero, so order and equality are read off the
ranks, and the bit pattern of a magnitude is its rank. A magnitude is a whole
number of units of `2 ^ -1074`, the least positive magnitude; an operation is
carried out exactly on whole units, or on a quotient of whole units, and
rounded once.
-/

import Reckon.Rounding

namespace Reckon

/-- The number of ranks that one doubling of the magnitude takes. -/
def octave : Nat := Nat.pow 2 52

/-- The number of finite magnitudes; as a rank it stands for infinity. -/
def rankLimit : Nat := 2047 * octave

/-- A number of the format binary64. -/
inductive Binary64 where
  | notANumber
  | infinite (negative : Bool)
  | finite (negative : Bool) (rank : Fin rankLimit)
  deriving DecidableEq

namespace Binary64

/-! ### Ranks and units -/

/-- The magnitude of a rank, in units. In the first two octaves ranks count units; in each
octave after them the ranks lie twice as far apart as in the one before. -/
def unitsOfRank (rank : Nat) : Nat :=
  if rank < octave then rank else (octave + rank % octave) <<< (rank / octave - 1)

/-- The rank nearest a quotient of units, a tie going to the even rank. It may be
`rankLimit` or more, when the quotient is too large for a finite number. -/
def nearestRank (numerator denominator : Nat) : Nat :=
  let shift := (numerator / denominator).log2 - 52
  shift * octave + halfEven numerator (denominator <<< shift)

/-- The number of a sign and a rank; from `rankLimit` on it is infinite. -/
def ofRank (negative : Bool) (rank : Nat) : Binary64 :=
  if small : rank < rankLimit then .finite negative ⟨rank, small⟩ else .infinite negative

/-- The number nearest a quotient of units, with a sign. -/
def ofUnits (negative : Bool) (numerator denominator : Nat) : Binary64 :=
  ofRank negative (nearestRank numerator denominator)

/-- One, in units. -/
def one : Nat := Nat.pow 2 1074

/-- The number nearest a quotient of natural numbers, with a sign. -/
def ofRatio (negative : Bool) (numerator denominator : Nat) : Binary64 :=
  ofUnits negative (numerator * one) denominator

/-- The number nearest a natural number. -/
def ofNat (number : Nat) : Binary64 :=
  ofRatio false number 1

/-- The number nearest an integer. -/
def ofInt (number : Int) : Binary64 :=
  ofRatio (number < 0) number.natAbs 1

/-- The positive zero. -/
def zero : Binary64 := .finite false ⟨0, by decide⟩

instance : Inhabited Binary64 := ⟨zero⟩

/-! ### Bit patterns -/

/-- The top bit of a pattern. -/
def signBit : Nat := Nat.pow 2 63

/-- The bit pattern: the sign in the top bit, below it the rank. -/
def toBits : Binary64 → UInt64
  | .notANumber => 0x7ff8000000000000
  | .infinite negative => UInt64.ofNat (negative.toNat * signBit + rankLimit)
  | .finite negative rank => UInt64.ofNat (negative.toNat * signBit + rank)

/-- The number of a bit pattern. -/
def ofBits (bits : UInt64) : Binary64 :=
  let negative := decide (signBit ≤ bits.toNat)
  let rank := bits.toNat % signBit
  if rank ≤ rankLimit then ofRank negative rank else .notANumber

/-! ### Questions about a number -/

/-- The place of a number in the order of numbers; the two zeros share one. What is not a
number has none. -/
def place? : Binary64 → Option Int
  | .notANumber => none
  | .infinite negative => some (if negative then -rankLimit else rankLimit)
  | .finite negative rank => some (if negative then -(rank.val : Int) else rank.val)

/-- Whether two numbers are equal. The zeros are; what is not a number equals nothing. -/
def equals (first second : Binary64) : Bool :=
  match first.place?, second.place? with
  | some place, some place' => place == place'
  | _, _ => false

/-- Whether a number is less than another. -/
def less (first second : Binary64) : Bool :=
  match first.place?, second.place? with
  | some place, some place' => decide (place < place')
  | _, _ => false

/-- Whether a number is less than another or equal to it. -/
def atMost (first second : Binary64) : Bool :=
  match first.place?, second.place? with
  | some place, some place' => decide (place ≤ place')
  | _, _ => false

/-- Whether a number is neither infinite nor without a value. -/
def isFinite : Binary64 → Bool
  | .finite _ _ => true
  | _ => false

/-- Whether a number is a zero of either sign. -/
def isZero : Binary64 → Bool
  | .finite _ rank => rank.val == 0
  | _ => false

/-- Whether a number has its sign bit set. -/
def isNegative : Binary64 → Bool
  | .notANumber => false
  | .infinite negative => negative
  | .finite negative _ => negative

/-- The magnitude of a finite number in units, zero for the others. -/
def units : Binary64 → Nat
  | .finite _ rank => unitsOfRank rank
  | _ => 0

/-- A finite number in units, with its sign. -/
def signedUnits (number : Binary64) : Int :=
  if number.isNegative then -(number.units : Int) else number.units

/-- Whether a number is finite and has no fractional part. -/
def isWhole (number : Binary64) : Bool :=
  number.isFinite && number.units % one == 0

/-- Whether a number is whole and of a magnitude below `10 ^ 15`. Such numbers are written
without an exponent or fraction digits in every place where numbers are written. -/
def isShortWhole (number : Binary64) : Bool :=
  number.isWhole && decide (number.units < Nat.pow 10 15 * one)

/-- The 64-bit integer nearest an integer. -/
def nearestInt64 (number : Int) : Int64 :=
  if number < Int64.minValue.toInt then Int64.minValue
  else if Int64.maxValue.toInt < number then Int64.maxValue
  else Int64.ofInt number

/-- The integer part of a number, toward zero, held within the 64-bit integers; zero for what
is not a number. -/
def truncate : Binary64 → Int64
  | .notANumber => 0
  | .infinite negative => if negative then Int64.minValue else Int64.maxValue
  | .finite negative rank =>
    let magnitude := unitsOfRank rank / one
    nearestInt64 (if negative then -(magnitude : Int) else magnitude)

/-- The number nearest a 64-bit integer. -/
def ofInt64 (number : Int64) : Binary64 :=
  ofInt number.toInt

end Binary64

end Reckon
