/-
This file holds the arithmetic of binary64: each operation is the exact result
rounded once to the nearest number, a tie to the even rank. Only the power
function is taken from the machine, since no rule short of its algorithm says
how it rounds.
-/

import Reckon.Binary64

namespace Reckon.Binary64

/-- The number with its sign turned. -/
def negate : Binary64 → Binary64
  | .notANumber => .notANumber
  | .infinite negative => .infinite !negative
  | .finite negative rank => .finite (!negative) rank

/-- The number with its sign dropped. -/
def magnitude : Binary64 → Binary64
  | .notANumber => .notANumber
  | .infinite _ => .infinite false
  | .finite _ rank => .finite false rank

/-- The number, a zero of either sign as the positive zero. -/
def withoutZeroSign (number : Binary64) : Binary64 :=
  if number.isZero then zero else number

/-- The sum. Opposite infinities have none; an exact zero is negative only when both terms
are negative zeros. -/
def add : Binary64 → Binary64 → Binary64
  | .notANumber, _ => .notANumber
  | _, .notANumber => .notANumber
  | .infinite negative, .infinite negative' =>
    if negative = negative' then .infinite negative else .notANumber
  | .infinite negative, .finite _ _ => .infinite negative
  | .finite _ _, .infinite negative => .infinite negative
  | first@(.finite negative _), second@(.finite negative' _) =>
    let sum := first.signedUnits + second.signedUnits
    if sum = 0 then ofRank (negative && negative') 0
    else ofUnits (decide (sum < 0)) sum.natAbs 1

/-- The difference: the sum with the second number's sign turned. -/
def subtract (first second : Binary64) : Binary64 :=
  first.add second.negate

/-- The product. An infinity times a zero has none. -/
def multiply : Binary64 → Binary64 → Binary64
  | .notANumber, _ => .notANumber
  | _, .notANumber => .notANumber
  | .infinite negative, .infinite negative' => .infinite (negative != negative')
  | .infinite negative, second@(.finite negative' _) =>
    if second.isZero then .notANumber else .infinite (negative != negative')
  | first@(.finite negative _), .infinite negative' =>
    if first.isZero then .notANumber else .infinite (negative != negative')
  | first@(.finite negative _), second@(.finite negative' _) =>
    ofUnits (negative != negative') (first.units * second.units) one

/-- The quotient. Zero by zero and infinity by infinity have none. -/
def divide : Binary64 → Binary64 → Binary64
  | .notANumber, _ => .notANumber
  | _, .notANumber => .notANumber
  | .infinite _, .infinite _ => .notANumber
  | .infinite negative, .finite negative' _ => .infinite (negative != negative')
  | .finite negative _, .infinite negative' => ofRank (negative != negative') 0
  | first@(.finite negative _), second@(.finite negative' _) =>
    if second.isZero then
      if first.isZero then .notANumber else .infinite (negative != negative')
    else ofRatio (negative != negative') first.units second.units

/-- The remainder of the division rounded toward zero, with the sign of the first number. It
is a whole number of units below both magnitudes, hence exact. -/
def remainder : Binary64 → Binary64 → Binary64
  | .notANumber, _ => .notANumber
  | _, .notANumber => .notANumber
  | .infinite _, _ => .notANumber
  | first@(.finite _ _), .infinite _ => first
  | first@(.finite negative _), second@(.finite _ _) =>
    if second.isZero then .notANumber
    else ofUnits negative (first.units % second.units) 1

/-- The nearest whole number to a number that is not negative, a half going up. -/
def roundHalfUp : Binary64 → Binary64
  | number@(.finite negative _) => ofRatio negative (halfUp number.units one) 1
  | number => number

/-- The first number to the power of the second. -/
def power (base exponent : Binary64) : Binary64 :=
  ofBits (Float.pow (Float.ofBits base.toBits) (Float.ofBits exponent.toBits)).toBits

end Reckon.Binary64
