/-
This file holds the rounding of a quotient of natural numbers to a natural
number. Both number formats of the library are exact up to one such rounding
at the end of an operation.
-/

namespace Reckon

/-- The natural number nearest a quotient; a quotient midway between two goes to the even one. -/
def halfEven (numerator denominator : Nat) : Nat :=
  let floor := numerator / denominator
  let twice := 2 * (numerator % denominator)
  if twice < denominator ∨ twice = denominator ∧ floor % 2 = 0 then floor else floor + 1

/-- The natural number nearest a quotient; a quotient midway between two goes up. -/
def halfUp (numerator denominator : Nat) : Nat :=
  (2 * numerator + denominator) / (2 * denominator)

end Reckon
