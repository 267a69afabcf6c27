/-
This file finds the shortest decimal that reads back as a given number: of the
decimals with the fewest digits inside the interval that rounds to the number,
the nearest one. The interval ends midway to the two neighbours of the number,
and its ends belong to it when the rank is even, since a tie goes to the even
rank. Fewest digits means coarsest grid: the search goes down the powers of ten
until a multiple of one lies in the interval.
-/

import Reckon.Binary64

namespace Reckon

/-- Digits and the power of ten that the last of them counts. -/
structure DecimalDigits where
  digits : Nat
  exponent : Int
  deriving DecidableEq

/-- Which of two decimals equally near to a number is taken. -/
inductive TieRule where
  | up
  | even
  deriving DecidableEq

namespace Binary64

/-- What a multiple of `10 ^ exponent` counts in half units, as a quotient. -/
def gridStep (exponent : Int) : Nat × Nat :=
  let power := Nat.pow 10 exponent.natAbs
  if exponent < 0 then (2 * one, power) else (2 * one * power, 1)

/-- Whether the decimal `digits * 10 ^ exponent` rounds to the magnitude of a positive rank. -/
def readsBack (rank : Nat) (digits : Nat) (exponent : Int) : Bool :=
  let (step, divisor) := gridStep exponent
  let lower := (unitsOfRank (rank - 1) + unitsOfRank rank) * divisor
  let upper := (unitsOfRank rank + unitsOfRank (rank + 1)) * divisor
  if rank % 2 = 0 then decide (lower ≤ digits * step ∧ digits * step ≤ upper)
  else decide (lower < digits * step ∧ digits * step < upper)

/-- The multiple of `10 ^ exponent` nearest to the magnitude of a rank among those that read
back as it. One of the two neighbours of the magnitude on the grid does, if any multiple
does. -/
def onGrid (tie : TieRule) (rank : Nat) (exponent : Int) : Option Nat :=
  let (step, divisor) := gridStep exponent
  let place := 2 * unitsOfRank rank * divisor
  let below := place / step
  match readsBack rank below exponent, readsBack rank (below + 1) exponent with
  | false, false => none
  | true, false => some below
  | false, true => some (below + 1)
  | true, true =>
    let middle := (2 * below + 1) * step
    if 2 * place < middle then some below
    else if middle < 2 * place then some (below + 1)
    else match tie with
      | .up => some (below + 1)
      | .even => some (below + below % 2)

/-- The first grid, going down from an exponent, that holds a decimal reading back. -/
def coarsestGrid (tie : TieRule) (rank : Nat) : Nat → Int → DecimalDigits
  | 0, exponent => ⟨unitsOfRank rank, exponent⟩
  | steps + 1, exponent =>
    match onGrid tie rank exponent with
    | some digits => ⟨digits, exponent⟩
    | none => coarsestGrid tie rank steps (exponent - 1)

/-- An exponent above every grid that can hold a decimal reading back. The upper end of the
interval is below `2 ^ bound`, and `8 ≤ 10 ≤ 16`. -/
def firstGrid (rank : Nat) : Int :=
  let bound : Int := (unitsOfRank rank).log2 - 1072
  if bound < 0 then bound / 4 else bound / 3

/-- The shortest decimal that reads back as the magnitude of a positive rank. The exact
magnitude is a multiple of `10 ^ -1074`, so the search need not go further down. -/
def shortest (tie : TieRule) (rank : Nat) : DecimalDigits :=
  coarsestGrid tie rank ((firstGrid rank + 1075).toNat) (firstGrid rank)

end Binary64

end Reckon
