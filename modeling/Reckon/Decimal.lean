/-
This file holds decimals of 96 bits: a sign, a coefficient below `2 ^ 96` and a
scale of at most 28 places after the point. Sums, products, quotients and
remainders of binary numbers are taken on such decimals wherever both operands
and the result fit, so that `0.1 + 0.2` is `0.3`.

Each operation gives nothing when its result does not fit. The steps by which a
binary number becomes a decimal, and by which a quotient is developed, decide
the last digits; they are part of the format and written out here.
-/

import Reckon.Binary64.Arithmetic

namespace Reckon

/-- The coefficients of a decimal lie below this bound. -/
def coefficientLimit : Nat := Nat.pow 2 96

/-- The greatest number of places after the point. -/
def scaleLimit : Nat := 28

/-- The number `coefficient / 10 ^ scale`, with a sign. -/
structure Decimal where
  negative : Bool
  coefficient : Nat
  scale : Nat
  deriving DecidableEq

namespace Decimal

/-- The decimal zero. -/
def zero : Decimal := ⟨false, 0, 0⟩

/-! ### From binary numbers -/

/-- A magnitude on its way from base two to base ten: `mantissa * 10 ^ tens`, times a power of
two that is counted apart. -/
structure Conversion where
  mantissa : Nat
  tens : Int

/-- Takes away halvings. A halving of an even mantissa is carried out; another is written as
five tenths, unless the mantissa has no room for a factor of five. -/
def takeHalvings : Nat → Conversion → Conversion
  | 0, conversion => conversion
  | halvings + 1, ⟨mantissa, tens⟩ =>
    if mantissa % 2 = 0 then takeHalvings halvings ⟨mantissa / 2, tens + 1⟩
    else if mantissa * 5 < coefficientLimit then takeHalvings halvings ⟨mantissa * 5, tens⟩
    else takeHalvings halvings ⟨mantissa / 2, tens + 1⟩

/-- Takes away doublings. A doubling is carried out while the mantissa has room; then it is
written as ten fifths, which may drop digits. -/
def takeDoublings : Nat → Conversion → Option Conversion
  | 0, conversion => some conversion
  | doublings + 1, ⟨mantissa, tens⟩ =>
    if mantissa < Nat.pow 2 95 then takeDoublings doublings ⟨mantissa * 2, tens - 1⟩
    else if tens * 2 > doublings + 1 then none
    else takeDoublings doublings ⟨mantissa / 5, tens⟩

/-- Carries out a positive power of ten, if the mantissa has room for it. -/
def takeTens : Nat → Nat → Option Nat
  | 0, mantissa => some mantissa
  | tens + 1, mantissa =>
    if mantissa * 10 < coefficientLimit then takeTens tens (mantissa * 10) else none

/-- A number without its last digit, rounded by that digit. -/
def dropDigit (number : Nat) : Nat :=
  number / 10 + (if 5 ≤ number % 10 then 1 else 0)

/-- Drops digits beyond the greatest scale. A mantissa whose leading digit is dropped stays a
zero without places. -/
def dropPlaces : Nat → Nat → Nat → Nat × Nat
  | 0, mantissa, scale => (mantissa, scale)
  | excess + 1, mantissa, scale =>
    if mantissa / 10 = 0 then (0, 0) else dropPlaces excess (dropDigit mantissa) (scale - 1)

/-- Drops digits until the mantissa lies within the digits a binary number can hold. -/
def dropGuardDigits : Nat → Nat → Nat × Nat
  | mantissa, 0 => (mantissa, 0)
  | mantissa, scale + 1 =>
    if octave ≤ mantissa then dropGuardDigits (dropDigit mantissa) scale
    else (mantissa, scale + 1)

/-- Drops zeros at the end of the fraction. -/
def dropZeros : Nat → Nat → Nat × Nat
  | mantissa, 0 => (mantissa, 0)
  | mantissa, scale + 1 =>
    if mantissa % 10 = 0 then dropZeros (mantissa / 10) scale else (mantissa, scale + 1)

/-- The coefficient and scale of `mantissa * 2 ^ twos`, to about 16 digits. -/
def ofScaled (mantissa : Nat) (twos : Int) : Option (Nat × Nat) := do
  let halved := takeHalvings (-twos).toNat ⟨mantissa, twos⟩
  let ⟨mantissa, tens⟩ ← takeDoublings twos.toNat halved
  if 0 < tens then
    return (← takeTens tens.toNat mantissa, 0)
  let scale := tens.natAbs
  let (mantissa, scale) := dropPlaces (scale - scaleLimit) mantissa scale
  let (mantissa, scale) := dropGuardDigits mantissa scale
  return dropZeros mantissa scale

/-- The decimal of a binary number, if it is finite and within range. -/
def ofBinary64 : Binary64 → Option Decimal
  | .finite negative rank =>
    let field : Nat := rank.val / octave
    let fraction : Nat := rank.val % octave
    if rank.val = 0 then some ⟨negative, 0, 0⟩
    else
      let (mantissa, twos) : Nat × Int :=
        if field = 0 then (fraction, -1074) else (octave + fraction, (field : Int) - 1075)
      (ofScaled mantissa twos).map fun (coefficient, scale) => ⟨negative, coefficient, scale⟩
  | _ => none

/-! ### To binary numbers -/

/-- A power in binary numbers by repeated squaring, rounded at each step. The first argument
bounds the number of steps. -/
def powerBySquaring : Nat → Binary64 → Nat → Binary64 → Binary64
  | 0, _, _, result => result
  | steps + 1, base, exponent, result =>
    let result := if exponent % 2 = 1 then result.multiply base else result
    if exponent / 2 = 0 then result
    else powerBySquaring steps (base.multiply base) (exponent / 2) result

/-- The power of ten of a scale, as a binary number. -/
def tenPower (scale : Nat) : Binary64 :=
  powerBySquaring scale.log2.succ (.ofNat 10) scale (.ofNat 1)

/-- The binary number of a decimal: whole part and fraction are converted apart, added, and
the sum rounded at the last place of the decimal. -/
def toBinary64 (decimal : Decimal) : Binary64 :=
  let signed (magnitude : Binary64) := if decimal.negative then magnitude.negate else magnitude
  if decimal.scale = 0 then
    .ofRatio (decimal.negative && decimal.coefficient != 0) decimal.coefficient 1
  else
    let whole := Binary64.ofNat (decimal.coefficient / Nat.pow 10 decimal.scale)
    let fraction :=
      (Binary64.ofNat (decimal.coefficient % Nat.pow 10 decimal.scale)).divide
        (.ofNat (Nat.pow 10 decimal.scale))
    if fraction.isZero then signed whole
    else
      let unit := tenPower decimal.scale
      signed (((whole.add fraction).multiply unit).roundHalfUp.divide unit)

/-! ### Arithmetic -/

/-- Drops places until a coefficient fits, fewest first; gives nothing if even the last place
is not enough. The first argument counts the places that may still be tried. -/
def fitFrom : Nat → Nat → Nat → Nat → Option (Nat × Nat)
  | tries, dropped, coefficient, scale =>
    let rounded := if dropped = 0 then coefficient else halfEven coefficient (Nat.pow 10 dropped)
    if scale < dropped then none
    else if rounded < coefficientLimit then some (rounded, scale - dropped)
    else match tries with
      | 0 => none
      | tries + 1 => fitFrom tries (dropped + 1) coefficient scale

/-- A coefficient and a scale brought within the format by dropping as few places as needed. -/
def fit (coefficient scale : Nat) : Option (Nat × Nat) :=
  fitFrom scale (scale - scaleLimit) coefficient scale

/-- The coefficient of a decimal at a greater scale. -/
def coefficientAt (decimal : Decimal) (scale : Nat) : Nat :=
  decimal.coefficient * Nat.pow 10 (scale - decimal.scale)

/-- A natural number with a sign. -/
def signedNat (negative : Bool) (number : Nat) : Int :=
  if negative then -(number : Int) else number

/-- The sum. -/
def add (first second : Decimal) : Option Decimal :=
  if first.coefficient = 0 then some second
  else if second.coefficient = 0 then some first
  else
    let scale := max first.scale second.scale
    let sum := signedNat first.negative (first.coefficientAt scale) +
      signedNat second.negative (second.coefficientAt scale)
    (fit sum.natAbs scale).map fun (coefficient, scale) =>
      ⟨decide (sum < 0) && coefficient != 0, coefficient, scale⟩

/-- The difference. -/
def subtract (first second : Decimal) : Option Decimal :=
  if second.coefficient = 0 then
    some (if first.coefficient = 0 then second else first)
  else first.add { second with negative := !second.negative }

/-- The product. Two coefficients below `2 ^ 32` have their product rounded to zero when it
lies far beyond the greatest scale, and their zero has no sign. -/
def multiply (first second : Decimal) : Option Decimal :=
  if first.coefficient = 0 ∨ second.coefficient = 0 then some zero
  else
    let small := decide (first.coefficient < Nat.pow 2 32 ∧ second.coefficient < Nat.pow 2 32)
    if small ∧ 47 < first.scale + second.scale then some zero
    else
      (fit (first.coefficient * second.coefficient) (first.scale + second.scale)).map
        fun (coefficient, scale) =>
          ⟨(first.negative != second.negative) && !(small && coefficient == 0),
            coefficient, scale⟩

/-- A quotient in development: its digits so far, the remainder still to divide, the scale,
which is negative while whole digits are missing, and whether fraction digits were added. -/
structure Quotient where
  digits : Nat
  rest : Nat
  scale : Int
  extended : Bool

/-- The greatest number of places, at most the given one, that can be added to a quotient. -/
def roomFor (digits : Nat) (scale : Int) : Nat → Nat
  | 0 => 0
  | places + 1 =>
    if scale + (places + 1) ≤ scaleLimit ∧
        digits * Nat.pow 10 (places + 1) < coefficientLimit then
      places + 1
    else roomFor digits scale places

/-- Rounds a quotient that has no room for more places by its remainder. -/
def roundQuotient (divisor : Nat) (quotient : Quotient) : Option Quotient :=
  let up := divisor < 2 * quotient.rest ∨
    2 * quotient.rest = divisor ∧ quotient.digits % 2 = 1
  let digits := if up then quotient.digits + 1 else quotient.digits
  if digits = coefficientLimit then
    if quotient.scale = 0 then none
    else some { quotient with digits := halfEven digits 10, scale := quotient.scale - 1 }
  else some { quotient with digits }

/-- Drops the last digit of a quotient that has grown too large; a remainder breaks a tie
upward. -/
def shortenQuotient (quotient : Quotient) : Option Quotient :=
  let last := quotient.digits % 10
  let digits := quotient.digits / 10
  let up := 5 < last ∨ last = 5 ∧ (quotient.rest ≠ 0 ∨ digits % 2 = 1)
  if quotient.scale - 1 < 0 then none
  else some { quotient with
    digits := if up then digits + 1 else digits, scale := quotient.scale - 1 }

/-- Develops a quotient, up to nine places at a time, until nothing remains or no place is
left. Every step but the last raises the scale, so the first argument bounds their number. -/
def develop (divisor : Nat) : Nat → Quotient → Option Quotient
  | 0, _ => none
  | steps + 1, quotient =>
    let extend (places : Nat) (quotient : Quotient) : Option Quotient :=
      let scale := quotient.scale + places
      let digits := quotient.digits * Nat.pow 10 places
      if coefficientLimit ≤ digits then none
      else
        let rest := quotient.rest * Nat.pow 10 places
        let grown : Quotient :=
          { quotient with digits := digits + rest / divisor, rest := rest % divisor, scale }
        if coefficientLimit ≤ grown.digits then shortenQuotient grown
        else develop divisor steps grown
    if quotient.rest = 0 then
      if 0 ≤ quotient.scale then some quotient
      else extend (min 9 quotient.scale.natAbs) quotient
    else
      let quotient : Quotient := { quotient with extended := true }
      let places : Nat := if quotient.scale = scaleLimit then 0
        else roomFor quotient.digits quotient.scale 9
      if places < 9 ∧ quotient.scale + places < 0 then none
      else if places = 0 then roundQuotient divisor quotient
      else extend places quotient

/-- Takes zeros off the end of a quotient, eight at a time. -/
def dropEightZeros : Nat → Nat → Nat → Nat × Nat
  | 0, digits, scale => (digits, scale)
  | steps + 1, digits, scale =>
    if digits % Nat.pow 2 32 = 0 ∧ 8 ≤ scale ∧ digits % Nat.pow 10 8 = 0 then
      dropEightZeros steps (digits / Nat.pow 10 8) (scale - 8)
    else (digits, scale)

/-- Takes some zeros off the end of a quotient if it ends in them and in binary zeros. -/
def dropSomeZeros (zeros twos : Nat) : Nat × Nat → Nat × Nat
  | (digits, scale) =>
    if digits % Nat.pow 2 twos = 0 ∧ zeros ≤ scale ∧ digits % Nat.pow 10 zeros = 0 then
      (digits / Nat.pow 10 zeros, scale - zeros)
    else (digits, scale)

/-- Takes zeros off the end of an extended quotient: by eights, then four, two and one. -/
def dropQuotientZeros (digits scale : Nat) : Nat × Nat :=
  dropSomeZeros 1 1 (dropSomeZeros 2 2 (dropSomeZeros 4 4 (dropEightZeros scale digits scale)))

/-- The quotient. -/
def divide (first second : Decimal) : Option Decimal :=
  if second.coefficient = 0 then none
  else if first.coefficient = 0 then some zero
  else
    let scale := (first.scale : Int) - second.scale
    let start : Quotient :=
      ⟨first.coefficient / second.coefficient, first.coefficient % second.coefficient,
        scale, false⟩
    (develop second.coefficient ((scaleLimit - scale).toNat + 1) start).map fun quotient =>
      let (digits, scale) :=
        if quotient.extended then dropQuotientZeros quotient.digits quotient.scale.toNat
        else (quotient.digits, quotient.scale.toNat)
      ⟨(first.negative != second.negative) && digits != 0, digits, scale⟩

/-- The remainder of the division rounded toward zero, with the sign of the first decimal. -/
def remainder (first second : Decimal) : Option Decimal :=
  if second.coefficient = 0 then none
  else if first.coefficient = 0 then some zero
  else
    let scale := max first.scale second.scale
    let dividend := first.coefficientAt scale
    let divisor := second.coefficientAt scale
    if dividend = divisor then some zero
    else if dividend < divisor then some first
    else
      let rest := dividend % divisor
      some ⟨first.negative && rest != 0, rest, scale⟩

end Decimal

end Reckon
