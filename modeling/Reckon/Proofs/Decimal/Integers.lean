/-
This file shows that integers pass through decimals unharmed. A binary number
that denotes an integer of a magnitude up to two to the power of 53 becomes a
decimal without places after its point. Sums, differences and products of such
decimals, their remainders, and their quotients where nothing remains, are
found without rounding, and become binary numbers again without rounding.

On the way from base two to base ten, such an integer has only powers of two
taken from it and put to it. It is far from having no room: a mantissa is
doubled up to two to the power of 95.
-/

import Reckon.Decimal
import Reckon.Operation
import Reckon.Proofs.Binary64.Integers

namespace Reckon

open Binary64 (exactLimit one exists_one_eq unitsOfRank octave_pos)

namespace Decimal

/-! ### Decimals that denote integers -/

/-- Whether a decimal has no places after its point and denotes an integer. -/
structure IsExactly (decimal : Decimal) (integer : Int) : Prop where
  places : decimal.scale = 0
  signed : signedNat decimal.negative decimal.coefficient = integer

theorem signedNat_zero (negative : Bool) : signedNat negative 0 = 0 := by
  cases negative <;> rfl

theorem natAbs_signedNat (negative : Bool) (number : Nat) :
    (signedNat negative number).natAbs = number := by
  cases negative
  · exact Int.natAbs_natCast number
  · exact (Int.natAbs_neg _).trans (Int.natAbs_natCast number)

/-- A zero may be written with either sign. -/
theorem signedNat_and_ne_zero (negative : Bool) (number : Nat) :
    signedNat (negative && number != 0) number = signedNat negative number := by
  cases number with
  | zero => rw [signedNat_zero, signedNat_zero]
  | succ => rw [bne_iff_ne.2 (Nat.succ_ne_zero _), Bool.and_true]

theorem signedNat_natAbs (integer : Int) :
    signedNat (decide (integer < 0)) integer.natAbs = integer := by
  unfold signedNat
  by_cases negative : integer < 0
  · rw [if_pos (decide_eq_true negative), Int.ofNat_natAbs_of_nonpos (Int.le_of_lt negative),
      Int.neg_neg]
  · rw [if_neg (by simpa using negative), Int.natAbs_of_nonneg (Int.not_lt.1 negative)]

theorem signedNat_not (negative : Bool) (number : Nat) :
    signedNat (!negative) number = -signedNat negative number := by
  cases negative
  · rfl
  · exact (Int.neg_neg _).symm

theorem signedNat_mul (negative negative' : Bool) (number number' : Nat) :
    signedNat (negative != negative') (number * number') =
      signedNat negative number * signedNat negative' number' := by
  unfold signedNat
  cases negative <;> cases negative' <;> simp only [bne_self_eq_false, Bool.false_bne,
    Bool.bne_false, Bool.false_eq_true, if_false, if_true, Int.natCast_mul, Int.neg_mul,
    Int.mul_neg, Int.neg_neg]

theorem signedNat_tmod (negative negative' : Bool) (number number' : Nat) :
    signedNat negative (number % number') =
      (signedNat negative number).tmod (signedNat negative' number') := by
  have magnitudes : ((number % number' : Nat) : Int) = (number : Int).tmod number' := rfl
  unfold signedNat
  rw [magnitudes]
  cases negative <;> cases negative' <;> simp only [Bool.false_eq_true, if_false, if_true,
    Int.neg_tmod, Int.tmod_neg]

namespace IsExactly

variable {decimal : Decimal} {integer : Int}

theorem coefficient_eq (exactly : decimal.IsExactly integer) :
    decimal.coefficient = integer.natAbs := by
  rw [← exactly.signed, natAbs_signedNat]

theorem coefficient_eq_zero (exactly : decimal.IsExactly integer) :
    decimal.coefficient = 0 ↔ integer = 0 := by
  rw [exactly.coefficient_eq, Int.natAbs_eq_zero]

end IsExactly

/-! ### From binary numbers -/

/-- Halvings that are all carried out. -/
theorem takeHalvings_mul_pow (halvings mantissa : Nat) (tens : Int) :
    takeHalvings halvings ⟨mantissa * 2 ^ halvings, tens⟩ = ⟨mantissa, tens + halvings⟩ := by
  induction halvings generalizing tens with
  | zero =>
    rw [Nat.pow_zero, Nat.mul_one]
    exact congrArg (Conversion.mk mantissa) (Int.add_zero tens).symm
  | succ halvings inductionHypothesis =>
    have twice : mantissa * 2 ^ (halvings + 1) = mantissa * 2 ^ halvings * 2 := by
      rw [Nat.pow_succ, Nat.mul_assoc]
    unfold takeHalvings
    rw [twice, if_pos (Nat.mul_mod_left _ 2), Nat.mul_div_cancel _ (by decide),
      inductionHypothesis, Int.natCast_succ, Int.add_assoc, Int.add_comm 1]

/-- Doublings that are all carried out. -/
theorem takeDoublings_of_lt (doublings : Nat) {mantissa : Nat} (tens : Int)
    (room : mantissa * 2 ^ doublings < Nat.pow 2 95) :
    takeDoublings doublings ⟨mantissa, tens⟩ =
      some ⟨mantissa * 2 ^ doublings, tens - doublings⟩ := by
  induction doublings generalizing mantissa tens with
  | zero =>
    rw [Nat.pow_zero, Nat.mul_one]
    exact congrArg (fun tens => some (Conversion.mk mantissa tens)) (Int.sub_zero tens).symm
  | succ doublings inductionHypothesis =>
    have twice : mantissa * 2 ^ (doublings + 1) = mantissa * 2 * 2 ^ doublings := by
      rw [Nat.pow_succ', Nat.mul_assoc]
    have less : mantissa < Nat.pow 2 95 :=
      Nat.lt_of_le_of_lt (Nat.le_mul_of_pos_right _ (Nat.two_pow_pos _)) room
    unfold takeDoublings
    rw [if_pos less, inductionHypothesis _ (twice ▸ room), twice, Int.natCast_succ,
      Int.sub_sub, Int.add_comm 1]

/-- A whole number is brought to base ten as it is. -/
theorem ofScaled_whole {mantissa magnitude : Nat} {twos : Int} (room : magnitude < Nat.pow 2 95)
    (value : mantissa * 2 ^ twos.toNat = magnitude * 2 ^ (-twos).toNat) :
    ofScaled mantissa twos = some (magnitude, 0) := by
  obtain ⟨halved, rfl, doubled⟩ : ∃ halved, mantissa = halved * 2 ^ (-twos).toNat ∧
      halved * 2 ^ twos.toNat = magnitude := by
    rcases Int.le_total 0 twos with whole | fraction
    · rw [Int.toNat_of_nonpos (Int.neg_nonpos_of_nonneg whole)] at value ⊢
      exact ⟨mantissa, by rw [Nat.pow_zero, Nat.mul_one],
        by rw [value, Nat.pow_zero, Nat.mul_one]⟩
    · rw [Int.toNat_of_nonpos fraction] at value ⊢
      exact ⟨magnitude, by rw [← value, Nat.pow_zero, Nat.mul_one],
        by rw [Nat.pow_zero, Nat.mul_one]⟩
  have noTens : twos + ((-twos).toNat : Int) - (twos.toNat : Int) = 0 := by omega
  unfold ofScaled
  dsimp only
  rw [takeHalvings_mul_pow, takeDoublings_of_lt _ _ (doubled.symm ▸ room), noTens, doubled]
  rfl

/-- A mantissa and a power of two that denote a whole number, with the power on either side. -/
theorem scaled_eq {mantissa magnitude shift power : Nat} {twos : Int}
    (exponent : twos = shift - power) (value : mantissa * 2 ^ shift = magnitude * 2 ^ power) :
    mantissa * 2 ^ twos.toNat = magnitude * 2 ^ (-twos).toNat := by
  have shared : 0 < 2 ^ min shift power := Nat.two_pow_pos _
  have first : shift = twos.toNat + min shift power := by omega
  have second : power = (-twos).toNat + min shift power := by omega
  refine Nat.eq_of_mul_eq_mul_right shared ?_
  rw [Nat.mul_assoc, ← Nat.pow_add, ← first, Nat.mul_assoc, ← Nat.pow_add, ← second]
  exact value

section

variable {rank magnitude : Nat}

/-- In the first octave the rank is the mantissa. -/
theorem ofScaled_low (room : magnitude < Nat.pow 2 95)
    (units : magnitude * one = unitsOfRank rank) (low : rank < octave) :
    ofScaled (rank % octave) (-1074) = some (magnitude, 0) := by
  obtain ⟨power, value, one_eq⟩ := exists_one_eq
  unfold unitsOfRank at units
  rw [if_pos low, one_eq] at units
  have unscaled : rank % octave * 2 ^ 0 = magnitude * 2 ^ power := by
    rw [Nat.mod_eq_of_lt low, Nat.pow_zero, Nat.mul_one, units]
  exact ofScaled_whole room (scaled_eq (by omega) unscaled)

/-- In the other octaves the mantissa has a leading digit that the rank has not. -/
theorem ofScaled_high (room : magnitude < Nat.pow 2 95)
    (units : magnitude * one = unitsOfRank rank) (high : ¬rank < octave) :
    ofScaled (octave + rank % octave) ((rank / octave : Nat) - 1075 : Int) =
      some (magnitude, 0) := by
  obtain ⟨power, value, one_eq⟩ := exists_one_eq
  have beyondFirst : 0 < rank / octave := Nat.div_pos (Nat.not_lt.1 high) octave_pos
  unfold unitsOfRank at units
  rw [if_neg high, one_eq, Nat.shiftLeft_eq] at units
  generalize rank / octave = field at beyondFirst units ⊢
  exact ofScaled_whole room (scaled_eq (by omega) units.symm)

end

/-- The sign of a binary number is that of the integer it denotes, which may also be zero. -/
theorem signedNat_of_isExactly {negative : Bool} {rank : Fin rankLimit} {integer : Int}
    (exactly : (Binary64.finite negative rank).IsExactly integer) :
    signedNat negative integer.natAbs = integer := by
  have units : signedNat negative (unitsOfRank rank) = integer * one := exactly.units
  have magnitude : integer.natAbs * one = unitsOfRank rank := exactly.natAbs_mul_one
  have product := signedNat_mul negative false integer.natAbs one
  rw [Bool.bne_false, magnitude, units] at product
  have positive : (one : Int) ≠ 0 := Int.natCast_ne_zero.2 (Nat.ne_of_gt Binary64.one_pos)
  exact (Int.eq_of_mul_eq_mul_right positive product).symm

/-- A binary number that denotes an integer becomes the decimal that denotes it. -/
theorem ofBinary64_of_isExactly {number : Binary64} {integer : Int}
    (exactly : number.IsExactly integer) (small : integer.natAbs ≤ exactLimit) :
    ∃ decimal, ofBinary64 number = some decimal ∧ decimal.IsExactly integer := by
  cases number with
  | finite negative rank =>
    have signed := signedNat_of_isExactly exactly
    have units : integer.natAbs * one = unitsOfRank rank := exactly.natAbs_mul_one
    have room : integer.natAbs < Nat.pow 2 95 := Nat.lt_of_le_of_lt small (by decide)
    unfold ofBinary64
    dsimp only
    by_cases zero : rank.val = 0
    · rw [if_pos zero]
      rw [zero] at units
      have none : integer.natAbs = 0 :=
        (Nat.mul_eq_zero.1 units).resolve_right (Nat.ne_of_gt Binary64.one_pos)
      rw [none] at signed
      exact ⟨_, rfl, rfl, signed⟩
    · rw [if_neg zero]
      refine ⟨⟨negative, integer.natAbs, 0⟩, ?_, rfl, signed⟩
      by_cases low : rank.val / octave = 0
      · rw [if_pos low]
        dsimp only
        rw [ofScaled_low room units ((Nat.div_eq_zero_iff_lt octave_pos).1 low)]
        rfl
      · rw [if_neg low]
        dsimp only
        rw [ofScaled_high room units fun less => low (Nat.div_eq_of_lt less)]
        rfl
  | _ => cases exactly.finite

/-! ### To binary numbers -/

/-- A decimal that denotes an integer becomes the binary number that denotes it. -/
theorem IsExactly.toBinary64 {decimal : Decimal} {integer : Int}
    (exactly : decimal.IsExactly integer) (small : integer.natAbs ≤ exactLimit) :
    decimal.toBinary64.IsExactly integer := by
  have whole := Binary64.isExactly_ofRatio (decimal.negative && decimal.coefficient != 0)
    (exactly.coefficient_eq.symm ▸ small)
  have signed : signedNat (decimal.negative && decimal.coefficient != 0) decimal.coefficient =
      integer := (signedNat_and_ne_zero _ _).trans exactly.signed
  unfold signedNat at signed
  rw [signed] at whole
  unfold Decimal.toBinary64
  dsimp only
  rwa [if_pos exactly.places]

/-! ### Arithmetic -/

/-- A coefficient with room for it needs no rounding. -/
theorem fit_zero {coefficient : Nat} (room : coefficient < coefficientLimit) :
    fit coefficient 0 = some (coefficient, 0) := by
  have none : 0 - scaleLimit = 0 := Nat.zero_sub _
  unfold fit fitFrom
  rw [none, if_pos rfl]
  dsimp only
  rw [if_neg (Nat.not_lt_zero 0), if_pos room]

/-- A quotient without a remainder is not developed further. -/
theorem develop_of_rest_zero {divisor steps : Nat} {quotient : Quotient}
    (done : quotient.rest = 0) (whole : 0 ≤ quotient.scale) :
    develop divisor (steps + 1) quotient = some quotient := by
  unfold develop
  dsimp only
  rw [if_pos done, if_pos whole]

namespace IsExactly

variable {first second : Decimal} {integer integer' : Int}

theorem coefficientAt_scale (exactly : first.IsExactly integer) :
    first.coefficientAt 0 = first.coefficient := by
  unfold coefficientAt
  rw [exactly.places]
  exact Nat.mul_one _

theorem add (exactly : first.IsExactly integer) (exactly' : second.IsExactly integer')
    (room : (integer + integer').natAbs < coefficientLimit) :
    ∃ sum, first.add second = some sum ∧ sum.IsExactly (integer + integer') := by
  unfold Decimal.add
  by_cases zero : first.coefficient = 0
  · rw [if_pos zero, exactly.coefficient_eq_zero.1 zero, Int.zero_add]
    exact ⟨second, rfl, exactly'⟩
  · by_cases zero' : second.coefficient = 0
    · rw [if_neg zero, if_pos zero', exactly'.coefficient_eq_zero.1 zero', Int.add_zero]
      exact ⟨first, rfl, exactly⟩
    · rw [if_neg zero, if_neg zero', exactly.places, exactly'.places, Nat.max_self]
      dsimp only
      rw [exactly.coefficientAt_scale, exactly'.coefficientAt_scale, exactly.signed,
        exactly'.signed, fit_zero room]
      exact ⟨_, rfl, rfl, (signedNat_and_ne_zero _ _).trans (signedNat_natAbs _)⟩

theorem opposite (exactly : first.IsExactly integer) :
    IsExactly { first with negative := !first.negative } (-integer) :=
  ⟨exactly.places, (signedNat_not _ _).trans (congrArg Neg.neg exactly.signed)⟩

theorem subtract (exactly : first.IsExactly integer) (exactly' : second.IsExactly integer')
    (room : (integer - integer').natAbs < coefficientLimit) :
    ∃ difference, first.subtract second = some difference ∧
      difference.IsExactly (integer - integer') := by
  unfold Decimal.subtract
  by_cases zero' : second.coefficient = 0
  · rw [if_pos zero']
    obtain rfl := exactly'.coefficient_eq_zero.1 zero'
    rw [Int.sub_zero]
    by_cases zero : first.coefficient = 0
    · obtain rfl := exactly.coefficient_eq_zero.1 zero
      rw [if_pos zero]
      exact ⟨second, rfl, exactly'⟩
    · rw [if_neg zero]
      exact ⟨first, rfl, exactly⟩
  · rw [if_neg zero']
    exact exactly.add exactly'.opposite room

theorem multiply (exactly : first.IsExactly integer) (exactly' : second.IsExactly integer')
    (room : (integer * integer').natAbs < coefficientLimit) :
    ∃ product, first.multiply second = some product ∧
      product.IsExactly (integer * integer') := by
  unfold Decimal.multiply
  by_cases zero : first.coefficient = 0 ∨ second.coefficient = 0
  · rw [if_pos zero]
    have none : integer * integer' = 0 := Int.mul_eq_zero.2
      (zero.imp exactly.coefficient_eq_zero.1 exactly'.coefficient_eq_zero.1)
    rw [none]
    exact ⟨_, rfl, rfl, rfl⟩
  · rw [Int.natAbs_mul, ← exactly.coefficient_eq, ← exactly'.coefficient_eq] at room
    have nonzero : first.coefficient * second.coefficient ≠ 0 :=
      Nat.mul_ne_zero (fun none => zero (.inl none)) fun none => zero (.inr none)
    rw [if_neg zero, exactly.places, exactly'.places]
    dsimp only
    rw [if_neg (fun far => absurd far.2 (by decide)), fit_zero room]
    refine ⟨_, rfl, rfl, ?_⟩
    dsimp only
    rw [beq_eq_false_iff_ne.2 nonzero, Bool.and_false, Bool.not_false, Bool.and_true,
      signedNat_mul, exactly.signed, exactly'.signed]

/-- The quotient, where nothing remains. -/
theorem divide (exactly : first.IsExactly (integer * integer'))
    (exactly' : second.IsExactly integer') (nonzero : integer' ≠ 0) :
    ∃ quotient, first.divide second = some quotient ∧ quotient.IsExactly integer := by
  have divisor : second.coefficient ≠ 0 := fun none => nonzero (exactly'.coefficient_eq_zero.1 none)
  have dividend : first.coefficient = integer.natAbs * second.coefficient := by
    rw [exactly.coefficient_eq, exactly'.coefficient_eq, Int.natAbs_mul]
  unfold Decimal.divide
  rw [if_neg divisor]
  by_cases zero : first.coefficient = 0
  · rw [if_pos zero]
    have none : integer = 0 :=
      (Int.mul_eq_zero.1 (exactly.coefficient_eq_zero.1 zero)).resolve_right nonzero
    rw [none]
    exact ⟨_, rfl, rfl, rfl⟩
  · have signed : signedNat (first.negative != second.negative) integer.natAbs = integer := by
      have product := signedNat_mul (first.negative != second.negative) second.negative
        integer.natAbs second.coefficient
      rw [Bool.bne_assoc, bne_self_eq_false, Bool.bne_false, ← dividend, exactly.signed,
        exactly'.signed] at product
      exact (Int.eq_of_mul_eq_mul_right nonzero product).symm
    rw [if_neg zero, exactly.places, exactly'.places, dividend,
      Nat.mul_div_cancel _ (Nat.pos_of_ne_zero divisor), Nat.mul_mod_left]
    dsimp only
    rw [develop_of_rest_zero rfl (Int.le_refl 0)]
    exact ⟨_, rfl, rfl, (signedNat_and_ne_zero _ _).trans signed⟩

/-- The remainder of the division rounded toward zero. -/
theorem remainder (exactly : first.IsExactly integer)
    (exactly' : second.IsExactly integer') (nonzero : integer' ≠ 0) :
    ∃ rest, first.remainder second = some rest ∧ rest.IsExactly (integer.tmod integer') := by
  have divisor : second.coefficient ≠ 0 := fun none => nonzero (exactly'.coefficient_eq_zero.1 none)
  have signed := signedNat_tmod first.negative second.negative first.coefficient second.coefficient
  rw [exactly.signed, exactly'.signed] at signed
  rw [← signed]
  unfold Decimal.remainder
  rw [if_neg divisor, exactly.places, exactly'.places, Nat.max_self]
  dsimp only
  rw [exactly.coefficientAt_scale, exactly'.coefficientAt_scale]
  by_cases zero : first.coefficient = 0
  · rw [if_pos zero, zero, Nat.zero_mod, signedNat_zero]
    exact ⟨_, rfl, rfl, rfl⟩
  · rw [if_neg zero]
    by_cases same : first.coefficient = second.coefficient
    · rw [if_pos same, same, Nat.mod_self, signedNat_zero]
      exact ⟨_, rfl, rfl, rfl⟩
    · rw [if_neg same]
      by_cases less : first.coefficient < second.coefficient
      · rw [if_pos less, Nat.mod_eq_of_lt less]
        exact ⟨_, rfl, exactly.places, rfl⟩
      · rw [if_neg less]
        exact ⟨_, rfl, rfl, signedNat_and_ne_zero _ _⟩

end IsExactly

end Decimal

/-! ### The operations -/

namespace Operation

variable {first second : Binary64} {integer integer' result : Int}

/-- An operation that is exact on decimals is exact on binary numbers. -/
theorem isExactly_onDecimals {exact : Decimal → Decimal → Option Decimal}
    (fallback : Binary64 → Binary64 → Binary64)
    (exactly : first.IsExactly integer) (exactly' : second.IsExactly integer')
    (small : integer.natAbs ≤ exactLimit) (small' : integer'.natAbs ≤ exactLimit)
    (smallResult : result.natAbs ≤ exactLimit)
    (onDecimal : ∀ {decimal decimal' : Decimal}, decimal.IsExactly integer →
      decimal'.IsExactly integer' → ∃ found, exact decimal decimal' = some found ∧
        found.IsExactly result) :
    (onDecimals exact fallback first second).IsExactly result := by
  obtain ⟨decimal, same, decimalExactly⟩ := Decimal.ofBinary64_of_isExactly exactly small
  obtain ⟨decimal', same', decimalExactly'⟩ := Decimal.ofBinary64_of_isExactly exactly' small'
  obtain ⟨found, finds, foundExactly⟩ := onDecimal decimalExactly decimalExactly'
  unfold onDecimals
  rw [same, same']
  dsimp only
  rw [finds]
  exact foundExactly.toBinary64 smallResult

end Operation

end Reckon
