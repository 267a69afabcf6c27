/-
This file says when the sum, the product or the quotient of two numbers above
zero comes out as zero, although it is a normal number or greater. Both numbers
are taken as decimals if they can be, and a result of at most half of the last
decimal place is then the decimal zero; it does not count as one that has no
decimal. Results that have none are found on binary numbers, where no normal
number is rounded to zero.

A number may itself become a decimal of zero. So a sum is zero if both terms do,
and a product or a quotient may be zero that is far above the last place.
-/

import Reckon.Operation
import Reckon.Proofs.Decimal.Conversion
import Reckon.Proofs.Decimal.Quotients

namespace Reckon

open Binary64 (one unitsOfRank)

namespace Binary64

/-- The least normal number. -/
def leastNormal : ℚ := 2 ^ (-1022 : Int)

/-- The greatest finite number. -/
def greatestFinite : ℚ := (2 ^ 53 - 1) * 2 ^ (971 : Int)

/-- A normal number is one unit or more. -/
theorem le_of_leastNormal_le {numerator denominator : Nat} (positive : 0 < denominator)
    (normal : leastNormal ≤ (numerator : ℚ) / denominator / one) : denominator ≤ numerator := by
  obtain ⟨power, is, one_eq⟩ := exists_one_eq
  have unit : (1 : ℚ) / one ≤ leastNormal := by
    rw [leastNormal, one_eq, Nat.cast_pow, Nat.cast_two, ← zpow_natCast, one_div, ← zpow_neg]
    exact zpow_le_zpow_right₀ one_le_two (by omega)
  have units := (div_le_div_iff_of_pos_right (Nat.cast_pos.mpr one_pos)).mp (unit.trans normal)
  rw [one_le_div (Nat.cast_pos.mpr positive)] at units
  exact_mod_cast units

theorem value_eq_div {number : Binary64} {rank : Fin rankLimit} {numerator denominator : Nat}
    (same : number = .finite false rank) (positive : 0 < denominator)
    (units : unitsOfRank rank * denominator = numerator * one) :
    number.value = numerator / denominator := by
  have unit : (one : ℚ) ≠ 0 := by exact_mod_cast one_pos.ne'
  have divisor : (denominator : ℚ) ≠ 0 := by exact_mod_cast positive.ne'
  rw [same, value_finite]
  show (unitsOfRank rank : ℚ) / one = _
  rw [div_eq_div_iff unit divisor]
  exact_mod_cast units

end Binary64

/-! ### The three operations -/

/-- The operations that give a positive result on positive numbers. -/
inductive PositiveOperation where
  | addition
  | multiplication
  | division
  deriving DecidableEq

namespace PositiveOperation

/-- The name by which an engine knows the operation. -/
def name : PositiveOperation → String
  | addition => "addition"
  | multiplication => "multiplication"
  | division => "division"

/-- The operation on rational numbers. -/
def exact : PositiveOperation → ℚ → ℚ → ℚ
  | addition => (· + ·)
  | multiplication => (· * ·)
  | division => (· / ·)

/-- The operation on decimals. -/
def ofDecimals : PositiveOperation → Decimal → Decimal → Option Decimal
  | addition => Decimal.add
  | multiplication => Decimal.multiply
  | division => Decimal.divide

/-- The operation on binary numbers. -/
def ofBinary : PositiveOperation → Binary64 → Binary64 → Binary64
  | addition => .add
  | multiplication => .multiply
  | division => .divide

variable {operation : PositiveOperation} {first second : Binary64}

/-- The operation of an engine that has only the built-in ones. -/
theorem perform_eq (operation : PositiveOperation) (first : Binary64)
    (positive : second.IsPositive) :
    OperationRegistry.builtIn.perform operation.name first second =
      .ok (Operation.onDecimals operation.ofDecimals operation.ofBinary first second) := by
  cases operation with
  | addition | multiplication => rfl
  | division => exact if_neg (Bool.eq_false_iff.mp positive.isZero)

/-! ### Results of zero -/

/-- An operation vanishes on two decimals if its result is at most half of the last place. -/
def VanishesOn (operation : PositiveOperation) (first second : Decimal) : Prop :=
  (operation = division → second.value ≠ 0) ∧
    operation.exact first.value second.value ≤ Decimal.halfPlace

/-- An operation vanishes on two numbers if both become decimals that it vanishes on. -/
def Vanishes (operation : PositiveOperation) (first second : Binary64) : Prop :=
  ∃ decimal decimal', Decimal.ofBinary64 first = some decimal ∧
    Decimal.ofBinary64 second = some decimal' ∧ operation.VanishesOn decimal decimal'

section

variable {decimal decimal' result : Decimal}

theorem isPlain_ofDecimals (plain : decimal.IsPlain) (plain' : decimal'.IsPlain)
    (found : operation.ofDecimals decimal decimal' = some result) : result.IsPlain := by
  cases operation with
  | addition => exact plain.add plain' found
  | multiplication => exact plain.multiply plain' found
  | division => exact plain.divide plain' found

theorem vanishes_ofDecimals_iff (plain : decimal.IsPlain) (plain' : decimal'.IsPlain) :
    Decimal.Vanishes (operation.ofDecimals decimal decimal') ↔
      operation.VanishesOn decimal decimal' := by
  cases operation with
  | addition =>
    have applies : addition = division → decimal'.value ≠ 0 := fun same => absurd same (by decide)
    exact (plain.vanishes_add_iff plain').trans (and_iff_right applies).symm
  | multiplication =>
    have applies : multiplication = division → decimal'.value ≠ 0 := fun same =>
      absurd same (by decide)
    exact (plain.vanishes_multiply_iff plain').trans (and_iff_right applies).symm
  | division =>
    by_cases zero : decimal'.coefficient = 0
    · have none : ¬ Decimal.Vanishes (decimal.divide decimal') := by
        rw [Decimal.divide, if_pos zero]
        exact Decimal.not_vanishes_none
      exact iff_of_false none fun both => both.1 rfl (plain'.value_eq_zero_iff.mpr zero)
    · have divides : decimal'.value ≠ 0 := fun none => zero (plain'.value_eq_zero_iff.mp none)
      exact (plain.vanishes_divide_iff plain' zero).trans (and_iff_right fun _ => divides).symm

end

/-! ### Numbers above zero -/

section

variable (positive : first.IsPositive) (finite : first.isFinite = true)
  (positive' : second.IsPositive) (finite' : second.isFinite = true)

include positive finite positive' finite'

/-- On binary numbers an exact result is rounded once. -/
theorem exists_ofBinary_eq (operation : PositiveOperation) :
    ∃ numerator denominator, 0 < denominator ∧
      operation.ofBinary first second = .ofUnits false numerator denominator ∧
      operation.exact first.value second.value = (numerator : ℚ) / denominator / one := by
  obtain ⟨rank, rfl, nonzero⟩ := positive.exists_rank finite
  obtain ⟨rank', rfl, nonzero'⟩ := positive'.exists_rank finite'
  have value : ∀ rank, Binary64.value (.finite false rank) = unitsOfRank rank / one :=
    Binary64.value_finite false
  rw [value, value]
  have unit : (0 : ℚ) < one := by exact_mod_cast Binary64.one_pos
  cases operation with
  | addition =>
    refine ⟨_, _, Nat.one_pos, Binary64.add_finite rank rank', ?_⟩
    rw [Nat.cast_add, Nat.cast_one, div_one, add_div]
    rfl
  | multiplication =>
    refine ⟨_, _, Binary64.one_pos, Binary64.multiply_finite rank rank', ?_⟩
    rw [Nat.cast_mul, div_div, ← div_mul_div_comm]
    rfl
  | division =>
    have divisor := Binary64.unitsOfRank_pos (Nat.pos_of_ne_zero nonzero')
    refine ⟨_, _, divisor, Binary64.divide_finite rank nonzero', ?_⟩
    rw [Nat.cast_mul, div_right_comm, mul_div_cancel_right₀ _ unit.ne']
    exact div_div_div_cancel_right₀ unit.ne' _ _

/-- Where no decimal is found the result is above zero. -/
theorem isPositive_ofBinary
    (normal : Binary64.leastNormal ≤ operation.exact first.value second.value) :
    (operation.ofBinary first second).IsPositive := by
  obtain ⟨numerator, denominator, nonzero, same, value⟩ :=
    exists_ofBinary_eq positive finite positive' finite' operation
  rw [value] at normal
  rw [same]
  exact Binary64.less_ofUnits nonzero (Binary64.le_of_leastNormal_le nonzero normal)

/-- A sum is zero if both terms become decimals of zero. -/
theorem vanishes_addition_iff :
    addition.Vanishes first second ↔
      first.value < Decimal.keptBound ∧ second.value < Decimal.keptBound := by
  rw [← Decimal.vanishes_ofBinary64_iff positive finite,
    ← Decimal.vanishes_ofBinary64_iff positive' finite']
  constructor
  · rintro ⟨decimal, decimal', converts, converts', -, small⟩
    have plain := Decimal.isPlain_ofBinary64 positive finite converts
    have plain' := Decimal.isPlain_ofBinary64 positive' finite' converts'
    have small : decimal.value + decimal'.value ≤ Decimal.halfPlace := small
    have nonneg := plain.value_nonneg
    have nonneg' := plain'.value_nonneg
    exact ⟨⟨decimal, converts, plain.value_le_halfPlace_iff.mp (by linarith)⟩,
      ⟨decimal', converts', plain'.value_le_halfPlace_iff.mp (by linarith)⟩⟩
  · rintro ⟨⟨decimal, converts, zero⟩, ⟨decimal', converts', zero'⟩⟩
    have plain := Decimal.isPlain_ofBinary64 positive finite converts
    have plain' := Decimal.isPlain_ofBinary64 positive' finite' converts'
    refine ⟨decimal, decimal', converts, converts', fun same => absurd same (by decide), ?_⟩
    show decimal.value + decimal'.value ≤ Decimal.halfPlace
    rw [plain.value_eq_zero_iff.mpr zero, plain'.value_eq_zero_iff.mpr zero', add_zero]
    exact Decimal.halfPlace_pos.le

theorem vanishes_iff_of_converts {decimal decimal' : Decimal}
    (converts : Decimal.ofBinary64 first = some decimal)
    (converts' : Decimal.ofBinary64 second = some decimal') :
    operation.Vanishes first second ↔ Decimal.Vanishes (operation.ofDecimals decimal decimal') := by
  have plain := Decimal.isPlain_ofBinary64 positive finite converts
  have plain' := Decimal.isPlain_ofBinary64 positive' finite' converts'
  rw [vanishes_ofDecimals_iff plain plain']
  constructor
  · rintro ⟨known, known', same, same', vanishes⟩
    obtain rfl : known = decimal := Option.some.inj (same.symm.trans converts)
    obtain rfl : known' = decimal' := Option.some.inj (same'.symm.trans converts')
    exact vanishes
  · exact fun vanishes => ⟨decimal, decimal', converts, converts', vanishes⟩

/-- What an operation finds is zero if it vanishes, and above zero otherwise. -/
theorem onDecimals_spec
    (normal : Binary64.leastNormal ≤ operation.exact first.value second.value) :
    (operation.Vanishes first second →
      Operation.onDecimals operation.ofDecimals operation.ofBinary first second = .zero) ∧
    (¬ operation.Vanishes first second →
      (Operation.onDecimals operation.ofDecimals operation.ofBinary first second).IsPositive) := by
  have fallback := isPositive_ofBinary positive finite positive' finite' normal
  unfold Operation.onDecimals
  split
  next decimal decimal' converts converts' =>
    rw [vanishes_iff_of_converts positive finite positive' finite' converts converts']
    split
    next result found =>
      have plain := isPlain_ofDecimals (Decimal.isPlain_ofBinary64 positive finite converts)
        (Decimal.isPlain_ofBinary64 positive' finite' converts') found
      rw [found, Decimal.vanishes_some]
      exact ⟨plain.toBinary64_eq_zero, plain.isPositive⟩
    next none =>
      rw [none]
      exact ⟨fun vanishes => (Decimal.not_vanishes_none vanishes).elim, fun _ => fallback⟩
  next noDecimals =>
    refine ⟨?_, fun _ => fallback⟩
    rintro ⟨decimal, decimal', converts, converts', -⟩
    exact (noDecimals decimal decimal' converts converts').elim

end

/-- Of two finite numbers above zero every operation finds a result. Where the exact one is not
below the least normal number, it is zero if the operation vanishes on the decimals of the two
numbers, and above zero otherwise. -/
theorem perform_of_normal (positive : first.IsPositive) (finite : first.isFinite = true)
    (positive' : second.IsPositive) (finite' : second.isFinite = true)
    (normal : Binary64.leastNormal ≤ operation.exact first.value second.value) :
    ∃ result, OperationRegistry.builtIn.perform operation.name first second = .ok result ∧
      (operation.Vanishes first second → result = .zero) ∧
      (¬ operation.Vanishes first second → result.IsPositive) :=
  ⟨_, operation.perform_eq first positive',
    onDecimals_spec positive finite positive' finite' normal⟩

/-! ### Powers of two -/

/-- The number `2 ^ -60`. -/
def small : Binary64 := .ofRatio false 1 (Nat.pow 2 60)

/-- The number `2 ^ -100`. -/
def tiny : Binary64 := .ofRatio false 1 (Nat.pow 2 100)

theorem small_eq : small = .finite false ⟨963 * octave, by decide +kernel⟩ := by decide +kernel

theorem tiny_eq : tiny = .finite false ⟨923 * octave, by decide +kernel⟩ := by decide +kernel

theorem value_small : small.value = 1 / 2 ^ 60 := by
  have value : small.value = (1 : Nat) / (2 ^ 60 : Nat) :=
    Binary64.value_eq_div small_eq (by decide) (by decide +kernel)
  rw [value]
  norm_num

theorem value_tiny : tiny.value = 1 / 2 ^ 100 := by
  have value : tiny.value = (1 : Nat) / (2 ^ 100 : Nat) :=
    Binary64.value_eq_div tiny_eq (by decide) (by decide +kernel)
  rw [value]
  norm_num

theorem isPositive_small : small.IsPositive ∧ small.isFinite = true :=
  ⟨show _ = true by decide +kernel, by decide +kernel⟩

theorem isPositive_tiny : tiny.IsPositive ∧ tiny.isFinite = true :=
  ⟨show _ = true by decide +kernel, by decide +kernel⟩

theorem leastNormal_le : Binary64.leastNormal ≤ 1 / 2 ^ 100 := by
  unfold Binary64.leastNormal
  rw [one_div, ← zpow_natCast, ← zpow_neg]
  exact zpow_le_zpow_right₀ one_le_two (by decide)

/-- The decimal of `2 ^ -100` is zero. Its sum with a number that has another decimal is above zero,
but its quotient by that number, `2 ^ -40`, is not. -/
theorem perform_of_normal_tiny :
    (∃ result, OperationRegistry.builtIn.perform "addition" tiny small = .ok result ∧
      result.IsPositive) ∧
    ∃ result, OperationRegistry.builtIn.perform "division" tiny small = .ok result ∧
      result = .zero := by
  obtain ⟨positive, finite⟩ := isPositive_tiny
  obtain ⟨positive', finite'⟩ := isPositive_small
  have sumNormal : Binary64.leastNormal ≤ addition.exact tiny.value small.value := by
    refine leastNormal_le.trans ?_
    rw [value_tiny, value_small]
    show (1 : ℚ) / 2 ^ 100 ≤ 1 / 2 ^ 100 + 1 / 2 ^ 60
    norm_num
  have quotientNormal : Binary64.leastNormal ≤ division.exact tiny.value small.value := by
    refine leastNormal_le.trans ?_
    rw [value_tiny, value_small]
    show (1 : ℚ) / 2 ^ 100 ≤ 1 / 2 ^ 100 / (1 / 2 ^ 60)
    norm_num
  have kept : ¬ addition.Vanishes tiny small := by
    rw [vanishes_addition_iff positive finite positive' finite', value_small, Decimal.keptBound]
    norm_num [scaleLimit]
  have vanishes : division.Vanishes tiny small := by
    refine ⟨⟨false, 0, 0⟩, ⟨false, 867361738, 27⟩, by decide +kernel, by decide +kernel, ?_, ?_⟩
    · norm_num [Decimal.value, Binary64.signed]
    · norm_num [exact, Decimal.value, Binary64.signed, Decimal.halfPlace]
  obtain ⟨sum, adds, -, above⟩ :=
    perform_of_normal positive finite positive' finite' sumNormal
  obtain ⟨quotient, divides, zero, -⟩ :=
    perform_of_normal positive finite positive' finite' quotientNormal
  exact ⟨⟨sum, adds, above kept⟩, ⟨quotient, divides, zero vanishes⟩⟩

/-- Twice `2 ^ -100` is a normal number, but the sum is zero. -/
theorem perform_addition_tiny :
    tiny.IsPositive ∧ tiny.isFinite = true ∧
      Binary64.leastNormal ≤ tiny.value + tiny.value ∧
      tiny.value + tiny.value ≤ Binary64.greatestFinite ∧
      OperationRegistry.builtIn.perform "addition" tiny tiny = .ok .zero ∧
      ¬ Binary64.zero.IsPositive := by
  have sum : tiny.value + tiny.value = 1 / 2 ^ 99 := by
    rw [value_tiny]
    norm_num
  have zero : Operation.onDecimals Decimal.add Binary64.add tiny tiny = .zero := by decide +kernel
  refine ⟨isPositive_tiny.1, isPositive_tiny.2, ?_, ?_, ?_, ?_⟩
  · rw [sum]
    refine leastNormal_le.trans ?_
    norm_num
  · calc tiny.value + tiny.value
      _ ≤ 1 * 1 := by
        rw [sum]
        norm_num
      _ ≤ Binary64.greatestFinite := by
        unfold Binary64.greatestFinite
        gcongr
        · norm_num
        · exact one_le_zpow₀ one_le_two (by decide)
  · exact (perform_eq addition tiny isPositive_tiny.1).trans (congrArg Except.ok zero)
  · exact fun positive => absurd positive (show ¬ _ = true by decide +kernel)

end PositiveOperation

end Reckon
