/-
This file says what operators make of values that denote integers. While the
magnitudes of operands and results stay within two to the power of 53, the
operations that are built in find sums, differences and products as they are;
they find the remainder that has the sign of the dividend, and a quotient
wherever nothing remains.
-/

import Reckon.Evaluation.Operators
import Reckon.Proofs.Decimal.Integers

namespace Reckon

open Binary64 (exactLimit)

/-! ### Values that denote integers -/

namespace Value

/-- Whether a value is a number that denotes an integer, neither more nor less. -/
def IsExactly : Value → Int → Prop
  | .integer number, denoted => number.toInt = denoted
  | .float number, denoted => number.IsExactly denoted
  | _, _ => False

namespace IsExactly

variable {value : Value} {integer : Int}

/-- As a binary number, a value denotes the same integer. -/
theorem exists_asFloat? (exactly : value.IsExactly integer) (small : integer.natAbs ≤ exactLimit) :
    ∃ number, value.asFloat? = some number ∧ number.IsExactly integer := by
  cases value with
  | integer number =>
    obtain rfl : number.toInt = integer := exactly
    exact ⟨_, rfl, Binary64.isExactly_ofInt small⟩
  | float number => exact ⟨number, rfl, exactly⟩
  | _ => exact exactly.elim

theorem isNumber (exactly : value.IsExactly integer) : value.isNumber = true := by
  cases value with
  | integer | float => rfl
  | _ => exact exactly.elim

theorem isText_eq_false (exactly : value.IsExactly integer) : value.isText = false := by
  cases value with
  | integer | float => rfl
  | _ => exact exactly.elim

/-- The negative of a value denotes the negative of the integer. -/
theorem negateValue (exactly : value.IsExactly integer) (small : integer.natAbs ≤ exactLimit) :
    ∃ negated, UnaryOperator.negateValue value = .ok negated ∧ negated.IsExactly (-integer) := by
  cases value with
  | integer number =>
    obtain rfl : number.toInt = integer := exactly
    have notLeast : number ≠ Int64.minValue := by
      rintro rfl
      exact absurd small (by decide)
    have small : number.toInt.natAbs ≤ 9007199254740992 := small
    have fits : (-number.toInt).bmod (2 ^ 64) = -number.toInt :=
      Int.bmod_eq_of_le (by omega) (by omega)
    unfold UnaryOperator.negateValue
    dsimp only
    rw [if_neg notLeast]
    exact ⟨_, rfl, (Int64.toInt_neg number).trans fits⟩
  | float number => exact ⟨_, rfl, Binary64.IsExactly.negate exactly⟩
  | _ => exact exactly.elim

end IsExactly

end Value

/-! ### Operations -/

/-- Whether the operations behind the operators are the ones that are built in. -/
def OperationRegistry.KeepsBuiltIn (operations : OperationRegistry) : Prop :=
  ∀ {operator : BinaryOperator} {name : String}, operator.operationName? = some name →
    operations.get? name = OperationRegistry.builtIn.get? name

namespace BinaryOperator

/-- What an operator of arithmetic makes of two integers: of a division, the quotient if nothing
remains, or the remainder, whose sign is that of the dividend. -/
def ofIntegers? : BinaryOperator → Int → Int → Option Int
  | .add, first, second => some (first + second)
  | .subtract, first, second => some (first - second)
  | .multiply, first, second => some (first * second)
  | .divide, first, second =>
    if second ≠ 0 ∧ second ∣ first then some (first / second) else none
  | .modulo, first, second => if second ≠ 0 then some (first.tmod second) else none
  | _, _, _ => none

variable {operator : BinaryOperator} {integer integer' result : Int}

/-- The operation behind an operator finds what the operator makes of two integers. -/
theorem perform_isExactly {first second : Binary64} (exactly : first.IsExactly integer)
    (exactly' : second.IsExactly integer') (small : integer.natAbs ≤ exactLimit)
    (small' : integer'.natAbs ≤ exactLimit) (smallResult : result.natAbs ≤ exactLimit)
    (made : operator.ofIntegers? integer integer' = some result) :
    ∃ name found, operator.operationName? = some name ∧
      OperationRegistry.builtIn.perform name first second = .ok found ∧
      found.IsExactly result := by
  have room : result.natAbs < coefficientLimit := Nat.lt_of_le_of_lt smallResult (by decide)
  -- What is exact on decimals is exact on the two numbers.
  have through {exact : Decimal → Decimal → Option Decimal}
      (fallback : Binary64 → Binary64 → Binary64)
      (onDecimal : ∀ {decimal decimal' : Decimal}, decimal.IsExactly integer →
        decimal'.IsExactly integer' → ∃ found, exact decimal decimal' = some found ∧
          found.IsExactly result) :
      (Operation.onDecimals exact fallback first second).IsExactly result :=
    Operation.isExactly_onDecimals fallback exactly exactly' small small' smallResult onDecimal
  cases operator with
  | add =>
    obtain rfl := Option.some.inj made
    exact ⟨_, _, rfl, rfl, through Binary64.add fun left right => left.add right room⟩
  | subtract =>
    obtain rfl := Option.some.inj made
    exact ⟨_, _, rfl, rfl, through Binary64.subtract fun left right => left.subtract right room⟩
  | multiply =>
    obtain rfl := Option.some.inj made
    exact ⟨_, _, rfl, rfl, through Binary64.multiply fun left right => left.multiply right room⟩
  | divide =>
    obtain ⟨⟨nonzero, divides⟩, same⟩ := Option.ite_none_right_eq_some.1 made
    obtain rfl := Option.some.inj same
    have dividend : integer / integer' * integer' = integer := Int.ediv_mul_cancel divides
    refine ⟨_, _, rfl, if_neg ?_, through Binary64.divide fun left right => ?_⟩
    · exact Bool.eq_false_iff.1 (exactly'.isZero_eq_false nonzero)
    · exact Decimal.IsExactly.divide (dividend.symm ▸ left) right nonzero
  | modulo =>
    obtain ⟨nonzero, same⟩ := Option.ite_none_right_eq_some.1 made
    obtain rfl := Option.some.inj same
    refine ⟨_, _, rfl, if_neg ?_, through Binary64.remainder fun left right => ?_⟩
    · exact Bool.eq_false_iff.1 (exactly'.isZero_eq_false nonzero)
    · exact left.remainder right nonzero
  | _ => cases made

variable {operations : OperationRegistry} {left right : Value}

theorem calculate_isExactly (keeps : operations.KeepsBuiltIn) (exactly : left.IsExactly integer)
    (exactly' : right.IsExactly integer') (small : integer.natAbs ≤ exactLimit)
    (small' : integer'.natAbs ≤ exactLimit) (smallResult : result.natAbs ≤ exactLimit)
    (made : operator.ofIntegers? integer integer' = some result) :
    ∃ value, calculate operations operator left right = .ok value ∧ value.IsExactly result := by
  obtain ⟨first, same, firstExactly⟩ := exactly.exists_asFloat? small
  obtain ⟨second, same', secondExactly⟩ := exactly'.exists_asFloat? small'
  obtain ⟨name, found, named, performed, foundExactly⟩ :=
    perform_isExactly firstExactly secondExactly small small' smallResult made
  have operands : operator.numericOperands left right = .ok (first, second) := by
    unfold numericOperands
    rw [same, same']
  have performs : operations.perform name first second = .ok found := by
    unfold OperationRegistry.perform at performed ⊢
    rw [keeps named]
    exact performed
  refine ⟨.float found, ?_, foundExactly⟩
  unfold calculate
  rw [operands, named]
  show (do return Value.float (← operations.perform name first second)) = _
  rw [performs]
  rfl

/-- An operator gives the value of what it makes of two integers. -/
theorem apply_isExactly (keeps : operations.KeepsBuiltIn) (exactly : left.IsExactly integer)
    (exactly' : right.IsExactly integer') (small : integer.natAbs ≤ exactLimit)
    (small' : integer'.natAbs ≤ exactLimit) (smallResult : result.natAbs ≤ exactLimit)
    (made : operator.ofIntegers? integer integer' = some result) :
    ∃ value, operator.apply operations left right = .ok value ∧ value.IsExactly result := by
  have calculated :=
    calculate_isExactly keeps exactly exactly' small small' smallResult made
  cases operator with
  | add =>
    unfold apply
    dsimp only
    unfold applyAdd
    rw [exactly.isText_eq_false, exactly'.isText_eq_false, exactly.isNumber, exactly'.isNumber]
    exact calculated
  | subtract | multiply | divide | modulo => exact calculated
  | _ => cases made

end BinaryOperator

end Reckon
