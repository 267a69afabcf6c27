/-
This file says which integers are binary numbers as they are. Those up to two
to the power of 53 are; of two that are, the binary numbers differ.

It also says what is lost when the sign of zeros is dropped: nothing else.
-/

import Reckon.Binary64.Arithmetic
import Reckon.Proofs.Binary64.Literal

namespace Reckon.Binary64

/-- Whether an integer is a binary number as it is, without being rounded. -/
def Holds (number : Int64) : Prop :=
  (ofInt64 number).signedUnits = number.toInt * one

/-- Different integers that need no rounding are different binary numbers. -/
theorem Holds.injective {number number' : Int64} (holds : Holds number) (holds' : Holds number')
    (same : ofInt64 number = ofInt64 number') : number = number' := by
  unfold Holds at holds holds'
  rw [same, holds'] at holds
  have positive : (one : Int) ≠ 0 := by decide +kernel
  exact Int64.toInt_inj.1 (Int.eq_of_mul_eq_mul_right positive holds.symm)

/-- The integers up to this magnitude are binary numbers. -/
def exactLimit : Nat := Nat.pow 2 53

/-- Whether a number is finite and denotes an integer, neither more nor less. -/
structure IsExactly (number : Binary64) (integer : Int) : Prop where
  finite : number.isFinite = true
  units : number.signedUnits = integer * one

/-- Magnitudes up to two to the power of 53 are not rounded. -/
theorem isExactly_ofRatio (negative : Bool) {magnitude : Nat} (small : magnitude ≤ exactLimit) :
    (ofRatio negative magnitude 1).IsExactly
      (if negative then -(magnitude : Int) else magnitude) := by
  have units_eq : unitsOfRank (nearestRank (magnitude * one) 1) = magnitude * one := by
    rcases Nat.lt_or_eq_of_le small with less | same
    · exact unitsOfRank_nearestRank less
    · rw [same]
      decide +kernel
  have finite : nearestRank (magnitude * one) 1 < rankLimit := by
    refine Nat.lt_of_not_le fun large => ?_
    have above := unitsOfRank_mono large
    rw [units_eq] at above
    have limit : exactLimit * one < unitsOfRank rankLimit := by decide +kernel
    exact absurd (Nat.le_trans above (Nat.mul_le_mul_right one small)) (Nat.not_le_of_lt limit)
  unfold ofRatio ofUnits ofRank
  rw [dif_pos finite]
  refine ⟨rfl, ?_⟩
  unfold signedUnits isNegative units
  dsimp only
  rw [units_eq, Int.natCast_mul]
  by_cases sign : negative = true
  · rw [if_pos sign, if_pos sign, Int.neg_mul]
  · rw [if_neg sign, if_neg sign]

theorem isExactly_ofInt {integer : Int} (small : integer.natAbs ≤ exactLimit) :
    (ofInt integer).IsExactly integer := by
  have exactly := isExactly_ofRatio (decide (integer < 0)) small
  by_cases negative : integer < 0
  · rwa [if_pos (decide_eq_true negative), Int.ofNat_natAbs_of_nonpos (Int.le_of_lt negative),
      Int.neg_neg] at exactly
  · rwa [if_neg (by simpa using negative), Int.natAbs_of_nonneg (Int.not_lt.1 negative)] at exactly

/-- The integers up to two to the power of 53 are binary numbers. -/
theorem holds_of_le {number : Int64} (small : number.toInt.natAbs ≤ 2 ^ 53) : Holds number :=
  (isExactly_ofInt small).units

namespace IsExactly

variable {number : Binary64} {integer : Int}

theorem natAbs_mul_one (exactly : number.IsExactly integer) :
    integer.natAbs * one = number.units := by
  have magnitudes := congrArg Int.natAbs exactly.units
  rw [Int.natAbs_mul, Int.natAbs_natCast] at magnitudes
  rw [← magnitudes]
  unfold signedUnits
  split
  · rw [Int.natAbs_neg, Int.natAbs_natCast]
  · rw [Int.natAbs_natCast]

theorem negate (exactly : number.IsExactly integer) : number.negate.IsExactly (-integer) := by
  cases number with
  | finite negative rank =>
    have units := exactly.units
    refine ⟨rfl, ?_⟩
    rw [Int.neg_mul, ← units]
    cases negative with
    | false => rfl
    | true => exact (Int.neg_neg _).symm
  | _ => cases exactly.finite

theorem isZero_eq_false (exactly : number.IsExactly integer) (nonzero : integer ≠ 0) :
    number.isZero = false := by
  cases number with
  | finite negative rank =>
    refine Bool.eq_false_iff.2 fun isZero => nonzero ?_
    have units := exactly.natAbs_mul_one
    have zero : unitsOfRank rank.val = 0 := by rw [beq_iff_eq.1 isZero]; rfl
    exact Int.natAbs_eq_zero.1
      ((Nat.mul_eq_zero.1 (units.trans zero)).resolve_right (Nat.ne_of_gt one_pos))
  | _ => cases exactly.finite

end IsExactly

/-- A number is known by its value and the sign it has if it is zero. -/
theorem eq_of_withoutZeroSign {number number' : Binary64}
    (same : number.withoutZeroSign = number'.withoutZeroSign)
    (signs : number.isZero = true → number'.isZero = true →
      number.isNegative = number'.isNegative) : number = number' := by
  have zero_isZero : zero.isZero = true := rfl
  unfold withoutZeroSign at same
  by_cases first : number.isZero = true
  · by_cases second : number'.isZero = true
    · -- Both are zeros, and a zero is known by its sign.
      have sign := signs first second
      cases number with
      | finite negative rank =>
        cases number' with
        | finite negative' rank' =>
          obtain rfl : negative = negative' := sign
          have ranks : rank.val = rank'.val :=
            (beq_iff_eq.1 first).trans (beq_iff_eq.1 second).symm
          rw [Fin.ext ranks]
        | _ => cases second
      | _ => cases first
    · rw [if_pos first, if_neg second] at same
      rw [← same] at second
      exact absurd zero_isZero second
  · by_cases second : number'.isZero = true
    · rw [if_neg first, if_pos second] at same
      rw [same] at first
      exact absurd zero_isZero first
    · rwa [if_neg first, if_neg second] at same

end Reckon.Binary64
