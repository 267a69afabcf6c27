/-
This file gives the finite numbers of the format binary64 their values and says
that rounding keeps the order of values: of two quotients the greater is not
rounded to a lesser rank. So a quotient is rounded by its value alone, however
it is written, and the bounds of the format decide what is rounded to zero and
what to infinity.

A decimal is rounded to the number nearest its value too. Where its exponent
alone decides the answer, these bounds say the same.
-/

import Mathlib.Algebra.Order.Field.Rat
import Mathlib.Data.Rat.Floor
import Mathlib.Tactic.FieldSimp
import Mathlib.Tactic.NormNum
import Mathlib.Tactic.Positivity
import Reckon.Binary64.Arithmetic
import Reckon.Proofs.Binary64.ReadBack

namespace Reckon

namespace Binary64

variable {numerator denominator numerator' denominator' : Nat}

/-! ### Rounding and order -/

/-- Of two quotients, the one that is at most the other is not rounded to a greater rank. -/
theorem nearestRank_mono (positive : 0 < denominator) (positive' : 0 < denominator')
    (le : numerator * denominator' ≤ numerator' * denominator) :
    nearestRank numerator denominator ≤ nearestRank numerator' denominator' := by
  have within := within_nearestRank numerator positive
  have within' := within_nearestRank numerator' positive'
  generalize nearestRank numerator denominator = rank at *
  generalize nearestRank numerator' denominator' = rank' at *
  refine Nat.le_of_not_lt fun greater => ?_
  obtain ⟨lower, -, odd⟩ := within
  obtain ⟨-, upper, odd'⟩ := within'
  -- Both bounds are brought to the product of the denominators.
  have first : (unitsOfRank rank' + unitsOfRank (rank' + 1)) * (denominator * denominator') ≤
      (unitsOfRank (rank - 1) + unitsOfRank rank) * (denominator * denominator') :=
    Nat.mul_le_mul_right _ (Nat.add_le_add (unitsOfRank_mono (by omega)) (unitsOfRank_mono greater))
  have scale := Nat.mul_le_mul_right denominator' lower
  have scale' := Nat.mul_le_mul_right denominator upper
  rw [Nat.mul_assoc, Nat.mul_assoc] at scale
  rw [Nat.mul_assoc, Nat.mul_assoc, Nat.mul_comm denominator'] at scale'
  rcases Nat.lt_or_ge (rank' + 1) rank with apart | next
  · have strictly := Nat.mul_lt_mul_of_pos_right
      (Nat.add_lt_add_of_le_of_lt (unitsOfRank_mono (show rank' ≤ rank - 1 by omega))
        (unitsOfRank_lt apart)) (Nat.mul_pos positive positive')
    omega
  · -- The ranks are neighbours, and the odd one has neither end of its interval.
    obtain rfl : rank = rank' + 1 := by omega
    rcases Nat.mod_two_eq_zero_or_one rank' with even | isOdd
    · have strictly := Nat.mul_lt_mul_of_pos_right (odd (by omega)).1 positive'
      rw [Nat.mul_assoc, Nat.mul_assoc] at strictly
      omega
    · have strictly := Nat.mul_lt_mul_of_pos_right (odd' isOdd).2 positive
      rw [Nat.mul_assoc, Nat.mul_assoc, Nat.mul_comm denominator'] at strictly
      omega

/-- Equal quotients are rounded to the same rank. -/
theorem nearestRank_congr (positive : 0 < denominator) (positive' : 0 < denominator')
    (same : numerator * denominator' = numerator' * denominator) :
    nearestRank numerator denominator = nearestRank numerator' denominator' :=
  Nat.le_antisymm (nearestRank_mono positive positive' (Nat.le_of_eq same))
    (nearestRank_mono positive' positive (Nat.le_of_eq same.symm))

/-- The magnitude of a rank is rounded to the rank. -/
theorem nearestRank_unitsOfRank (rank : Nat) (positive : 0 < denominator) :
    nearestRank (unitsOfRank rank * denominator) denominator = rank :=
  nearestRank_of_within (within_self rank positive) positive

/-- What is at least the magnitude of a rank is not rounded to a lesser rank. -/
theorem le_nearestRank {rank : Nat} (positive : 0 < denominator)
    (above : unitsOfRank rank * denominator ≤ numerator) :
    rank ≤ nearestRank numerator denominator := by
  rw [← nearestRank_unitsOfRank rank positive]
  exact nearestRank_mono positive positive (Nat.mul_le_mul_right denominator above)

/-- What is at most half a unit is rounded to zero. -/
theorem nearestRank_eq_zero (small : 2 * numerator ≤ denominator) (positive : 0 < denominator) :
    nearestRank numerator denominator = 0 := by
  refine nearestRank_of_within ⟨?_, ?_, nofun⟩ positive
  · rw [show unitsOfRank (0 - 1) + unitsOfRank 0 = 0 from rfl, Nat.zero_mul]
    exact Nat.zero_le _
  · rwa [show unitsOfRank 0 + unitsOfRank (0 + 1) = 1 from rfl, Nat.one_mul]

/-! ### Values -/

/-- A number with a sign. -/
def signed (negative : Bool) (number : ℚ) : ℚ :=
  if negative then -number else number

/-- The value of a finite number; zero for the others. -/
def value (number : Binary64) : ℚ :=
  (number.signedUnits : ℚ) / one

/-- The number nearest a rational number. -/
def nearest (number : ℚ) : Binary64 :=
  ofRatio (decide (number < 0)) number.num.natAbs number.den

theorem value_finite (negative : Bool) (rank : Fin rankLimit) :
    value (.finite negative rank) = signed negative (unitsOfRank rank / one) := by
  unfold value signedUnits signed
  cases negative
  · rfl
  · show ((-(unitsOfRank rank : Int) : Int) : ℚ) / one = -(unitsOfRank rank / one)
    rw [Int.cast_neg, Int.cast_natCast, neg_div]

theorem abs_signed (negative : Bool) (number : ℚ) : |signed negative number| = |number| := by
  cases negative
  · rfl
  · exact abs_neg number

theorem natAbs_num_div_den (number : ℚ) : (number.num.natAbs : ℚ) / number.den = |number| := by
  conv_rhs => rw [← Rat.num_div_den number, abs_div, Nat.abs_cast]
  rw [Nat.cast_natAbs, Int.cast_abs]

theorem withoutZeroSign_ofRank_zero (negative : Bool) :
    (ofRank negative 0).withoutZeroSign = zero := rfl

/-- A quotient is rounded to the number nearest its value, but for the sign of zero. -/
theorem withoutZeroSign_ofRatio (negative : Bool) (numerator : Nat)
    (positive : 0 < denominator) :
    (ofRatio negative numerator denominator).withoutZeroSign =
      (nearest (signed negative (numerator / denominator))).withoutZeroSign := by
  have denominatorPositive : (0 : ℚ) < denominator := Nat.cast_pos.mpr positive
  generalize is : signed negative ((numerator : ℚ) / denominator) = number
  have crossed : numerator * number.den = number.num.natAbs * denominator := by
    have quotient := natAbs_num_div_den number
    rw [← is, abs_signed, is, abs_of_nonneg (by positivity),
      div_eq_div_iff (Nat.cast_ne_zero.mpr number.den_nz) denominatorPositive.ne'] at quotient
    exact_mod_cast quotient.symm
  have sameRank : nearestRank (numerator * one) denominator =
      nearestRank (number.num.natAbs * one) number.den := by
    refine nearestRank_congr positive number.pos ?_
    rw [Nat.mul_right_comm, crossed, Nat.mul_right_comm]
  unfold nearest ofRatio ofUnits
  rw [sameRank]
  rcases Nat.eq_zero_or_pos numerator with rfl | large
  · have zero : nearestRank (0 * one) denominator = 0 :=
      nearestRank_eq_zero (by
        rw [Nat.zero_mul]
        exact Nat.zero_le _) positive
    rw [← sameRank, zero]
    rfl
  · have sign : decide (number < 0) = negative := by
      have magnitude : (0 : ℚ) < numerator / denominator := by positivity
      rw [← is]
      cases negative
      · exact decide_eq_false (not_lt_of_gt magnitude)
      · exact decide_eq_true (neg_neg_of_pos magnitude)
    rw [sign]

/-- The value of a finite number is rounded to the number. -/
theorem withoutZeroSign_nearest_value (negative : Bool) (rank : Fin rankLimit) :
    (nearest (value (.finite negative rank))).withoutZeroSign =
      (Binary64.finite negative rank).withoutZeroSign := by
  have rounded : ofUnits negative (unitsOfRank rank * one) one = .finite negative rank := by
    unfold ofUnits
    rw [nearestRank_unitsOfRank rank one_pos]
    exact dif_pos rank.isLt
  rw [value_finite, ← withoutZeroSign_ofRatio negative _ one_pos]
  exact congrArg withoutZeroSign rounded

/-! ### Decimals -/

/-- What is at least the magnitude that follows the greatest one is rounded to infinity. -/
theorem ofRatio_eq_infinite (negative : Bool) (positive : 0 < denominator)
    (large : unitsOfRank rankLimit * denominator ≤ numerator * one) :
    ofRatio negative numerator denominator = .infinite negative :=
  dif_neg (Nat.not_lt_of_ge (le_nearestRank positive large))

theorem pow_ten_mono {first second : Nat} (le : first ≤ second) :
    Nat.pow 10 first ≤ Nat.pow 10 second :=
  Nat.pow_le_pow_right (by decide) le

/-- A power of ten beyond the four hundredth is at least the magnitude that follows the greatest
one. -/
theorem unitsOfRank_rankLimit_le {places : Nat} (large : 400 < places) :
    unitsOfRank rankLimit ≤ Nat.pow 10 places * one := by
  obtain ⟨few, is, limit⟩ :
      ∃ few, few = 400 ∧ unitsOfRank rankLimit ≤ Nat.pow 10 few * one :=
    ⟨400, rfl, by decide +kernel⟩
  exact limit.trans (Nat.mul_le_mul_right one (pow_ten_mono (by omega)))

/-- A number with four hundred places more than it has binary digits is at most half a unit. -/
theorem two_mul_le_pow_ten {significand places : Nat}
    (small : 400 + significand.log2 < places) : 2 * (significand * one) ≤ Nat.pow 10 places := by
  obtain ⟨few, is, limit⟩ : ∃ few, few = 400 ∧ 4 * one ≤ Nat.pow 10 few :=
    ⟨400, rfl, by decide +kernel⟩
  have bound : significand < 2 * 2 ^ significand.log2 := by
    rw [← Nat.pow_succ']
    exact Nat.lt_log2_self
  have tens : 2 ^ significand.log2 ≤ Nat.pow 10 significand.log2 :=
    Nat.pow_le_pow_left (by decide) _
  calc 2 * (significand * one)
      ≤ 2 * (2 * 2 ^ significand.log2 * one) :=
        Nat.mul_le_mul_left 2 (Nat.mul_le_mul_right one bound.le)
    _ = 4 * one * 2 ^ significand.log2 := by ring
    _ ≤ Nat.pow 10 few * Nat.pow 10 significand.log2 := Nat.mul_le_mul limit tens
    _ = Nat.pow 10 (few + significand.log2) := (Nat.pow_add 10 few _).symm
    _ ≤ Nat.pow 10 places := pow_ten_mono (by omega)

theorem withoutZeroSign_ofRatio_of_small (negative : Bool) (positive : 0 < denominator)
    (small : 2 * (numerator * one) ≤ denominator) :
    (ofRatio negative numerator denominator).withoutZeroSign = zero := by
  unfold ofRatio ofUnits
  rw [nearestRank_eq_zero small positive, withoutZeroSign_ofRank_zero]

/-- Exponents that decide the answer by their size alone are rounded like the others. -/
theorem ofDecimal_eq_ofRatio (negative : Bool) (significand : Nat) (exponent : Int) :
    (ofDecimal negative significand exponent).withoutZeroSign =
      (if exponent < 0 then ofRatio negative significand (Nat.pow 10 exponent.natAbs)
        else ofRatio negative (significand * Nat.pow 10 exponent.natAbs) 1).withoutZeroSign := by
  have power : 0 < Nat.pow 10 exponent.natAbs := Nat.pow_pos (by decide)
  unfold ofDecimal
  by_cases none : significand = 0
  · have nothing : ∀ denominator, 2 * (0 * one) ≤ denominator := fun denominator => by
      rw [Nat.zero_mul]
      exact Nat.zero_le _
    subst none
    rw [if_pos rfl, withoutZeroSign_ofRank_zero, Nat.zero_mul]
    split
    · exact (withoutZeroSign_ofRatio_of_small negative power (nothing _)).symm
    · exact (withoutZeroSign_ofRatio_of_small negative Nat.one_pos (nothing _)).symm
  rw [if_neg none]
  by_cases large : 400 < exponent
  · rw [if_pos large, if_neg (by omega)]
    refine congrArg withoutZeroSign (ofRatio_eq_infinite negative Nat.one_pos ?_).symm
    rw [Nat.mul_one]
    exact (unitsOfRank_rankLimit_le (by omega)).trans
      (Nat.mul_le_mul_right one (Nat.le_mul_of_pos_left _ (Nat.pos_of_ne_zero none)))
  rw [if_neg large]
  by_cases small : exponent < -(400 + significand.log2 : Int)
  · rw [if_pos small, if_pos (by omega), withoutZeroSign_ofRank_zero]
    exact (withoutZeroSign_ofRatio_of_small negative power (two_mul_le_pow_ten (by omega))).symm
  · rw [if_neg small]

/-- A decimal is rounded to the number nearest its value, but for the sign of zero. -/
theorem withoutZeroSign_ofDecimal (negative : Bool) (significand : Nat) (exponent : Int) :
    (ofDecimal negative significand exponent).withoutZeroSign =
      (nearest (signed negative (significand * 10 ^ exponent))).withoutZeroSign := by
  have positive : 0 < Nat.pow 10 exponent.natAbs := Nat.pow_pos (by decide)
  rw [ofDecimal_eq_ofRatio]
  rcases Int.lt_or_le exponent 0 with fraction | whole
  · rw [if_pos fraction, withoutZeroSign_ofRatio negative _ positive]
    have power : (10 : ℚ) ^ exponent = ((Nat.pow 10 exponent.natAbs : Nat) : ℚ)⁻¹ := by
      obtain ⟨places, rfl⟩ : ∃ places : Nat, exponent = -places := ⟨exponent.natAbs, by omega⟩
      rw [zpow_neg, zpow_natCast, Int.natAbs_neg, Int.natAbs_natCast]
      push_cast [Nat.pow_eq]
      rfl
    rw [power, div_eq_mul_inv]
  · rw [if_neg (Int.not_lt_of_ge whole), withoutZeroSign_ofRatio negative _ Nat.one_pos]
    have power : (10 : ℚ) ^ exponent = (Nat.pow 10 exponent.natAbs : Nat) := by
      obtain ⟨places, rfl⟩ := Int.eq_ofNat_of_zero_le whole
      rw [zpow_natCast, Int.natAbs_natCast]
      push_cast [Nat.pow_eq]
      rfl
    rw [power, Nat.cast_one, div_one, Nat.cast_mul]

end Binary64

end Reckon
