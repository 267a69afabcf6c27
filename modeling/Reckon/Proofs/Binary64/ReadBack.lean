/-
This file shows that the shortest decimal of a number reads back as the number.
A decimal that the search accepts lies in the interval of the rank, so it is
rounded to it. The search ends at a decimal it accepts: on the finest grid that
it tries, the magnitude itself is a multiple.
-/

import Reckon.Binary64.Reading
import Reckon.Binary64.Shortest
import Reckon.Proofs.Binary64.Nearest

namespace Reckon

namespace Binary64

theorem exists_one_eq : ∃ power, power = 1074 ∧ one = 2 ^ power :=
  ⟨1074, rfl, by decide +kernel⟩

theorem one_pos : 0 < one := by decide +kernel

theorem unitsOfRank_pos {rank : Nat} (positive : 0 < rank) : 0 < unitsOfRank rank :=
  Nat.lt_of_le_of_lt (Nat.zero_le _) (unitsOfRank_lt positive)

variable {rank digits : Nat} {exponent : Int} {tie : TieRule}

/-! ### Decimals that read back -/

/-- A decimal reads back if it lies in the interval of the rank. -/
theorem readsBack_iff_within {numerator : Nat}
    (place : digits * (gridStep exponent).1 = 2 * numerator) :
    readsBack rank digits exponent = true ↔ Within rank numerator (gridStep exponent).2 := by
  unfold readsBack Within
  dsimp only
  rw [place]
  rcases Nat.mod_two_eq_zero_or_one rank with even | odd
  · rw [if_pos even, decide_eq_true_iff]
    omega
  · rw [if_neg (by omega), decide_eq_true_iff]
    omega

theorem gridStep_fraction (negative : exponent < 0) :
    gridStep exponent = (2 * one, Nat.pow 10 exponent.natAbs) :=
  if_pos negative

theorem gridStep_whole (whole : 0 ≤ exponent) :
    gridStep exponent = (2 * one * Nat.pow 10 exponent.natAbs, 1) :=
  if_neg (Int.not_lt_of_ge whole)

theorem within_of_readsBack_fraction (negative : exponent < 0)
    (reads : readsBack rank digits exponent = true) :
    Within rank (digits * one) (Nat.pow 10 exponent.natAbs) := by
  have grid := gridStep_fraction negative
  have place : digits * (gridStep exponent).1 = 2 * (digits * one) := by
    rw [grid, Nat.mul_left_comm]
  have within := (readsBack_iff_within place).mp reads
  rw [grid] at within
  exact within

theorem within_of_readsBack_whole (whole : 0 ≤ exponent)
    (reads : readsBack rank digits exponent = true) :
    Within rank (digits * Nat.pow 10 exponent.natAbs * one) 1 := by
  have grid := gridStep_whole whole
  have place : digits * (gridStep exponent).1 =
      2 * (digits * Nat.pow 10 exponent.natAbs * one) := by
    rw [grid, Nat.mul_assoc 2, Nat.mul_left_comm, Nat.mul_comm one, Nat.mul_assoc digits]
  have within := (readsBack_iff_within place).mp reads
  rw [grid] at within
  exact within

theorem Within.pos {numerator denominator : Nat} (within : Within rank numerator denominator)
    (positive : 0 < rank) : denominator ≤ 2 * numerator := by
  have units := unitsOfRank_pos positive
  refine Nat.le_trans (Nat.le_mul_of_pos_left denominator ?_) within.1
  omega

/-- A decimal that reads back as the magnitude of a positive rank is not so small that its
exponent alone decides its value. -/
theorem exponent_of_readsBack (positive : 0 < rank)
    (reads : readsBack rank digits exponent = true) :
    digits ≠ 0 ∧ ¬ exponent < -(400 + digits.log2 : Int) := by
  rcases Int.lt_or_le exponent 0 with negative | whole
  · have bound := (within_of_readsBack_fraction negative reads).pos positive
    obtain ⟨power, value, one_eq⟩ := exists_one_eq
    have digitsBound : digits < 2 ^ (digits.log2 + 1) := Nat.lt_log2_self
    have tens : 2 ^ (3 * exponent.natAbs) ≤ Nat.pow 10 exponent.natAbs := by
      rw [Nat.pow_mul]
      exact Nat.pow_le_pow_left (by decide) _
    rw [one_eq] at bound
    have powers : 2 ^ (3 * exponent.natAbs) < 2 ^ (digits.log2 + 2 + power) := by
      refine Nat.lt_of_le_of_lt (Nat.le_trans tens bound) ?_
      rw [← Nat.mul_assoc, Nat.pow_add, Nat.pow_succ 2 (digits.log2 + 1), Nat.mul_comm 2]
      exact Nat.mul_lt_mul_of_pos_right (Nat.mul_lt_mul_of_pos_right digitsBound (by decide))
        (Nat.two_pow_pos power)
    have exponents := (Nat.pow_lt_pow_iff_right (by decide)).mp powers
    refine ⟨fun zero => ?_, by omega⟩
    rw [zero, Nat.zero_mul, Nat.mul_zero] at bound
    exact absurd bound (Nat.not_le_of_lt (Nat.pow_pos (by decide)))
  · have bound := (within_of_readsBack_whole whole reads).pos positive
    refine ⟨fun zero => ?_, by omega⟩
    rw [zero, Nat.zero_mul, Nat.zero_mul] at bound
    exact absurd bound (by decide)

/-- A decimal that reads back as the magnitude of a positive rank is read as the number of that
rank. -/
theorem ofDecimal_of_readsBack (positive : 0 < rank)
    (reads : readsBack rank digits exponent = true) (small : exponent ≤ 400) (negative : Bool) :
    ofDecimal negative digits exponent = ofRank negative rank := by
  obtain ⟨nonzero, notTiny⟩ := exponent_of_readsBack positive reads
  unfold ofDecimal
  rw [if_neg nonzero, if_neg (Int.not_lt_of_ge small), if_neg notTiny]
  rcases Int.lt_or_le exponent 0 with fraction | whole
  · rw [if_pos fraction]
    have within := within_of_readsBack_fraction fraction reads
    unfold ofRatio ofUnits
    rw [nearestRank_of_within within (Nat.pow_pos (by decide))]
  · rw [if_neg (Int.not_lt_of_ge whole)]
    have within := within_of_readsBack_whole whole reads
    unfold ofRatio ofUnits
    rw [nearestRank_of_within within Nat.one_pos]

/-! ### The search -/

theorem onGrid_readsBack (found : onGrid tie rank exponent = some digits) :
    readsBack rank digits exponent = true := by
  unfold onGrid at found
  dsimp only at found
  generalize 2 * unitsOfRank rank * (gridStep exponent).2 / (gridStep exponent).1 = below at found
  split at found
  · cases found
  next reads _ =>
    cases found
    exact reads
  next reads =>
    cases found
    exact reads
  next readsBelow readsAbove =>
    split at found
    · cases found
      exact readsBelow
    · split at found
      · cases found
        exact readsAbove
      · cases tie with
        | up =>
          cases found
          exact readsAbove
        | even =>
          cases found
          rcases Nat.mod_two_eq_zero_or_one below with even | odd
          · rw [even]
            exact readsBelow
          · rw [odd]
            exact readsAbove

theorem onGrid_ne_none
    (reads : readsBack rank (2 * unitsOfRank rank * (gridStep exponent).2 / (gridStep exponent).1)
      exponent = true) : onGrid tie rank exponent ≠ none := by
  intro none
  unfold onGrid at none
  dsimp only at none
  rw [reads] at none
  split at none
  next unread _ => cases unread
  · cases none
  next unread _ => cases unread
  · split at none
    · cases none
    · split at none
      · cases none
      · cases tie <;> cases none

theorem gridStep_pos (exponent : Int) : 0 < (gridStep exponent).1 ∧ 0 < (gridStep exponent).2 := by
  have power : 0 < Nat.pow 10 exponent.natAbs := Nat.pow_pos (by decide)
  have twice : 0 < 2 * one := Nat.mul_pos (by decide) one_pos
  rcases Int.lt_or_le exponent 0 with negative | whole
  · rw [gridStep_fraction negative]
    exact ⟨twice, power⟩
  · rw [gridStep_whole whole]
    exact ⟨Nat.mul_pos twice power, Nat.one_pos⟩

/-- A grid with the magnitude itself as a multiple holds a decimal that reads back. -/
theorem onGrid_ne_none_of_dvd (tie : TieRule) (rank : Nat)
    (multiple : (gridStep exponent).1 ∣ 2 * unitsOfRank rank * (gridStep exponent).2) :
    onGrid tie rank exponent ≠ none := by
  refine onGrid_ne_none ((readsBack_iff_within ?_).mpr
    (within_self rank (gridStep_pos exponent).2))
  rw [Nat.div_mul_cancel multiple, Nat.mul_assoc]

theorem onGrid_ne_none_of_one_dvd (tie : TieRule) (rank : Nat) (negative : exponent < 0)
    (divides : one ∣ Nat.pow 10 exponent.natAbs) : onGrid tie rank exponent ≠ none := by
  refine onGrid_ne_none_of_dvd tie rank ?_
  rw [gridStep_fraction negative]
  exact Nat.mul_dvd_mul (Nat.dvd_mul_right 2 (unitsOfRank rank)) divides

theorem onGrid_finest (tie : TieRule) (rank : Nat) : onGrid tie rank (-1074) ≠ none :=
  onGrid_ne_none_of_one_dvd tie rank (by decide) (by decide +kernel)

/-- The search comes to a decimal that reads back if it goes down to the finest grid. -/
theorem coarsestGrid_readsBack (tie : TieRule) (rank : Nat) :
    ∀ {steps : Nat} {exponent : Int}, 0 < steps → exponent = steps - 1075 →
      readsBack rank (coarsestGrid tie rank steps exponent).digits
        (coarsestGrid tie rank steps exponent).exponent = true ∧
      (coarsestGrid tie rank steps exponent).exponent ≤ exponent := by
  intro steps
  induction steps with
  | zero =>
    intro exponent enough
    exact absurd enough (Nat.lt_irrefl 0)
  | succ steps inductionHypothesis =>
    intro exponent _ start
    unfold coarsestGrid
    cases found : onGrid tie rank exponent with
    | some digits => exact ⟨onGrid_readsBack found, Int.le_refl _⟩
    | none =>
      have more : 0 < steps := by
        refine Nat.pos_of_ne_zero fun last => onGrid_finest tie rank ?_
        have finest : exponent = -1074 := by omega
        rw [← finest]
        exact found
      have next : exponent - 1 = steps - 1075 := by omega
      obtain ⟨reads, below⟩ := inductionHypothesis more next
      exact ⟨reads, Int.le_trans below (by omega)⟩

/-! ### The shortest decimal -/

theorem log2_unitsOfRank_lt {rank : Nat} (positive : 0 < rank) (finite : rank < rankLimit) :
    (unitsOfRank rank).log2 < 2099 := by
  have units := unitsOfRank_pos positive
  obtain ⟨shift, multiple, rfl, low, high⟩ := exists_scaled rank
  have shiftBound : shift < 2047 := by
    refine Nat.lt_of_mul_lt_mul_right (a := octave) ?_
    exact Nat.lt_of_le_of_lt (Nat.le_add_right _ multiple) finite
  rw [unitsOfRank_scaled low (Nat.le_of_lt high)] at units ⊢
  have bound : multiple * 2 ^ shift < 2 ^ (53 + shift) := by
    rw [Nat.pow_add]
    exact Nat.mul_lt_mul_of_pos_right high (Nat.two_pow_pos shift)
  have exponents := (Nat.log2_lt (Nat.ne_of_gt units)).mpr bound
  omega

/-- The shortest decimal of a magnitude reads back as it. -/
theorem shortest_readsBack (tie : TieRule) {rank : Nat} (positive : 0 < rank)
    (finite : rank < rankLimit) :
    readsBack rank (shortest tie rank).digits (shortest tie rank).exponent = true ∧
      (shortest tie rank).exponent ≤ 400 := by
  have size := log2_unitsOfRank_lt positive finite
  have first : -1074 ≤ firstGrid rank ∧ firstGrid rank ≤ 400 := by
    unfold firstGrid
    dsimp only
    split <;> omega
  have start : firstGrid rank = (firstGrid rank + 1075).toNat - 1075 := by omega
  have enough : 0 < (firstGrid rank + 1075).toNat := by omega
  obtain ⟨reads, below⟩ := coarsestGrid_readsBack tie rank enough start
  exact ⟨reads, Int.le_trans below first.2⟩

theorem ofDecimal_shortest (tie : TieRule) (negative : Bool) {rank : Nat} (positive : 0 < rank)
    (finite : rank < rankLimit) :
    ofDecimal negative (shortest tie rank).digits (shortest tie rank).exponent =
      ofRank negative rank := by
  obtain ⟨reads, small⟩ := shortest_readsBack tie positive finite
  exact ofDecimal_of_readsBack positive reads small negative

end Binary64

end Reckon
