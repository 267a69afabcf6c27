/-
This file shows that rounding finds the nearest rank. Around the magnitude of
each rank lies the interval that ends midway to its two neighbours, with the
ends if the rank is even. These intervals have no point in common, and a
quotient lies in the interval of the rank that it is rounded to. So a quotient
in the interval of a rank is rounded to that rank.

Within an octave the magnitudes are the multiples of one power of two; where
two octaves meet, the multiple before the lower end lies half as far away.
-/

import Mathlib.Algebra.Group.Nat.Defs
import Reckon.Binary64

namespace Reckon

/-! ### Rounding to a natural number -/

/-- A natural number is at most half away from a quotient that is rounded to it, and less than
half if it is odd. -/
theorem halfEven_bounds (numerator : Nat) {denominator : Nat} (positive : 0 < denominator) :
    let rounded := halfEven numerator denominator
    2 * (rounded * denominator) ≤ 2 * numerator + denominator ∧
      2 * numerator ≤ 2 * (rounded * denominator) + denominator ∧
      (rounded % 2 = 1 → 2 * (rounded * denominator) < 2 * numerator + denominator ∧
        2 * numerator < 2 * (rounded * denominator) + denominator) := by
  have whole := Nat.div_add_mod numerator denominator
  have rest := Nat.mod_lt numerator positive
  rw [Nat.mul_comm] at whole
  unfold halfEven
  dsimp only
  generalize numerator / denominator = floor at *
  generalize numerator % denominator = remainder at *
  split
  · omega
  · rw [Nat.add_mul, Nat.one_mul]
    omega

theorem le_halfEven {numerator denominator bound : Nat} (positive : 0 < denominator)
    (above : bound * denominator ≤ numerator) : bound ≤ halfEven numerator denominator := by
  have floor : bound ≤ numerator / denominator := (Nat.le_div_iff_mul_le positive).mpr above
  unfold halfEven
  dsimp only
  split <;> omega

theorem halfEven_le {numerator denominator bound : Nat}
    (below : numerator < bound * denominator) : halfEven numerator denominator ≤ bound := by
  have floor : numerator / denominator < bound := Nat.div_lt_of_lt_mul (Nat.mul_comm .. ▸ below)
  unfold halfEven
  dsimp only
  split <;> omega

namespace Binary64

/-! ### Magnitudes within an octave -/

theorem octave_pos : 0 < octave := by decide

theorem octave_even : octave % 2 = 0 := by decide

/-- The ranks of an octave, its upper end included, have the multiples of a power of two as
magnitudes. In the first octave there are multiples below its lower end too. -/
theorem unitsOfRank_scaled {shift multiple : Nat} (low : shift = 0 ∨ octave ≤ multiple)
    (high : multiple ≤ 2 * octave) :
    unitsOfRank (shift * octave + multiple) = multiple * 2 ^ shift := by
  have positive := octave_pos
  unfold unitsOfRank
  by_cases small : multiple < octave
  · obtain rfl : shift = 0 := low.resolve_right (Nat.not_le_of_lt small)
    rw [Nat.zero_mul, Nat.zero_add, if_pos small, Nat.pow_zero, Nat.mul_one]
  · rw [if_neg (by omega)]
    rcases Nat.lt_or_ge multiple (2 * octave) with inside | atEnd
    · have parts : shift * octave + multiple = multiple - octave + (shift + 1) * octave := by
        rw [Nat.add_mul]
        omega
      rw [parts, Nat.add_mul_div_right _ _ positive, Nat.add_mul_mod_self_right,
        Nat.mod_eq_of_lt (by omega), Nat.div_eq_of_lt (by omega), Nat.shiftLeft_eq,
        show octave + (multiple - octave) = multiple by omega,
        show 0 + (shift + 1) - 1 = shift by omega]
    · have parts : shift * octave + multiple = 0 + (shift + 2) * octave := by
        rw [Nat.add_mul]
        omega
      rw [parts, Nat.add_mul_div_right _ _ positive, Nat.add_mul_mod_self_right, Nat.zero_mod,
        Nat.zero_div, Nat.shiftLeft_eq, Nat.add_zero,
        show 0 + (shift + 2) - 1 = shift + 1 by omega, Nat.pow_succ,
        show multiple = 2 * octave by omega, Nat.mul_comm (2 ^ shift), ← Nat.mul_assoc,
        Nat.mul_comm octave]

/-- Each rank has a place in an octave, below its upper end. -/
theorem exists_scaled (rank : Nat) :
    ∃ shift multiple, rank = shift * octave + multiple ∧ (shift = 0 ∨ octave ≤ multiple) ∧
      multiple < 2 * octave := by
  have parts := Nat.div_add_mod rank octave
  have inside := Nat.mod_lt rank octave_pos
  rw [Nat.mul_comm] at parts
  cases octaves : rank / octave with
  | zero =>
    rw [octaves] at parts
    exact ⟨0, rank, by omega, .inl rfl, by omega⟩
  | succ shift =>
    rw [octaves, Nat.add_mul] at parts
    exact ⟨shift, octave + rank % octave, by omega, .inr (by omega), by omega⟩

theorem unitsOfRank_lt_succ (rank : Nat) : unitsOfRank rank < unitsOfRank (rank + 1) := by
  obtain ⟨shift, multiple, rfl, low, high⟩ := exists_scaled rank
  rw [unitsOfRank_scaled low (by omega), Nat.add_assoc,
    unitsOfRank_scaled (low.imp id (by omega)) (by omega)]
  exact Nat.mul_lt_mul_of_pos_right (Nat.lt_succ_self _) (Nat.two_pow_pos shift)

theorem unitsOfRank_mono {first second : Nat} (le : first ≤ second) :
    unitsOfRank first ≤ unitsOfRank second := by
  induction le with
  | refl => exact Nat.le_refl _
  | step _ inductionHypothesis =>
    exact Nat.le_trans inductionHypothesis (Nat.le_of_lt (unitsOfRank_lt_succ _))

theorem unitsOfRank_lt {first second : Nat} (lt : first < second) :
    unitsOfRank first < unitsOfRank second :=
  Nat.lt_of_lt_of_le (unitsOfRank_lt_succ first) (unitsOfRank_mono lt)

/-! ### The interval of a rank -/

/-- A quotient of units lies in the interval of a rank. -/
def Within (rank numerator denominator : Nat) : Prop :=
  let lower := (unitsOfRank (rank - 1) + unitsOfRank rank) * denominator
  let upper := (unitsOfRank rank + unitsOfRank (rank + 1)) * denominator
  lower ≤ 2 * numerator ∧ 2 * numerator ≤ upper ∧
    (rank % 2 = 1 → lower < 2 * numerator ∧ 2 * numerator < upper)

/-- A quotient in the interval of a rank is not in that of a greater one. -/
theorem Within.le {numerator denominator rank other : Nat}
    (within : Within rank numerator denominator)
    (within' : Within other numerator denominator) (positive : 0 < denominator) :
    other ≤ rank := by
  refine Nat.le_of_not_lt fun greater => ?_
  obtain ⟨-, upper, odd⟩ := within
  obtain ⟨lower, -, odd'⟩ := within'
  have first : unitsOfRank rank ≤ unitsOfRank (other - 1) := unitsOfRank_mono (by omega)
  have second : unitsOfRank (rank + 1) ≤ unitsOfRank other := unitsOfRank_mono greater
  -- The intervals of two ranks meet only if the ranks are neighbours, and then one is odd.
  have ends := Nat.mul_le_mul_right denominator (Nat.add_le_add first second)
  rcases Nat.lt_or_ge (rank + 1) other with apart | next
  · have strictly := Nat.mul_lt_mul_of_pos_right
      (Nat.add_lt_add_of_le_of_lt first (unitsOfRank_lt apart)) positive
    omega
  · obtain rfl : other = rank + 1 := by omega
    rcases Nat.mod_two_eq_zero_or_one rank with even | isOdd
    · have := (odd' (by omega)).1
      omega
    · have := (odd isOdd).2
      omega

theorem Within.unique {numerator denominator rank other : Nat}
    (within : Within rank numerator denominator) (within' : Within other numerator denominator)
    (positive : 0 < denominator) : rank = other :=
  Nat.le_antisymm (within'.le within positive) (within.le within' positive)

section

variable {numerator denominator shift multiple : Nat}

theorem unitsOfRank_scaled_mul (low : shift = 0 ∨ octave ≤ multiple)
    (high : multiple ≤ 2 * octave) (denominator : Nat) :
    unitsOfRank (shift * octave + multiple) * denominator =
      multiple * (denominator * 2 ^ shift) := by
  rw [unitsOfRank_scaled low high, Nat.mul_assoc, Nat.mul_comm (2 ^ shift)]

/-- A quotient that is rounded to a multiple does not lie above the interval of its rank. At the
upper end of an octave the quotient is not above the multiple itself. -/
theorem not_above_scaled (positive : 0 < denominator) (low : shift = 0 ∨ octave ≤ multiple)
    (high : multiple ≤ 2 * octave)
    (below : numerator < 2 * octave * (denominator * 2 ^ shift))
    (near : 2 * numerator ≤ 2 * (multiple * (denominator * 2 ^ shift)) + denominator * 2 ^ shift)
    (odd : multiple % 2 = 1 →
      2 * numerator < 2 * (multiple * (denominator * 2 ^ shift)) + denominator * 2 ^ shift) :
    let upper := (unitsOfRank (shift * octave + multiple) +
      unitsOfRank (shift * octave + multiple + 1)) * denominator
    2 * numerator ≤ upper ∧ (multiple % 2 = 1 → 2 * numerator < upper) := by
  have here := unitsOfRank_scaled_mul low high denominator
  dsimp only
  rw [Nat.add_mul, here]
  rcases Nat.lt_or_ge multiple (2 * octave) with inside | atEnd
  · have next := unitsOfRank_scaled_mul (low.imp id Nat.le_succ_of_le) inside
      denominator
    rw [Nat.succ_mul] at next
    rw [Nat.add_assoc, next]
    omega
  · obtain rfl : multiple = 2 * octave := Nat.le_antisymm high atEnd
    have next := Nat.mul_lt_mul_of_pos_right (unitsOfRank_lt_succ (shift * octave + 2 * octave))
      positive
    omega

/-- A quotient that is rounded to a multiple does not lie below the interval of its rank. At the
lower end of an octave the quotient is not below the multiple itself. -/
theorem not_below_scaled (low : shift = 0 ∨ octave ≤ multiple) (high : multiple ≤ 2 * octave)
    (above : shift = 0 ∨ octave * (denominator * 2 ^ shift) ≤ numerator)
    (near : 2 * (multiple * (denominator * 2 ^ shift)) ≤ 2 * numerator + denominator * 2 ^ shift)
    (odd : multiple % 2 = 1 →
      2 * (multiple * (denominator * 2 ^ shift)) < 2 * numerator + denominator * 2 ^ shift) :
    let lower := (unitsOfRank (shift * octave + multiple - 1) +
      unitsOfRank (shift * octave + multiple)) * denominator
    lower ≤ 2 * numerator ∧ (multiple % 2 = 1 → lower < 2 * numerator) := by
  have here := unitsOfRank_scaled_mul low high denominator
  dsimp only
  rw [Nat.add_mul, here]
  have place : (∃ smaller, multiple = smaller + 1 ∧ (shift = 0 ∨ octave ≤ smaller)) ∨
      (shift = 0 ∧ multiple = 0) ∨ (0 < shift ∧ multiple = octave) := by
    rcases multiple with _ | smaller
    · omega
    · by_cases inside : shift = 0 ∨ octave ≤ smaller
      · exact .inl ⟨smaller, rfl, inside⟩
      · omega
  rcases place with ⟨smaller, rfl, inside⟩ | ⟨rfl, rfl⟩ | ⟨shifted, rfl⟩
  · have before := unitsOfRank_scaled_mul inside (Nat.le_of_succ_le high) denominator
    rw [Nat.succ_mul smaller] at near odd ⊢
    rw [show shift * octave + (smaller + 1) - 1 = shift * octave + smaller by omega, before]
    omega
  · have before : unitsOfRank (0 * octave + 0 - 1) = 0 := rfl
    rw [before]
    omega
  · have before := Nat.mul_le_mul_right denominator
      (unitsOfRank_mono (Nat.sub_le (shift * octave + octave) 1))
    have even := octave_even
    omega

/-- The nearest multiple of a power of two is the magnitude of the nearest rank, if a quotient
lies in the octave with these multiples. -/
theorem within_scaled (positive : 0 < denominator)
    (above : shift = 0 ∨ octave * (denominator * 2 ^ shift) ≤ numerator)
    (below : numerator < 2 * octave * (denominator * 2 ^ shift)) :
    Within (shift * octave + halfEven numerator (denominator * 2 ^ shift)) numerator
      denominator := by
  have stepPositive : 0 < denominator * 2 ^ shift :=
    Nat.mul_pos positive (Nat.two_pow_pos shift)
  obtain ⟨nearBelow, nearAbove, odd⟩ := halfEven_bounds numerator stepPositive
  have high := halfEven_le below
  have low := above.imp id (le_halfEven stepPositive)
  generalize halfEven numerator (denominator * 2 ^ shift) = multiple at *
  have parity : (shift * octave + multiple) % 2 = multiple % 2 := by
    rw [Nat.add_mod, Nat.mul_mod, octave_even, Nat.mul_zero, Nat.zero_mod, Nat.zero_add,
      Nat.mod_mod]
  have lower := not_below_scaled low high above nearBelow fun isOdd => (odd isOdd).1
  have upper := not_above_scaled positive low high below nearAbove fun isOdd => (odd isOdd).2
  refine ⟨lower.1, upper.1, fun isOdd => ?_⟩
  rw [parity] at isOdd
  exact ⟨lower.2 isOdd, upper.2 isOdd⟩

/-- A quotient lies in the interval of the rank it is rounded to. -/
theorem within_nearestRank (numerator : Nat) (positive : 0 < denominator) :
    Within (nearestRank numerator denominator) numerator denominator := by
  unfold nearestRank
  dsimp only
  rw [Nat.shiftLeft_eq]
  have power : ∀ shift, 2 ^ (shift + 52) = octave * 2 ^ shift := fun shift => by
    rw [Nat.pow_add, Nat.mul_comm]
    rfl
  have step : ∀ shift, octave * (denominator * 2 ^ shift) = octave * 2 ^ shift * denominator :=
    fun shift => by rw [Nat.mul_comm denominator, Nat.mul_assoc]
  refine within_scaled positive ?_ ?_
  · rcases Nat.lt_or_ge 52 (numerator / denominator).log2 with large | small
    · refine .inr ?_
      have nonzero : numerator / denominator ≠ 0 := fun zero => by
        rw [zero, Nat.log2_zero] at large
        exact absurd large (by decide)
      have leading := Nat.log2_self_le nonzero
      rw [← Nat.sub_add_cancel (Nat.le_of_lt large), power] at leading
      rw [step]
      exact (Nat.le_div_iff_mul_le positive).mp leading
    · exact .inl (Nat.sub_eq_zero_of_le small)
  · have trailing : numerator / denominator <
        2 * (octave * 2 ^ ((numerator / denominator).log2 - 52)) := by
      rw [← power, Nat.mul_comm, ← Nat.pow_succ]
      exact Nat.lt_of_lt_of_le Nat.lt_log2_self (Nat.pow_le_pow_right (by decide) (by omega))
    rw [Nat.mul_assoc, step, ← Nat.mul_assoc]
    exact (Nat.div_lt_iff_lt_mul positive).mp trailing

/-- A quotient in the interval of a rank is rounded to it. -/
theorem nearestRank_of_within {rank : Nat} (within : Within rank numerator denominator)
    (positive : 0 < denominator) : nearestRank numerator denominator = rank :=
  (within_nearestRank numerator positive).unique within positive

/-- The magnitude of a rank lies strictly inside its interval. -/
theorem within_self (rank : Nat) (positive : 0 < denominator) :
    Within rank (unitsOfRank rank * denominator) denominator := by
  have below := Nat.mul_le_mul_right denominator (unitsOfRank_mono (Nat.sub_le rank 1))
  have above := Nat.mul_lt_mul_of_pos_right (unitsOfRank_lt_succ rank) positive
  unfold Within
  dsimp only
  rw [Nat.add_mul, Nat.add_mul]
  refine ⟨by omega, by omega, fun isOdd => ?_⟩
  have strictly := Nat.mul_lt_mul_of_pos_right
    (unitsOfRank_lt (show rank - 1 < rank by omega)) positive
  omega

end

end Binary64

end Reckon
