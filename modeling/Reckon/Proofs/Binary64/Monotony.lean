/-
This file shows that the operations of the format keep the order of numbers
without a sign: of greater operands the result is not less, be it finite or
infinite. Each operation rounds an exact result once, and rounding keeps the
order of the ranks.
-/

import Reckon.Proofs.Binary64.Literal
import Reckon.Proofs.Binary64.Values

namespace Reckon

theorem halfUp_mono {numerator numerator' : Nat} (le : numerator ≤ numerator')
    (denominator : Nat) : halfUp numerator denominator ≤ halfUp numerator' denominator :=
  Nat.div_le_div_right (Nat.add_le_add_right (Nat.mul_le_mul_left 2 le) denominator)

namespace Binary64

/-! ### The order of numbers without a sign -/

/-- Two numbers without a sign, the first of a rank that is at most that of the second. Infinity
has every rank beyond the finite ones. -/
def IsAtMost (least number : Binary64) : Prop :=
  ∃ rank rank', rank ≤ rank' ∧ least = ofRank false rank ∧ number = ofRank false rank'

variable {least number least' number' : Binary64} {numerator numerator' denominator : Nat}

theorem ofRank_of_ge (negative : Bool) {rank : Nat} (large : rankLimit ≤ rank) :
    ofRank negative rank = .infinite negative :=
  dif_neg (Nat.not_lt_of_ge large)

theorem isAtMost_infinite (rank : Nat) : IsAtMost (ofRank false rank) (.infinite false) :=
  ⟨rank, max rank rankLimit, Nat.le_max_left _ _, rfl,
    (ofRank_of_ge false (Nat.le_max_right _ _)).symm⟩

/-- The second number is infinite, or both are finite. -/
theorem IsAtMost.infinite_or_finite (atMost : IsAtMost least number) :
    number = .infinite false ∧ (∃ rank, least = ofRank false rank) ∨
      ∃ rank rank' : Fin rankLimit, rank.val ≤ rank'.val ∧ least = .finite false rank ∧
        number = .finite false rank' := by
  obtain ⟨rank, rank', le, rfl, rfl⟩ := atMost
  by_cases finite : rank' < rankLimit
  · have finite' : rank < rankLimit := Nat.lt_of_le_of_lt le finite
    exact .inr ⟨⟨rank, finite'⟩, ⟨rank', finite⟩, le, ofRank_val false ⟨rank, finite'⟩,
      ofRank_val false ⟨rank', finite⟩⟩
  · exact .inl ⟨ofRank_of_ge false (Nat.le_of_not_lt finite), rank, rfl⟩

theorem ofRank_cases (rank : Nat) :
    ofRank false rank = .infinite false ∨ ∃ finite, ofRank false rank = .finite false finite := by
  unfold ofRank
  split
  · exact .inr ⟨_, rfl⟩
  · exact .inl rfl

theorem isAtMost_ofUnits (positive : 0 < denominator) (le : numerator ≤ numerator') :
    IsAtMost (ofUnits false numerator denominator) (ofUnits false numerator' denominator) :=
  ⟨_, _, nearestRank_mono positive positive (Nat.mul_le_mul_right denominator le), rfl, rfl⟩

/-- A number that is at least a positive one is positive. -/
theorem IsAtMost.less (atMost : IsAtMost least number) (positive : zero.less least = true) :
    zero.less number = true := by
  rcases atMost.infinite_or_finite with ⟨rfl, -⟩ | ⟨rank, rank', le, rfl, rfl⟩
  · decide +kernel
  · have place : (0 : Int) < (rank.val : Int) := of_decide_eq_true positive
    exact decide_eq_true (by omega : (0 : Int) < (rank'.val : Int))

/-- What is at least one unit is rounded to a positive number. -/
theorem less_ofUnits (positive : 0 < denominator) (large : denominator ≤ numerator) :
    zero.less (ofUnits false numerator denominator) = true := by
  have atMost : IsAtMost (ofUnits false denominator denominator)
      (ofUnits false numerator denominator) := isAtMost_ofUnits positive large
  refine atMost.less ?_
  have unit : nearestRank denominator denominator = 1 := by
    have rounded := nearestRank_unitsOfRank 1 positive
    rwa [show unitsOfRank 1 = 1 from rfl, Nat.one_mul] at rounded
  unfold ofUnits
  rw [unit]
  decide +kernel

/-! ### The operations -/

theorem isAtMost_ofNat {first second : Nat} (le : first ≤ second) :
    IsAtMost (ofNat first) (ofNat second) :=
  isAtMost_ofUnits Nat.one_pos (Nat.mul_le_mul_right one le)

theorem add_finite (rank rank' : Fin rankLimit) :
    Binary64.add (.finite false rank) (.finite false rank') =
      ofUnits false (unitsOfRank rank + unitsOfRank rank') 1 := by
  show (if ((unitsOfRank rank : Int) + unitsOfRank rank') = 0 then ofRank (false && false) 0
    else ofUnits (decide ((unitsOfRank rank : Int) + unitsOfRank rank' < 0))
      ((unitsOfRank rank : Int) + unitsOfRank rank').natAbs 1) = _
  rw [← Int.natCast_add, Int.natAbs_natCast, decide_eq_false (by omega)]
  split
  next none =>
    rw [Int.natCast_eq_zero.mp none]
    rfl
  next => rfl

theorem exists_add_eq (rank rank' : Nat) :
    ∃ sum, (ofRank false rank).add (ofRank false rank') = ofRank false sum := by
  have infinite : ofRank false rankLimit = .infinite false := ofRank_of_ge false le_rfl
  rcases ofRank_cases rank with same | ⟨finite, same⟩ <;>
    rcases ofRank_cases rank' with same' | ⟨finite', same'⟩ <;> rw [same, same']
  · exact ⟨_, infinite.symm⟩
  · exact ⟨_, infinite.symm⟩
  · exact ⟨_, infinite.symm⟩
  · exact ⟨_, add_finite finite finite'⟩

theorem IsAtMost.add (first : IsAtMost least number) (second : IsAtMost least' number') :
    IsAtMost (least.add least') (number.add number') := by
  have beyond : IsAtMost (least.add least') (.infinite false) := by
    obtain ⟨rank, -, -, rfl, -⟩ := first
    obtain ⟨rank', -, -, rfl, -⟩ := second
    obtain ⟨sum, same⟩ := exists_add_eq rank rank'
    rw [same]
    exact isAtMost_infinite sum
  rcases first.infinite_or_finite with ⟨rfl, -⟩ | ⟨low, high, le, rfl, rfl⟩
  · rcases second.infinite_or_finite with ⟨rfl, -⟩ | ⟨low', high', -, -, rfl⟩
    · exact beyond
    · exact beyond
  · rcases second.infinite_or_finite with ⟨rfl, -⟩ | ⟨low', high', le', rfl, rfl⟩
    · exact beyond
    · rw [add_finite, add_finite]
      exact isAtMost_ofUnits Nat.one_pos
        (Nat.add_le_add (unitsOfRank_mono le) (unitsOfRank_mono le'))

/-- An operation that rounds a number of units which grows with the rank, and that leaves infinity
alone, keeps the order. -/
theorem IsAtMost.map (atMost : IsAtMost least number) (operation : Binary64 → Binary64)
    (units : Nat → Nat) (positive : 0 < denominator)
    (infinite : operation (.infinite false) = .infinite false)
    (finite : ∀ rank : Fin rankLimit,
      operation (.finite false rank) = ofUnits false (units rank) denominator)
    (mono : ∀ {rank rank' : Nat}, rank ≤ rank' → units rank ≤ units rank') :
    IsAtMost (operation least) (operation number) := by
  rcases atMost.infinite_or_finite with ⟨rfl, rank, rfl⟩ | ⟨low, high, le, rfl, rfl⟩
  · rw [infinite]
    rcases ofRank_cases rank with same | ⟨rank', same⟩
    · rw [same, infinite, ← ofRank_of_ge false le_rfl]
      exact ⟨_, _, le_rfl, rfl, rfl⟩
    · rw [same, finite]
      exact isAtMost_infinite _
  · rw [finite, finite]
    exact isAtMost_ofUnits positive (mono le)

theorem multiply_finite (rank rank' : Fin rankLimit) :
    Binary64.multiply (.finite false rank) (.finite false rank') =
      ofUnits false (unitsOfRank rank * unitsOfRank rank') one := rfl

theorem divide_finite (rank : Fin rankLimit) {rank' : Fin rankLimit} (nonzero : rank'.val ≠ 0) :
    Binary64.divide (.finite false rank) (.finite false rank') =
      ofUnits false (unitsOfRank rank * one) (unitsOfRank rank') :=
  if_neg (by rwa [isZero, beq_iff_eq])

theorem IsAtMost.multiply (atMost : IsAtMost least number) {factor : Fin rankLimit}
    (nonzero : factor.val ≠ 0) :
    IsAtMost (least.multiply (.finite false factor)) (number.multiply (.finite false factor)) :=
  atMost.map (·.multiply (.finite false factor)) (unitsOfRank · * unitsOfRank factor) one_pos
    (if_neg (by rwa [isZero, beq_iff_eq])) (multiply_finite · factor)
    fun le => Nat.mul_le_mul_right _ (unitsOfRank_mono le)

theorem IsAtMost.divide (atMost : IsAtMost least number) {divisor : Fin rankLimit}
    (nonzero : divisor.val ≠ 0) :
    IsAtMost (least.divide (.finite false divisor)) (number.divide (.finite false divisor)) :=
  atMost.map (·.divide (.finite false divisor)) (unitsOfRank · * one)
    (unitsOfRank_pos (Nat.pos_of_ne_zero nonzero)) rfl (divide_finite · nonzero)
    fun le => Nat.mul_le_mul_right one (unitsOfRank_mono le)

theorem IsAtMost.roundHalfUp (atMost : IsAtMost least number) :
    IsAtMost least.roundHalfUp number.roundHalfUp :=
  atMost.map Binary64.roundHalfUp (fun rank => halfUp (unitsOfRank rank) one * one) Nat.one_pos rfl
    (fun _ => rfl) fun le => Nat.mul_le_mul_right one (halfUp_mono (unitsOfRank_mono le) one)

end Binary64

end Reckon
