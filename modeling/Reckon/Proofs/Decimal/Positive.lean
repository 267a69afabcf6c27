/-
This file shows that a decimal above zero is converted to a binary number above
zero. Whole part and fraction are converted apart, and every step after that
keeps the order of numbers; so a decimal with a fraction is converted to no less
than the least decimal of its scale, of which there are as many as scales.
-/

import Mathlib.Tactic.IntervalCases
import Reckon.Decimal
import Reckon.Proofs.Binary64.Monotony

namespace Reckon

open Binary64 (IsAtMost)

/-- A binary number above zero. -/
def Binary64.IsPositive (number : Binary64) : Prop :=
  Binary64.zero.less number = true

theorem Binary64.IsPositive.isZero {number : Binary64} (positive : number.IsPositive) :
    number.isZero = false := by
  cases number with
  | finite negative rank =>
    refine beq_eq_false_iff_ne.mpr fun none => ?_
    obtain rfl : rank = ⟨0, by decide⟩ := Fin.ext none
    cases negative <;> exact absurd (show _ = true from positive) (by decide +kernel)
  | _ => rfl

/-- A positive number that is finite has a rank above zero. -/
theorem Binary64.IsPositive.exists_rank {number : Binary64} (positive : number.IsPositive)
    (finite : number.isFinite = true) :
    ∃ rank : Fin rankLimit, number = .finite false rank ∧ rank.val ≠ 0 := by
  cases number with
  | notANumber | infinite => cases finite
  | finite negative rank =>
    have nonzero : rank.val ≠ 0 := beq_eq_false_iff_ne.mp positive.isZero
    cases negative with
    | false => exact ⟨rank, rfl, nonzero⟩
    | true =>
      have place : (0 : Int) < -(rank.val : Int) := of_decide_eq_true positive
      omega

namespace Decimal

/-- A decimal without a sign, of a scale that the format has. -/
structure IsPlain (decimal : Decimal) : Prop where
  unsigned : decimal.negative = false
  places : decimal.scale ≤ scaleLimit

/-! ### Powers of ten and the least decimals -/

/-- The powers of ten are positive and finite, and so is a part of one by each of them. -/
theorem positive_powers (scale : Nat) (places : scale ≤ scaleLimit) :
    ((Binary64.ofNat (Nat.pow 10 scale)).isFinite = true ∧
      Binary64.zero.less (.ofNat (Nat.pow 10 scale)) = true) ∧
    ((tenPower scale).isFinite = true ∧ Binary64.zero.less (tenPower scale) = true) ∧
    Binary64.zero.less ((Binary64.ofNat 1).divide (.ofNat (Nat.pow 10 scale))) = true ∧
    ((Binary64.ofNat 0).divide (.ofNat (Nat.pow 10 scale))).isZero = true := by
  -- Scale by scale, since all of them at once take the kernel much room.
  unfold scaleLimit at places
  interval_cases scale <;> decide +kernel

/-! ### All decimals -/

variable {coefficient scale : Nat}

theorem toBinary64_whole :
    toBinary64 ⟨false, coefficient, 0⟩ = .ofUnits false (coefficient * Binary64.one) 1 := by
  unfold toBinary64
  dsimp only
  rw [if_pos rfl, Bool.false_and, Binary64.ofRatio]

/-- The steps by which a decimal with a fraction is converted. -/
def convertParts (ten unit : Binary64) (whole rest : Nat) : Binary64 :=
  (((Binary64.ofNat whole).add ((Binary64.ofNat rest).divide ten)).multiply unit).roundHalfUp.divide
    unit

theorem toBinary64_fraction (fraction : scale ≠ 0) :
    toBinary64 ⟨false, coefficient, scale⟩ =
      if ((Binary64.ofNat (coefficient % Nat.pow 10 scale)).divide
        (.ofNat (Nat.pow 10 scale))).isZero then
        .ofNat (coefficient / Nat.pow 10 scale)
      else convertParts (.ofNat (Nat.pow 10 scale)) (tenPower scale)
        (coefficient / Nat.pow 10 scale) (coefficient % Nat.pow 10 scale) := by
  unfold toBinary64 convertParts
  dsimp only
  simp only [if_neg fraction, Bool.false_eq_true, reduceIte]

/-- Of greater parts more is made. -/
theorem isAtMost_convertParts {ten unit : Binary64}
    (finite : ten.isFinite = true) (positive : ten.IsPositive)
    (finite' : unit.isFinite = true) (positive' : unit.IsPositive) {whole whole' rest rest' : Nat}
    (wholes : whole ≤ whole') (rests : rest ≤ rest') :
    IsAtMost (convertParts ten unit whole rest) (convertParts ten unit whole' rest') := by
  obtain ⟨divisor, rfl, nonzero⟩ := positive.exists_rank finite
  obtain ⟨factor, rfl, nonzero'⟩ := positive'.exists_rank finite'
  have parts := (Binary64.isAtMost_ofNat rests).divide nonzero
  exact (((Binary64.isAtMost_ofNat wholes).add parts).multiply nonzero').roundHalfUp.divide nonzero'

/-- The least decimal of each scale that has a fraction is converted to a number above zero. -/
theorem convertParts_positive (scale : Nat) (places : scale ≤ scaleLimit) :
    Binary64.zero.less
      (convertParts (.ofNat (Nat.pow 10 scale)) (tenPower scale) 0 1) = true := by
  unfold scaleLimit at places
  interval_cases scale <;> decide +kernel

theorem isPositive_ofNat {number : Nat} (nonzero : number ≠ 0) :
    (Binary64.ofNat number).IsPositive :=
  Binary64.less_ofUnits Nat.one_pos (Nat.mul_pos (Nat.pos_of_ne_zero nonzero) Binary64.one_pos)

/-- A decimal above zero is converted to a binary number above zero. -/
theorem IsPlain.isPositive {decimal : Decimal} (plain : decimal.IsPlain)
    (nonzero : decimal.coefficient ≠ 0) : decimal.toBinary64.IsPositive := by
  obtain ⟨negative, coefficient, scale⟩ := decimal
  obtain ⟨rfl, places⟩ := plain
  have nonzero : coefficient ≠ 0 := nonzero
  by_cases fraction : scale = 0
  · subst fraction
    rw [toBinary64_whole]
    exact Binary64.less_ofUnits Nat.one_pos
      (Nat.mul_pos (Nat.pos_of_ne_zero nonzero) Binary64.one_pos)
  obtain ⟨⟨finite, positive⟩, ⟨finite', positive'⟩, part, noPart⟩ := positive_powers scale places
  rw [toBinary64_fraction fraction]
  by_cases whole : coefficient % Nat.pow 10 scale = 0
  · rw [whole, if_pos noPart]
    refine isPositive_ofNat fun none => nonzero ?_
    rw [← Nat.div_add_mod coefficient (Nat.pow 10 scale), none, whole]
    rfl
  · have rest : 1 ≤ coefficient % Nat.pow 10 scale := Nat.pos_of_ne_zero whole
    have least := convertParts_positive scale places
    generalize Binary64.ofNat (Nat.pow 10 scale) = ten at finite positive part least ⊢
    have parts : IsAtMost ((Binary64.ofNat 1).divide ten)
        ((Binary64.ofNat (coefficient % Nat.pow 10 scale)).divide ten) := by
      obtain ⟨divisor, rfl, divides⟩ := Binary64.IsPositive.exists_rank positive finite
      exact (Binary64.isAtMost_ofNat rest).divide divides
    rw [Binary64.IsPositive.isZero (parts.less part), if_neg Bool.false_ne_true]
    exact (isAtMost_convertParts finite positive finite' positive' (Nat.zero_le _) rest).less least

/-- A decimal of zero is converted to zero. -/
theorem IsPlain.toBinary64_eq_zero {decimal : Decimal} (plain : decimal.IsPlain)
    (zero : decimal.coefficient = 0) : decimal.toBinary64 = .zero := by
  obtain ⟨negative, coefficient, scale⟩ := decimal
  obtain ⟨rfl, places⟩ := plain
  obtain rfl : coefficient = 0 := zero
  have none : Binary64.ofNat 0 = .zero := by decide +kernel
  by_cases fraction : scale = 0
  · subst fraction
    rw [toBinary64_whole]
    exact none
  · rw [toBinary64_fraction fraction, Nat.zero_mod, if_pos (positive_powers scale places).2.2.2,
      Nat.zero_div]
    exact none

end Decimal

end Reckon
