/-
This file says which sums and products of decimals without a sign are rounded to
zero. A result is brought within the greatest scale by one rounding, and is zero
if it is at most half of the last place; where further places are dropped, since
the coefficient is too large, digits enough are left. A sum has no place to drop
unless its coefficient is too large, so it is zero only if both terms are.
-/

import Reckon.Proofs.Decimal.Positive

namespace Reckon

theorem halfEven_eq_zero_iff {numerator denominator : Nat} (positive : 0 < denominator) :
    halfEven numerator denominator = 0 ↔ 2 * numerator ≤ denominator := by
  constructor
  · intro zero
    have bound := (halfEven_bounds numerator positive).2.1
    rwa [zero, Nat.zero_mul, Nat.mul_zero, Nat.zero_add] at bound
  · intro small
    have below : numerator < denominator := by omega
    unfold halfEven
    rw [Nat.div_eq_of_lt below, Nat.mod_eq_of_lt below]
    exact if_pos (by omega)

theorem halfEven_one (number : Nat) : halfEven number 1 = number := by
  unfold halfEven
  rw [Nat.mod_one, Nat.div_one]
  rfl

namespace Decimal

/-! ### Coefficients brought within the format -/

variable {coefficient scale : Nat}

theorem pow_ten_pos (places : Nat) : 0 < Nat.pow 10 places := Nat.pow_pos (by decide)

theorem fitFrom_eq (tries dropped coefficient scale : Nat) :
    fitFrom tries dropped coefficient scale =
      if scale < dropped then none
      else if halfEven coefficient (Nat.pow 10 dropped) < coefficientLimit then
        some (halfEven coefficient (Nat.pow 10 dropped), scale - dropped)
      else match tries with
        | 0 => none
        | tries + 1 => fitFrom tries (dropped + 1) coefficient scale := by
  have rounded : (if dropped = 0 then coefficient
      else halfEven coefficient (Nat.pow 10 dropped)) =
        halfEven coefficient (Nat.pow 10 dropped) := by
    split
    next none =>
      rw [none]
      exact (halfEven_one coefficient).symm
    next => rfl
  cases tries <;> rw [fitFrom, rounded]

/-- A coefficient that is too large after places were dropped is more than half of the next
place. -/
theorem pow_succ_lt_of_large {dropped : Nat}
    (large : ¬ halfEven coefficient (Nat.pow 10 dropped) < coefficientLimit) :
    Nat.pow 10 (dropped + 1) < 2 * coefficient := by
  have bound := (halfEven_bounds coefficient (pow_ten_pos dropped)).1
  have product := Nat.mul_le_mul_right (Nat.pow 10 dropped) (Nat.le_of_not_lt large)
  have positive := pow_ten_pos dropped
  have next : Nat.pow 10 (dropped + 1) = Nat.pow 10 dropped * 10 := rfl
  have limit : coefficientLimit = 79228162514264337593543950336 := by decide +kernel
  rw [limit] at product
  omega

/-- A coefficient is rounded once. More places than need be are dropped only from one that stays
above zero. -/
theorem fitFrom_spec {tries dropped : Nat} {digits : Nat × Nat}
    (fits : fitFrom tries dropped coefficient scale = some digits) :
    ∃ places, dropped ≤ places ∧ (places = dropped ∨ Nat.pow 10 places < 2 * coefficient) ∧
      digits = (halfEven coefficient (Nat.pow 10 places), scale - places) := by
  induction tries generalizing dropped with
  | zero =>
    rw [fitFrom_eq] at fits
    split at fits
    · cases fits
    · split at fits <;> cases fits
      exact ⟨dropped, le_rfl, .inl rfl, rfl⟩
  | succ tries inductionHypothesis =>
    rw [fitFrom_eq] at fits
    split at fits
    · cases fits
    · split at fits
      next =>
        cases fits
        exact ⟨dropped, le_rfl, .inl rfl, rfl⟩
      next tooLarge =>
        obtain ⟨places, more, above, same⟩ := inductionHypothesis fits
        refine ⟨places, Nat.le_of_succ_le more, .inr ?_, same⟩
        rcases above with rfl | above
        · exact pow_succ_lt_of_large tooLarge
        · exact above

/-- A coefficient is rounded to zero if it is at most half of the last place. -/
theorem fit_eq_zero_iff (coefficient scale : Nat) :
    (∃ places, fit coefficient scale = some (0, places)) ↔
      2 * coefficient ≤ Nat.pow 10 (scale - scaleLimit) := by
  constructor
  · rintro ⟨left, fits⟩
    obtain ⟨places, -, above, same⟩ := fitFrom_spec fits
    have zero := (halfEven_eq_zero_iff (pow_ten_pos places)).mp (congrArg Prod.fst same).symm
    rcases above with rfl | above
    · exact zero
    · exact absurd zero (Nat.not_le_of_gt above)
  · intro small
    have zero := (halfEven_eq_zero_iff (pow_ten_pos _)).mpr small
    refine ⟨scale - (scale - scaleLimit), ?_⟩
    unfold fit
    rw [fitFrom_eq, zero, if_neg (by omega), if_pos (by decide)]

theorem fit_places {digits : Nat × Nat} (fits : fit coefficient scale = some digits) :
    digits.2 ≤ scaleLimit := by
  obtain ⟨places, dropped, -, rfl⟩ := fitFrom_spec fits
  show scale - places ≤ scaleLimit
  omega

/-! ### Digits dropped at the end -/

/-- A coefficient and its scale before and after digits are dropped at the end: a number above
zero stays so. -/
structure Trims (before after : Nat × Nat) : Prop where
  zero_iff : after.1 = 0 ↔ before.1 = 0
  places : after.2 ≤ before.2

namespace Trims

theorem refl (digits : Nat × Nat) : Trims digits digits := ⟨Iff.rfl, le_rfl⟩

theorem trans {first second third : Nat × Nat} (earlier : Trims first second)
    (later : Trims second third) : Trims first third :=
  ⟨later.zero_iff.trans earlier.zero_iff, later.places.trans earlier.places⟩

end Trims

/-! ### Values -/

/-- The value of a decimal. -/
def value (decimal : Decimal) : ℚ :=
  Binary64.signed decimal.negative (decimal.coefficient / 10 ^ decimal.scale)

/-- Half of the last place that a decimal can have. -/
def halfPlace : ℚ := 1 / (2 * 10 ^ scaleLimit)

theorem halfPlace_pos : 0 < halfPlace := by
  unfold halfPlace
  positivity

/-- A result is a decimal, and that is zero. -/
def Vanishes (result : Option Decimal) : Prop :=
  ∃ decimal, result = some decimal ∧ decimal.coefficient = 0

theorem IsPlain.value_eq {decimal : Decimal} (plain : decimal.IsPlain) :
    decimal.value = decimal.coefficient / 10 ^ decimal.scale := by
  unfold value
  rw [plain.unsigned]
  rfl

theorem IsPlain.value_eq_zero_iff {decimal : Decimal} (plain : decimal.IsPlain) :
    decimal.value = 0 ↔ decimal.coefficient = 0 := by
  rw [plain.value_eq, div_eq_zero_iff, or_iff_left (by positivity), Nat.cast_eq_zero]

theorem div_le_halfPlace_iff {numerator denominator : Nat} (positive : 0 < denominator) :
    (numerator : ℚ) / denominator ≤ halfPlace ↔
      2 * numerator * 10 ^ scaleLimit ≤ denominator := by
  unfold halfPlace
  rw [div_le_div_iff₀ (Nat.cast_pos.mpr positive) (by positivity), one_mul, mul_left_comm,
    ← mul_assoc]
  exact_mod_cast Iff.rfl

theorem not_vanishes_none : ¬ Vanishes none := by
  rintro ⟨decimal, same, -⟩
  cases same

theorem vanishes_some {decimal : Decimal} : Vanishes (some decimal) ↔ decimal.coefficient = 0 :=
  ⟨fun ⟨_, same, zero⟩ => Option.some.inj same ▸ zero, fun zero => ⟨decimal, rfl, zero⟩⟩

/-- Below the greatest scale only zero is at most half of the last place. -/
theorem twice_le_pow_iff (coefficient scale : Nat) :
    2 * coefficient ≤ Nat.pow 10 (scale - scaleLimit) ↔
      2 * coefficient * 10 ^ scaleLimit ≤ Nat.pow 10 scale := by
  rcases Nat.le_total scaleLimit scale with beyond | within
  · have split : Nat.pow 10 scale = Nat.pow 10 (scale - scaleLimit) * 10 ^ scaleLimit := by
      rw [Nat.pow_eq, Nat.pow_eq, ← Nat.pow_add, Nat.sub_add_cancel beyond]
    rw [split]
    exact (Nat.mul_le_mul_right_iff (Nat.pow_pos (by decide))).symm
  · rw [Nat.sub_eq_zero_of_le within]
    constructor
    · intro least
      have zero : 2 * coefficient = 0 := by
        have least : 2 * coefficient ≤ 1 := least
        omega
      rw [zero, Nat.zero_mul]
      exact Nat.zero_le _
    · intro small
      have bound : Nat.pow 10 scale ≤ 10 ^ scaleLimit := Nat.pow_le_pow_right (by decide) within
      refine Nat.le_of_mul_le_mul_right ?_ (Nat.pow_pos (by decide) : 0 < 10 ^ scaleLimit)
      exact (small.trans bound).trans_eq (Nat.one_mul _).symm

/-- A quotient by a power of ten is compared as a natural number is with a smaller power. -/
theorem div_pow_le_halfPlace_iff (coefficient scale : Nat) :
    (coefficient : ℚ) / 10 ^ scale ≤ halfPlace ↔
      2 * coefficient ≤ Nat.pow 10 (scale - scaleLimit) := by
  have power : ((Nat.pow 10 scale : Nat) : ℚ) = 10 ^ scale := Nat.cast_pow 10 scale
  rw [twice_le_pow_iff, ← div_le_halfPlace_iff (pow_ten_pos scale), power]

/-- What is rounded once vanishes if its value is at most half of the last place. -/
theorem vanishes_fit_iff {make : Nat × Nat → Decimal}
    (keeps : ∀ digits, (make digits).coefficient = digits.1) :
    Vanishes ((fit coefficient scale).map make) ↔
      (coefficient : ℚ) / 10 ^ scale ≤ halfPlace := by
  rw [div_pow_le_halfPlace_iff, ← fit_eq_zero_iff]
  constructor
  · rintro ⟨decimal, same, zero⟩
    obtain ⟨⟨digits, places⟩, fits, rfl⟩ := Option.map_eq_some_iff.mp same
    obtain rfl : digits = 0 := (keeps _).symm.trans zero
    exact ⟨places, fits⟩
  · rintro ⟨places, fits⟩
    exact ⟨_, Option.map_eq_some_iff.mpr ⟨_, fits, rfl⟩, keeps _⟩

/-! ### Sums and products -/

namespace IsPlain

variable {first second result : Decimal}

theorem value_nonneg (plain : first.IsPlain) : 0 ≤ first.value := by
  rw [plain.value_eq]
  positivity

/-- A sum of two decimals without signs that are not zero. -/
theorem add_eq (plain : first.IsPlain) (plain' : second.IsPlain)
    (nonzero : first.coefficient ≠ 0) (nonzero' : second.coefficient ≠ 0) :
    first.add second =
      (fit (first.coefficientAt (max first.scale second.scale) +
        second.coefficientAt (max first.scale second.scale)) (max first.scale second.scale)).map
          fun (coefficient, scale) => ⟨false, coefficient, scale⟩ := by
  unfold Decimal.add
  rw [if_neg nonzero, if_neg nonzero', plain.unsigned, plain'.unsigned]
  dsimp only
  unfold signedNat
  rw [if_neg Bool.false_ne_true, if_neg Bool.false_ne_true, ← Int.natCast_add, Int.natAbs_natCast,
    decide_eq_false (Int.not_lt_of_ge (Int.natCast_nonneg _))]
  rfl

/-- A sum without signs has none. -/
theorem add (plain : first.IsPlain) (plain' : second.IsPlain)
    (sum : first.add second = some result) : result.IsPlain := by
  by_cases zero : first.coefficient = 0
  · rw [Decimal.add, if_pos zero] at sum
    cases sum
    exact plain'
  by_cases zero' : second.coefficient = 0
  · rw [Decimal.add, if_neg zero, if_pos zero'] at sum
    cases sum
    exact plain
  rw [plain.add_eq plain' zero zero'] at sum
  obtain ⟨⟨digits, places⟩, fits, rfl⟩ := Option.map_eq_some_iff.mp sum
  exact ⟨rfl, fit_places fits⟩

/-- A decimal within the format is at most half of the last place only if it is zero. -/
theorem value_le_halfPlace_iff (plain : first.IsPlain) :
    first.value ≤ halfPlace ↔ first.coefficient = 0 := by
  rw [plain.value_eq, div_pow_le_halfPlace_iff, Nat.sub_eq_zero_of_le plain.places]
  have least : 2 * first.coefficient ≤ 1 ↔ first.coefficient = 0 := by omega
  exact least

theorem coefficientAt_div (plain : first.IsPlain) {scale : Nat} (within : first.scale ≤ scale) :
    (first.coefficientAt scale : ℚ) / 10 ^ scale = first.value := by
  have split : (10 : ℚ) ^ scale = 10 ^ first.scale * 10 ^ (scale - first.scale) := by
    rw [← pow_add, Nat.add_sub_cancel' within]
  have power : ((Nat.pow 10 (scale - first.scale) : Nat) : ℚ) = 10 ^ (scale - first.scale) :=
    Nat.cast_pow 10 _
  rw [plain.value_eq, coefficientAt, Nat.cast_mul, power, split]
  exact mul_div_mul_right _ _ (by positivity)

/-- A sum without signs vanishes if it is at most half of the last place. -/
theorem vanishes_add_iff (plain : first.IsPlain) (plain' : second.IsPlain) :
    Vanishes (first.add second) ↔ first.value + second.value ≤ halfPlace := by
  by_cases zero : first.coefficient = 0
  · rw [Decimal.add, if_pos zero, vanishes_some, plain.value_eq_zero_iff.mpr zero, zero_add,
      plain'.value_le_halfPlace_iff]
  by_cases zero' : second.coefficient = 0
  · rw [Decimal.add, if_neg zero, if_pos zero', vanishes_some, plain'.value_eq_zero_iff.mpr zero',
      add_zero, plain.value_le_halfPlace_iff]
  rw [plain.add_eq plain' zero zero', vanishes_fit_iff fun _ => rfl, Nat.cast_add, add_div,
    plain.coefficientAt_div (Nat.le_max_left _ _), plain'.coefficientAt_div (Nat.le_max_right _ _)]

/-- A product without signs has none. -/
theorem multiply (plain : first.IsPlain) (plain' : second.IsPlain)
    (product : first.multiply second = some result) : result.IsPlain := by
  unfold Decimal.multiply at product
  split at product
  · cases product
    exact ⟨rfl, Nat.zero_le _⟩
  dsimp only at product
  split at product
  · cases product
    exact ⟨rfl, Nat.zero_le _⟩
  obtain ⟨⟨digits, places⟩, fits, rfl⟩ := Option.map_eq_some_iff.mp product
  rw [plain.unsigned, plain'.unsigned]
  exact ⟨rfl, fit_places fits⟩

/-- A product without signs vanishes if it is at most half of the last place. -/
theorem vanishes_multiply_iff (plain : first.IsPlain) (plain' : second.IsPlain) :
    Vanishes (first.multiply second) ↔ first.value * second.value ≤ halfPlace := by
  have product : first.value * second.value =
      ((first.coefficient * second.coefficient : Nat) : ℚ) / 10 ^ (first.scale + second.scale) := by
    rw [plain.value_eq, plain'.value_eq, div_mul_div_comm, Nat.cast_mul, pow_add]
  unfold Decimal.multiply
  dsimp only
  rw [product]
  split
  next zero =>
    rw [vanishes_some, div_pow_le_halfPlace_iff, Nat.mul_eq_zero.mpr zero]
    exact iff_of_true rfl (Nat.zero_le _)
  split
  next nonzero far =>
    -- The product is below `2 ^ 64`, and at least 20 places are dropped.
    obtain ⟨first_lt, second_lt⟩ := of_decide_eq_true far.1
    refine iff_of_true (vanishes_some.mpr rfl) ((div_pow_le_halfPlace_iff _ _).mpr ?_)
    calc 2 * (first.coefficient * second.coefficient)
      _ ≤ 2 * (Nat.pow 2 32 * Nat.pow 2 32) :=
        Nat.mul_le_mul_left 2 (Nat.mul_le_mul first_lt.le second_lt.le)
      _ ≤ Nat.pow 10 20 := by decide
      _ ≤ Nat.pow 10 (first.scale + second.scale - scaleLimit) :=
        Nat.pow_le_pow_right (by decide) (Nat.le_sub_of_add_le far.2)
  next => exact vanishes_fit_iff fun _ => rfl

end IsPlain

end Decimal

end Reckon
