/-
This file says which binary numbers without a sign become a decimal of zero. On
the way from base two to base ten a number loses less than a part in `2 ^ 93` at
each halving, and at most as many halvings are taken as the format has. The
digits beyond the greatest scale are then dropped one by one, each rounded up
from five, and a number of one digit is dropped at once. So the bound is `17/18`
of the last place. No binary number lies as close to it as the halvings could
bring it, and thus they do not move it.
-/

import Mathlib.Algebra.Order.Field.Power
import Reckon.Proofs.Decimal.Rounding

namespace Reckon

open Binary64 (one one_pos unitsOfRank nearestRank)

namespace Decimal

/-! ### Digits beyond the greatest scale -/

/-- Ten or a greater power of it is ten more than a multiple of eighteen. -/
theorem exists_pow_ten_succ (places : Nat) :
    ∃ eighteens, Nat.pow 10 (places + 1) = 18 * eighteens + 10 := by
  induction places with
  | zero => exact ⟨0, rfl⟩
  | succ places inductionHypothesis =>
    obtain ⟨eighteens, power⟩ := inductionHypothesis
    refine ⟨10 * eighteens + 5, ?_⟩
    have next : Nat.pow 10 (places + 1 + 1) = Nat.pow 10 (places + 1) * 10 := rfl
    omega

theorem dropDigit_lt_iff {number : Nat} (digits : 10 ≤ number) (places : Nat) :
    18 * dropDigit number < 17 * Nat.pow 10 places ↔
      18 * number < 17 * Nat.pow 10 (places + 1) := by
  have dropped : dropDigit number = (number + 5) / 10 := by
    unfold dropDigit
    split <;> omega
  rw [dropped]
  cases places with
  | zero =>
    have power : Nat.pow 10 0 = 1 := rfl
    have power' : Nat.pow 10 (0 + 1) = 10 := rfl
    omega
  | succ places =>
    obtain ⟨eighteens, power⟩ := exists_pow_ten_succ places
    have next : Nat.pow 10 (places + 1 + 1) = Nat.pow 10 (places + 1) * 10 := rfl
    omega

/-- What is left of a number after places are dropped is zero below `17/18` of the last place
that is kept. -/
theorem dropPlaces_eq_zero_iff (excess mantissa scale : Nat) :
    (dropPlaces excess mantissa scale).1 = 0 ↔ 18 * mantissa < 17 * Nat.pow 10 excess := by
  induction excess generalizing mantissa scale with
  | zero =>
    have power : Nat.pow 10 0 = 1 := rfl
    unfold dropPlaces
    dsimp only
    omega
  | succ excess inductionHypothesis =>
    unfold dropPlaces
    split
    next oneDigit =>
      have positive := pow_ten_pos excess
      have next : Nat.pow 10 (excess + 1) = Nat.pow 10 excess * 10 := rfl
      exact iff_of_true rfl (by omega)
    next digits =>
      rw [inductionHypothesis]
      exact dropDigit_lt_iff (by omega) excess

theorem dropPlaces_scale (excess mantissa scale : Nat) :
    (dropPlaces excess mantissa scale).2 ≤ scale - excess := by
  induction excess generalizing mantissa scale with
  | zero => exact le_rfl
  | succ excess inductionHypothesis =>
    unfold dropPlaces
    split
    · exact Nat.zero_le _
    · have later := inductionHypothesis (dropDigit mantissa) (scale - 1)
      omega

theorem trims_dropGuardDigits (mantissa scale : Nat) :
    Trims (mantissa, scale) (dropGuardDigits mantissa scale) := by
  induction scale generalizing mantissa with
  | zero => exact .refl _
  | succ scale inductionHypothesis =>
    unfold dropGuardDigits
    split
    next long =>
      have limit : 10 ≤ octave := by decide
      have kept : dropDigit mantissa ≠ 0 := by
        unfold dropDigit
        omega
      have long : mantissa ≠ 0 := by omega
      exact .trans ⟨iff_of_false kept long, Nat.le_succ scale⟩ (inductionHypothesis _)
    next => exact .refl _

theorem trims_dropZeros (mantissa scale : Nat) :
    Trims (mantissa, scale) (dropZeros mantissa scale) := by
  induction scale generalizing mantissa with
  | zero => exact .refl _
  | succ scale inductionHypothesis =>
    unfold dropZeros
    split
    next ends =>
      have kept : mantissa / 10 = 0 ↔ mantissa = 0 := by omega
      exact .trans ⟨kept, Nat.le_succ scale⟩ (inductionHypothesis _)
    next => exact .refl _

namespace Conversion

variable {conversion : Conversion}

/-- The value of a magnitude on its way, without the powers of two that are counted apart. -/
def value (conversion : Conversion) : ℚ :=
  conversion.mantissa * 10 ^ conversion.tens

/-- The coefficient and the scale of a magnitude once its powers of two are taken away. -/
def trimmed (conversion : Conversion) : Nat × Nat :=
  let kept := dropPlaces (conversion.tens.natAbs - scaleLimit) conversion.mantissa
    conversion.tens.natAbs
  let guarded := dropGuardDigits kept.1 kept.2
  dropZeros guarded.1 guarded.2

theorem trims_trimmed (conversion : Conversion) :
    Trims (dropPlaces (conversion.tens.natAbs - scaleLimit) conversion.mantissa
      conversion.tens.natAbs) conversion.trimmed :=
  (trims_dropGuardDigits _ _).trans (trims_dropZeros _ _)

theorem trimmed_eq_zero_iff (conversion : Conversion) :
    conversion.trimmed.1 = 0 ↔
      18 * conversion.mantissa < 17 * Nat.pow 10 (conversion.tens.natAbs - scaleLimit) :=
  conversion.trims_trimmed.zero_iff.trans (dropPlaces_eq_zero_iff _ _ _)

theorem trimmed_scale (conversion : Conversion) : conversion.trimmed.2 ≤ scaleLimit := by
  have places := conversion.trims_trimmed.places.trans (dropPlaces_scale _ _ _)
  omega

/-! ### Halvings -/

/-- One halving. -/
def halve (conversion : Conversion) : Conversion :=
  if conversion.mantissa % 2 = 0 then ⟨conversion.mantissa / 2, conversion.tens + 1⟩
  else if conversion.mantissa * 5 < coefficientLimit then
    ⟨conversion.mantissa * 5, conversion.tens⟩
  else ⟨conversion.mantissa / 2, conversion.tens + 1⟩

theorem takeHalvings_succ (halvings : Nat) (conversion : Conversion) :
    takeHalvings (halvings + 1) conversion = takeHalvings halvings conversion.halve := by
  obtain ⟨mantissa, tens⟩ := conversion
  rw [takeHalvings]
  unfold halve
  dsimp only
  split
  · rfl
  · split <;> rfl

/-- What halvings make of a number: it is halved, times powers of ten and five, but for a part
in `2 ^ 93` at each of them. -/
structure IsHalved (halvings : Nat) (before after : Conversion) : Prop where
  positive : 0 < after.mantissa
  tens : after.tens ≤ before.tens + halvings
  above : after.value ≤ before.value * 5 ^ halvings
  below : before.value * 5 ^ halvings * (1 - halvings / 2 ^ 93) ≤ after.value

theorem value_nonneg (conversion : Conversion) : 0 ≤ conversion.value := by
  unfold value
  positivity

/-- A step that keeps the tenfold or the fivefold of a mantissa, or of one less if the mantissa is
at least `2 ^ 93`, is a halving. -/
theorem isHalved_of_value {after : Conversion} (kept : Nat) (positive : 0 < after.mantissa)
    (tens : after.tens ≤ conversion.tens + 1)
    (value : after.value = kept * 5 * 10 ^ conversion.tens) (le : kept ≤ conversion.mantissa)
    (near : conversion.mantissa * 2 ^ 93 ≤ kept * 2 ^ 93 + conversion.mantissa) :
    conversion.IsHalved 1 after := by
  have power : (0 : ℚ) < 10 ^ conversion.tens := by positivity
  have le : (kept : ℚ) ≤ conversion.mantissa := Nat.cast_le.mpr le
  have near : (conversion.mantissa : ℚ) * 2 ^ 93 ≤ kept * 2 ^ 93 + conversion.mantissa := by
    exact_mod_cast near
  refine ⟨positive, tens, ?_, ?_⟩
  · rw [value, Conversion.value, pow_one, mul_right_comm]
    gcongr
  · have part : (conversion.mantissa : ℚ) * (1 - 1 / 2 ^ 93) ≤ kept := by
      rw [mul_sub, mul_one, mul_one_div, sub_le_iff_le_add, ← sub_le_iff_le_add',
        le_div_iff₀ (by positivity)]
      linarith
    rw [value, Conversion.value, pow_one, Nat.cast_one]
    calc (conversion.mantissa : ℚ) * 10 ^ conversion.tens * 5 * (1 - 1 / 2 ^ 93)
      _ = conversion.mantissa * (1 - 1 / 2 ^ 93) * 5 * 10 ^ conversion.tens := by ring
      _ ≤ kept * 5 * 10 ^ conversion.tens := by gcongr

/-- Halving an even mantissa loses nothing, and neither does a factor of five; half of an odd one
is dropped only where it is at least `2 ^ 93`. -/
theorem isHalved_halve (positive : 0 < conversion.mantissa) :
    conversion.IsHalved 1 conversion.halve := by
  obtain ⟨mantissa, tens⟩ := conversion
  have positive : 0 < mantissa := positive
  have halved : ∀ half : Nat,
      value ⟨half, tens + 1⟩ = ((2 * half : Nat) : ℚ) * 5 * 10 ^ tens := by
    intro half
    unfold value
    rw [zpow_add_one₀ (by norm_num)]
    push_cast
    ring
  have limit : coefficientLimit = 8 * 2 ^ 93 := by decide
  unfold halve
  dsimp only
  split
  next even =>
    refine isHalved_of_value _ ?_ le_rfl (halved _) ?_ ?_ <;> dsimp only <;> omega
  split
  next odd room =>
    have times : value ⟨mantissa * 5, tens⟩ = mantissa * 5 * 10 ^ tens := by
      unfold value
      push_cast
      rfl
    refine isHalved_of_value mantissa ?_ ?_ times le_rfl ?_ <;> dsimp only <;> omega
  next odd full =>
    refine isHalved_of_value _ ?_ le_rfl (halved _) ?_ ?_ <;> dsimp only <;> omega

/-- The parts that are lost add up at most. -/
theorem IsHalved.trans {halvings : Nat} {middle after : Conversion}
    (first : conversion.IsHalved 1 middle) (later : middle.IsHalved halvings after)
    (bounded : halvings ≤ 2 ^ 93) : conversion.IsHalved (halvings + 1) after := by
  refine ⟨later.positive, ?_, ?_, ?_⟩
  · have tens := first.tens
    have tens' := later.tens
    push_cast
    omega
  · calc after.value
      _ ≤ middle.value * 5 ^ halvings := later.above
      _ ≤ conversion.value * 5 ^ 1 * 5 ^ halvings := by
        gcongr
        exact first.above
      _ = conversion.value * 5 ^ (halvings + 1) := by rw [mul_assoc, ← pow_add, Nat.add_comm]
  · have nonneg := conversion.value_nonneg
    have rest : (0 : ℚ) ≤ 1 - halvings / 2 ^ 93 := by
      rw [sub_nonneg, div_le_one (by positivity)]
      exact_mod_cast bounded
    have parts : (1 : ℚ) - (halvings + 1 : Nat) / 2 ^ 93 ≤
        (1 - (1 : Nat) / 2 ^ 93) * (1 - halvings / 2 ^ 93) := by
      have both : (0 : ℚ) ≤ 1 / 2 ^ 93 * (halvings / 2 ^ 93) := by positivity
      push_cast
      linarith
    calc conversion.value * 5 ^ (halvings + 1) * (1 - (halvings + 1 : Nat) / 2 ^ 93)
      _ ≤ conversion.value * 5 ^ (halvings + 1) *
          ((1 - (1 : Nat) / 2 ^ 93) * (1 - halvings / 2 ^ 93)) := by gcongr
      _ = conversion.value * 5 ^ 1 * (1 - (1 : Nat) / 2 ^ 93) * 5 ^ halvings *
          (1 - halvings / 2 ^ 93) := by ring
      _ ≤ middle.value * 5 ^ halvings * (1 - halvings / 2 ^ 93) := by
        gcongr
        exact first.below
      _ ≤ after.value := later.below

theorem isHalved_takeHalvings (halvings : Nat) (bounded : halvings ≤ 2 ^ 93)
    (positive : 0 < conversion.mantissa) :
    conversion.IsHalved halvings (takeHalvings halvings conversion) := by
  induction halvings generalizing conversion with
  | zero =>
    refine ⟨positive, (Int.add_zero _).ge, ?_, ?_⟩
    · rw [pow_zero, mul_one]
      rfl
    · rw [pow_zero, mul_one, Nat.cast_zero, zero_div, sub_zero, mul_one]
      rfl
  | succ halvings inductionHypothesis =>
    have few := Nat.le_of_succ_le bounded
    have step := isHalved_halve positive
    rw [takeHalvings_succ]
    exact step.trans (inductionHypothesis few step.positive) few

end Conversion

/-! ### Binary numbers -/

/-- What doublings make of a number has a mantissa and no negative power of ten. -/
theorem takeDoublings_spec {doublings : Nat} {conversion result : Conversion}
    (positive : 0 < conversion.mantissa) (tens : (doublings : Int) ≤ conversion.tens)
    (doubled : takeDoublings doublings conversion = some result) :
    0 < result.mantissa ∧ 0 ≤ result.tens := by
  induction doublings generalizing conversion with
  | zero =>
    cases doubled
    exact ⟨positive, tens⟩
  | succ doublings inductionHypothesis =>
    obtain ⟨mantissa, power⟩ := conversion
    have positive : 0 < mantissa := positive
    have tens : (doublings : Int) + 1 ≤ power := tens
    rw [takeDoublings] at doubled
    split at doubled
    next room =>
      exact inductionHypothesis (Nat.mul_pos positive Nat.two_pos) (by dsimp only; omega) doubled
    next full =>
      have limit : Nat.pow 2 95 = 39614081257132168796771975168 := by decide
      split at doubled
      · cases doubled
      · exact inductionHypothesis (by dsimp only; omega) (by dsimp only; omega) doubled

theorem takeTens_positive {tens mantissa result : Nat} (positive : 0 < mantissa)
    (taken : takeTens tens mantissa = some result) : 0 < result := by
  induction tens generalizing mantissa with
  | zero =>
    cases taken
    exact positive
  | succ tens inductionHypothesis =>
    rw [takeTens] at taken
    split at taken
    · exact inductionHypothesis (Nat.mul_pos positive (by decide)) taken
    · cases taken

theorem ofScaled_eq (mantissa : Nat) (twos : Int) :
    ofScaled mantissa twos =
      (takeDoublings twos.toNat (takeHalvings (-twos).toNat ⟨mantissa, twos⟩)).bind
        fun conversion =>
          if 0 < conversion.tens then
            (takeTens conversion.tens.toNat conversion.mantissa).bind fun mantissa =>
              some (mantissa, 0)
          else some conversion.trimmed := by
  unfold ofScaled
  refine congrArg (Option.bind _) (funext fun ⟨mantissa, tens⟩ => ?_)
  dsimp only
  split <;> rfl

section

variable {mantissa halvings : Nat} (positive : 0 < mantissa) (bounded : halvings ≤ 1074)

include positive bounded

theorem isHalved_fraction :
    Conversion.IsHalved halvings ⟨mantissa, -halvings⟩
      (takeHalvings halvings ⟨mantissa, -halvings⟩) :=
  Conversion.isHalved_takeHalvings halvings (bounded.trans (by decide)) positive

theorem takeHalvings_tens : (takeHalvings halvings ⟨mantissa, -halvings⟩).tens ≤ 0 :=
  (isHalved_fraction positive bounded).tens.trans (Int.add_left_neg _).le

/-- What the halvings leave of a number lies below it, by a part in `2 ^ 93` at most for each. -/
theorem takeHalvings_value :
    (takeHalvings halvings ⟨mantissa, -halvings⟩).value ≤ mantissa * 2 ^ (-halvings : Int) ∧
      (mantissa : ℚ) * 2 ^ (-halvings : Int) * (1 - 1074 / 2 ^ 93) ≤
        (takeHalvings halvings ⟨mantissa, -halvings⟩).value := by
  have halved := isHalved_fraction positive bounded
  have start : Conversion.value ⟨mantissa, -halvings⟩ * 5 ^ halvings =
      mantissa * 2 ^ (-halvings : Int) := by
    have ten : (10 : ℚ) ^ halvings = 2 ^ halvings * 5 ^ halvings := by
      rw [← mul_pow]
      norm_num
    unfold Conversion.value
    rw [zpow_neg, zpow_neg, zpow_natCast, zpow_natCast, ten]
    field_simp
  have few : (halvings : ℚ) ≤ 1074 := by exact_mod_cast bounded
  have below := halved.below
  rw [start] at below
  refine ⟨start ▸ halved.above, le_trans ?_ below⟩
  gcongr

/-- A number with a negative power of two is halved, and its digits are trimmed. -/
theorem ofScaled_fraction :
    ofScaled mantissa (-halvings) =
      some (takeHalvings halvings ⟨mantissa, -halvings⟩).trimmed := by
  have tens := takeHalvings_tens positive bounded
  rw [ofScaled_eq, Int.neg_neg, Int.toNat_natCast, Int.toNat_neg_natCast, takeDoublings,
    Option.bind_some, if_neg (by omega)]

end

/-- A number without a negative power of two is not zero. -/
theorem ofScaled_whole_spec {mantissa : Nat} {twos : Int} {digits : Nat × Nat}
    (positive : 0 < mantissa) (whole : 0 ≤ twos)
    (scaled : ofScaled mantissa twos = some digits) :
    digits.1 ≠ 0 ∧ digits.2 ≤ scaleLimit := by
  rw [ofScaled_eq, Int.toNat_of_nonpos (Int.neg_nonpos_of_nonneg whole), takeHalvings] at scaled
  obtain ⟨conversion, doubled, scaled⟩ := Option.bind_eq_some_iff.mp scaled
  obtain ⟨mantissaPositive, tens⟩ :=
    takeDoublings_spec positive (Int.toNat_of_nonneg whole).le doubled
  split at scaled
  · obtain ⟨coefficient, taken, rfl⟩ := Option.map_eq_some_iff.mp
      ((Option.map_eq_bind ..).trans scaled)
    exact ⟨Nat.ne_of_gt (takeTens_positive mantissaPositive taken), Nat.zero_le _⟩
  · cases scaled
    have places : conversion.tens.natAbs - scaleLimit = 0 := by omega
    refine ⟨fun zero => ?_, conversion.trimmed_scale⟩
    have small := conversion.trimmed_eq_zero_iff.mp zero
    rw [places] at small
    have small : 18 * conversion.mantissa < 17 := small
    omega

/-! ### The bound -/

/-- The bound below which a number becomes a decimal of zero. -/
def keptBound : ℚ := 17 / (18 * 10 ^ scaleLimit)

/-- Below the greatest scale only zero is below the bound. -/
theorem lt_pow_iff (mantissa scale : Nat) :
    18 * mantissa < 17 * Nat.pow 10 (scale - scaleLimit) ↔
      18 * mantissa * 10 ^ scaleLimit < 17 * Nat.pow 10 scale := by
  have limit : 0 < 10 ^ scaleLimit := Nat.pow_pos (by decide)
  rcases Nat.le_total scaleLimit scale with beyond | within
  · have split : 17 * Nat.pow 10 scale =
        17 * Nat.pow 10 (scale - scaleLimit) * 10 ^ scaleLimit := by
      rw [Nat.pow_eq, Nat.pow_eq, Nat.mul_assoc, ← Nat.pow_add, Nat.sub_add_cancel beyond]
    rw [split]
    exact (Nat.mul_lt_mul_right limit).symm
  · rw [Nat.sub_eq_zero_of_le within]
    constructor
    · intro least
      have zero : 18 * mantissa = 0 := by
        have least : 18 * mantissa < 17 := least
        omega
      rw [zero, Nat.zero_mul]
      exact Nat.mul_pos (by decide) (pow_ten_pos scale)
    · intro small
      have bound : 17 * Nat.pow 10 scale ≤ 17 * 10 ^ scaleLimit :=
        Nat.mul_le_mul_left 17 (Nat.pow_le_pow_right (by decide) within)
      exact (Nat.mul_lt_mul_right limit).mp (small.trans_le bound)

/-- A magnitude without a positive power of ten is trimmed to zero if it is below the bound. -/
theorem Conversion.trimmed_eq_zero_iff_value {conversion : Conversion}
    (tens : conversion.tens ≤ 0) :
    conversion.trimmed.1 = 0 ↔ conversion.value < keptBound := by
  have power : conversion.tens = -(conversion.tens.natAbs : Int) := by omega
  have quotient : conversion.value = conversion.mantissa / 10 ^ conversion.tens.natAbs := by
    unfold value
    nth_rewrite 1 [power]
    rw [zpow_neg, zpow_natCast, div_eq_mul_inv]
  rw [conversion.trimmed_eq_zero_iff, lt_pow_iff, quotient, keptBound,
    div_lt_div_iff₀ (by positivity) (by positivity), ← mul_assoc, mul_comm _ (18 : ℚ), Nat.pow_eq]
  exact_mod_cast Iff.rfl

/-- The least rank above the bound. -/
def leastKept : Nat := nearestRank (17 * one) (18 * 10 ^ scaleLimit)

/-- The bound lies between two neighbours, and below the upper one by more than halvings can
lose. -/
theorem leastKept_spec :
    unitsOfRank (leastKept - 1) * (18 * 10 ^ scaleLimit) < 17 * one ∧
      17 * one * 2 ^ 93 ≤ unitsOfRank leastKept * (18 * 10 ^ scaleLimit) * (2 ^ 93 - 1074) := by
  decide +kernel

theorem keptBound_le_of_le {rank : Fin rankLimit}
    (above : keptBound ≤ Binary64.value (.finite false rank)) :
    keptBound ≤ Binary64.value (.finite false rank) * (1 - 1074 / 2 ^ 93) := by
  have value : Binary64.value (.finite false rank) = unitsOfRank rank / one :=
    Binary64.value_finite false rank
  obtain ⟨below, gap⟩ := leastKept_spec
  have onePositive := one_pos
  rw [value, keptBound] at above ⊢
  generalize leastKept = least at below gap
  generalize one = unit at above below gap onePositive ⊢
  have positive : (0 : ℚ) < unit := Nat.cast_pos.mpr onePositive
  rw [div_le_div_iff₀ (by positivity) positive] at above
  have above : 17 * unit ≤ unitsOfRank rank * (18 * 10 ^ scaleLimit) := by exact_mod_cast above
  have reached : least ≤ rank.val := by
    refine Nat.le_of_not_lt fun less => ?_
    have units := Nat.mul_le_mul_right (18 * 10 ^ scaleLimit)
      (Binary64.unitsOfRank_mono (Nat.le_sub_one_of_lt less))
    omega
  have scaled : 17 * unit * 2 ^ 93 ≤
      unitsOfRank rank * (18 * 10 ^ scaleLimit) * (2 ^ 93 - 1074) :=
    gap.trans (Nat.mul_le_mul_right _ (Nat.mul_le_mul_right _
      (Binary64.unitsOfRank_mono reached)))
  have scaled : (17 : ℚ) * unit * 2 ^ 93 ≤
      unitsOfRank rank * (18 * 10 ^ scaleLimit) * (2 ^ 93 - 1074 : Nat) := by
    exact_mod_cast scaled
  have part : (1 : ℚ) - 1074 / 2 ^ 93 = (2 ^ 93 - 1074 : Nat) / 2 ^ 93 := by norm_num
  rw [part, div_mul_div_comm, div_le_div_iff₀ (by positivity) (by positivity)]
  calc 17 * ((unit : ℚ) * 2 ^ 93)
    _ = 17 * unit * 2 ^ 93 := by ring
    _ ≤ _ := scaled
    _ = _ := by ring

/-- The mantissa and the power of two of a binary number. -/
theorem ofBinary64_eq {rank : Fin rankLimit} (nonzero : rank.val ≠ 0) :
    ∃ (mantissa : Nat) (twos : Int), 0 < mantissa ∧ -1074 ≤ twos ∧
      Binary64.value (.finite false rank) = mantissa * 2 ^ twos ∧
      ofBinary64 (.finite false rank) =
        (ofScaled mantissa twos).map fun (coefficient, scale) => ⟨false, coefficient, scale⟩ := by
  obtain ⟨power, is, one_eq⟩ := Binary64.exists_one_eq
  have value : Binary64.value (.finite false rank) = unitsOfRank rank / 2 ^ power := by
    rw [Binary64.value_finite, one_eq, Nat.cast_pow]
    rfl
  rw [value]
  unfold ofBinary64 unitsOfRank
  dsimp only
  rw [if_neg nonzero]
  by_cases low : rank.val / octave = 0
  · have less := (Nat.div_eq_zero_iff_lt Binary64.octave_pos).mp low
    refine ⟨rank.val % octave, -1074, ?_, le_rfl, ?_, by rw [if_pos low]⟩
    · rw [Nat.mod_eq_of_lt less]
      exact Nat.pos_of_ne_zero nonzero
    · rw [if_pos less, Nat.mod_eq_of_lt less, show (-1074 : Int) = -(power : Int) by omega,
        zpow_neg, zpow_natCast, div_eq_mul_inv]
  · have high : ¬ rank.val < octave := fun less => low (Nat.div_eq_of_lt less)
    generalize rank.val / octave = field at low ⊢
    refine ⟨octave + rank.val % octave, (field : Int) - 1075,
      Nat.add_pos_left Binary64.octave_pos _, by omega, ?_, by rw [if_neg low]⟩
    have twos : (field : Int) - 1075 = ((field - 1 : Nat) : Int) - (power : Int) := by omega
    rw [if_neg high, twos, Nat.shiftLeft_eq, zpow_sub₀ two_ne_zero, zpow_natCast, zpow_natCast,
      Nat.cast_mul, Nat.cast_pow, mul_div_assoc]
    rfl

/-- A number with a mantissa is scaled to zero if it is below the bound. -/
theorem ofScaled_eq_zero_iff {mantissa : Nat} {twos : Int} (positive : 0 < mantissa)
    (bounded : -1074 ≤ twos)
    (gap : keptBound ≤ (mantissa : ℚ) * 2 ^ twos →
      keptBound ≤ (mantissa : ℚ) * 2 ^ twos * (1 - 1074 / 2 ^ 93)) :
    (∃ scale, ofScaled mantissa twos = some (0, scale)) ↔
      (mantissa : ℚ) * 2 ^ twos < keptBound := by
  rcases Int.le_total 0 twos with whole | fraction
  · have large : keptBound ≤ (mantissa : ℚ) * 2 ^ twos :=
      calc keptBound
        _ ≤ 1 * 1 := by
          unfold keptBound scaleLimit
          norm_num
        _ ≤ (mantissa : ℚ) * 2 ^ twos := by
          gcongr
          · exact_mod_cast positive
          · exact one_le_zpow₀ one_le_two whole
    refine iff_of_false ?_ large.not_gt
    rintro ⟨scale, scaled⟩
    exact (ofScaled_whole_spec positive whole scaled).1 rfl
  · obtain ⟨halvings, rfl⟩ : ∃ halvings : Nat, twos = -halvings := ⟨twos.natAbs, by omega⟩
    have few : halvings ≤ 1074 := by omega
    obtain ⟨above, below⟩ := takeHalvings_value positive few
    have trimmed := Conversion.trimmed_eq_zero_iff_value (takeHalvings_tens positive few)
    rw [ofScaled_fraction positive few]
    constructor
    · rintro ⟨scale, same⟩
      have small := trimmed.mp (congrArg Prod.fst (Option.some.inj same))
      exact lt_of_not_ge fun large => small.not_ge ((gap large).trans below)
    · intro small
      exact ⟨_, congrArg some (Prod.ext (trimmed.mpr (above.trans_lt small)) rfl)⟩

theorem ofScaled_places {mantissa : Nat} {twos : Int} {digits : Nat × Nat} (positive : 0 < mantissa)
    (bounded : -1074 ≤ twos) (scaled : ofScaled mantissa twos = some digits) :
    digits.2 ≤ scaleLimit := by
  rcases Int.le_total 0 twos with whole | fraction
  · exact (ofScaled_whole_spec positive whole scaled).2
  · obtain ⟨halvings, rfl⟩ : ∃ halvings : Nat, twos = -halvings := ⟨twos.natAbs, by omega⟩
    rw [ofScaled_fraction positive (by omega)] at scaled
    cases scaled
    exact Conversion.trimmed_scale _

variable {number : Binary64}

/-- A number above zero becomes a decimal without a sign. -/
theorem isPlain_ofBinary64 {decimal : Decimal} (positive : number.IsPositive)
    (finite : number.isFinite = true) (converts : ofBinary64 number = some decimal) :
    decimal.IsPlain := by
  obtain ⟨rank, rfl, nonzero⟩ := positive.exists_rank finite
  obtain ⟨mantissa, twos, mantissaPositive, bounded, -, is⟩ := ofBinary64_eq nonzero
  rw [is] at converts
  obtain ⟨digits, scaled, rfl⟩ := Option.map_eq_some_iff.mp converts
  exact ⟨rfl, ofScaled_places mantissaPositive bounded scaled⟩

/-- A number above zero becomes a decimal of zero if it is below the bound. -/
theorem vanishes_ofBinary64_iff (positive : number.IsPositive) (finite : number.isFinite = true) :
    Vanishes (ofBinary64 number) ↔ number.value < keptBound := by
  obtain ⟨rank, rfl, nonzero⟩ := positive.exists_rank finite
  obtain ⟨mantissa, twos, mantissaPositive, bounded, value, is⟩ := ofBinary64_eq nonzero
  have gap : keptBound ≤ Binary64.value (.finite false rank) →
      keptBound ≤ Binary64.value (.finite false rank) * (1 - 1074 / 2 ^ 93) := keptBound_le_of_le
  rw [value] at gap ⊢
  rw [is, ← ofScaled_eq_zero_iff mantissaPositive bounded gap]
  constructor
  · rintro ⟨decimal, same, zero⟩
    obtain ⟨⟨coefficient, scale⟩, scaled, rfl⟩ := Option.map_eq_some_iff.mp same
    obtain rfl : coefficient = 0 := zero
    exact ⟨scale, scaled⟩
  · rintro ⟨scale, scaled⟩
    exact ⟨_, Option.map_eq_some_iff.mpr ⟨_, scaled, rfl⟩, rfl⟩

end Decimal

end Reckon
