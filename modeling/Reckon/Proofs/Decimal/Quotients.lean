/-
This file says which quotients of decimals without a sign are rounded to zero. A
quotient is developed a few places at a time, and at every step its digits and
what remains make up the dividend, at the scale that has been reached. While it
has no digit there is room for every place; so it is rounded at the last one, to
zero if it is at most half of that place.
-/

import Reckon.Proofs.Decimal.Rounding

namespace Reckon

namespace Decimal

namespace Quotient

variable {divisor places steps : Nat} {quotient : Quotient}

/-! ### What a step keeps -/

/-- The number that has been divided so far. -/
def total (divisor : Nat) (quotient : Quotient) : Nat :=
  quotient.digits * divisor + quotient.rest

/-- A quotient that is at most half of the last place. -/
def IsSmall (divisor : Nat) (quotient : Quotient) : Prop :=
  2 * quotient.total divisor * Nat.pow 10 (scaleLimit - quotient.scale).toNat ≤ divisor

/-- A quotient with more places. -/
def grow (divisor places : Nat) (quotient : Quotient) : Quotient :=
  { quotient with
    digits := quotient.digits * Nat.pow 10 places + quotient.rest * Nat.pow 10 places / divisor
    rest := quotient.rest * Nat.pow 10 places % divisor
    scale := quotient.scale + places }

theorem total_grow (quotient : Quotient) :
    (quotient.grow divisor places).total divisor =
      quotient.total divisor * Nat.pow 10 places := by
  show (quotient.digits * Nat.pow 10 places + quotient.rest * Nat.pow 10 places / divisor) *
    divisor + quotient.rest * Nat.pow 10 places % divisor = _
  rw [Nat.add_mul, Nat.add_assoc, Nat.div_add_mod', Nat.mul_right_comm, ← Nat.add_mul]
  rfl

theorem isSmall_grow_iff (within : quotient.scale + places ≤ scaleLimit) :
    (quotient.grow divisor places).IsSmall divisor ↔ quotient.IsSmall divisor := by
  have left : (scaleLimit - quotient.scale).toNat =
      places + (scaleLimit - (quotient.scale + places)).toNat := by omega
  unfold IsSmall
  rw [total_grow, left, Nat.pow_eq, Nat.pow_eq, Nat.pow_eq, Nat.pow_add]
  show 2 * (quotient.total divisor * 10 ^ places) *
    10 ^ (scaleLimit - (quotient.scale + places)).toNat ≤ divisor ↔ _
  rw [← Nat.mul_assoc, ← Nat.mul_assoc]

/-- A small quotient has no digit yet. -/
theorem IsSmall.digits_eq_zero (small : quotient.IsSmall divisor) (positive : 0 < divisor) :
    quotient.digits = 0 := by
  have factor := Nat.le_mul_of_pos_right (2 * quotient.total divisor)
    (pow_ten_pos (scaleLimit - quotient.scale).toNat)
  have bound : 2 * quotient.total divisor ≤ divisor := factor.trans small
  refine Nat.eq_zero_of_not_pos fun digit => ?_
  have share := Nat.le_mul_of_pos_left divisor digit
  unfold total at bound
  omega

/-! ### The room for places -/

theorem roomFor_le (digits : Nat) {scale : Int} (within : scale ≤ scaleLimit) (places : Nat) :
    scale + roomFor digits scale places ≤ scaleLimit := by
  induction places with
  | zero => exact (Int.add_zero scale).trans_le within
  | succ places inductionHypothesis =>
    unfold roomFor
    split
    next room => exact room.1
    next => exact inductionHypothesis

/-- Without a digit all places are free. -/
theorem roomFor_zero {scale : Int} (within : scale ≤ scaleLimit) (places : Nat) :
    roomFor 0 scale places = min places (scaleLimit - scale).toNat := by
  have none : ∀ places, 0 * Nat.pow 10 places < coefficientLimit := fun places => by
    rw [Nat.zero_mul]
    decide
  induction places with
  | zero => exact (Nat.zero_min _).symm
  | succ places inductionHypothesis =>
    unfold roomFor
    rw [inductionHypothesis]
    split
    next room =>
      have bound := room.1
      omega
    next noRoom =>
      have bound : ¬ scale + (places + 1) ≤ scaleLimit := fun room => noRoom ⟨room, none _⟩
      omega

/-- The places that the next step adds while something remains. -/
def room (quotient : Quotient) : Nat :=
  if quotient.scale = scaleLimit then 0 else roomFor quotient.digits quotient.scale 9

theorem room_le (within : quotient.scale ≤ scaleLimit) :
    quotient.scale + quotient.room ≤ scaleLimit := by
  unfold room
  split
  · exact (Int.add_zero _).trans_le within
  · exact roomFor_le _ within 9

theorem room_of_no_digit (none : quotient.digits = 0) (within : quotient.scale ≤ scaleLimit) :
    quotient.room = min 9 (scaleLimit - quotient.scale).toNat := by
  unfold room
  rw [none, roomFor_zero within]
  split
  next last =>
    rw [last, Int.sub_self]
    rfl
  next => rfl

/-! ### The last digit -/

/-- A development ends without a digit. -/
def EndsInZero (result : Option Quotient) : Prop :=
  ∃ quotient, result = some quotient ∧ quotient.digits = 0

theorem not_endsInZero_none : ¬ EndsInZero none := fun ⟨_, same, _⟩ => nomatch same

theorem endsInZero_some : EndsInZero (some quotient) ↔ quotient.digits = 0 :=
  ⟨fun ⟨_, same, zero⟩ => Option.some.inj same ▸ zero, fun zero => ⟨quotient, rfl, zero⟩⟩

/-- The digits of a quotient after they are rounded by what remains. -/
def roundedDigits (divisor : Nat) (quotient : Quotient) : Nat :=
  if divisor < 2 * quotient.rest ∨ 2 * quotient.rest = divisor ∧ quotient.digits % 2 = 1 then
    quotient.digits + 1
  else quotient.digits

theorem roundedDigits_eq_zero_iff :
    quotient.roundedDigits divisor = 0 ↔ quotient.digits = 0 ∧ 2 * quotient.rest ≤ divisor := by
  unfold roundedDigits
  split <;> omega

theorem roundQuotient_eq (divisor : Nat) (quotient : Quotient) :
    roundQuotient divisor quotient =
      if quotient.roundedDigits divisor = coefficientLimit then
        if quotient.scale = 0 then none
        else some { quotient with
          digits := halfEven (quotient.roundedDigits divisor) 10, scale := quotient.scale - 1 }
      else some { quotient with digits := quotient.roundedDigits divisor } := rfl

/-- Rounding by what remains adds no digit if it is at most half. -/
theorem endsInZero_roundQuotient_iff :
    EndsInZero (roundQuotient divisor quotient) ↔
      quotient.digits = 0 ∧ 2 * quotient.rest ≤ divisor := by
  rw [roundQuotient_eq, ← roundedDigits_eq_zero_iff]
  split
  next full =>
    have kept : halfEven coefficientLimit 10 ≠ 0 := by decide
    rw [full]
    refine iff_of_false (fun zero => ?_) (by decide)
    split at zero
    · exact not_endsInZero_none zero
    · exact kept (endsInZero_some.mp zero)
  next => exact endsInZero_some

/-- A quotient that has grown too large keeps digits. -/
theorem not_endsInZero_shortenQuotient (large : coefficientLimit ≤ quotient.digits) :
    ¬ EndsInZero (shortenQuotient quotient) := by
  have leading : 0 < quotient.digits / 10 :=
    Nat.div_pos ((by decide : 10 ≤ coefficientLimit).trans large) (by decide)
  unfold shortenQuotient
  dsimp only
  intro zero
  split at zero
  · exact not_endsInZero_none zero
  · have none := endsInZero_some.mp zero
    dsimp only at none
    split at none <;> omega

/-! ### The development -/

/-- One step that adds places. -/
def developBy (divisor steps places : Nat) (quotient : Quotient) : Option Quotient :=
  if coefficientLimit ≤ quotient.digits * Nat.pow 10 places then none
  else if coefficientLimit ≤ (quotient.grow divisor places).digits then
    shortenQuotient (quotient.grow divisor places)
  else develop divisor steps (quotient.grow divisor places)

theorem develop_succ (divisor steps : Nat) (quotient : Quotient) :
    develop divisor (steps + 1) quotient =
      if quotient.rest = 0 then
        if 0 ≤ quotient.scale then some quotient
        else quotient.developBy divisor steps (min 9 quotient.scale.natAbs)
      else if quotient.room < 9 ∧ quotient.scale + quotient.room < 0 then none
      else if quotient.room = 0 then roundQuotient divisor { quotient with extended := true }
      else developBy divisor steps quotient.room { quotient with extended := true } := rfl

/-- A step leaves it to the next ones whether the quotient has a digit. -/
theorem endsInZero_developBy_iff (positive : 0 < divisor)
    (within : quotient.scale + places ≤ scaleLimit)
    (develops : EndsInZero (develop divisor steps (quotient.grow divisor places)) ↔
      (quotient.grow divisor places).IsSmall divisor) :
    EndsInZero (quotient.developBy divisor steps places) ↔ quotient.IsSmall divisor := by
  have limit : 0 < coefficientLimit := by decide
  unfold developBy
  split
  next large =>
    refine iff_of_false not_endsInZero_none fun small => ?_
    rw [small.digits_eq_zero positive, Nat.zero_mul] at large
    exact Nat.not_le_of_gt limit large
  split
  next large =>
    refine iff_of_false (not_endsInZero_shortenQuotient large) fun small => ?_
    rw [((isSmall_grow_iff within).mpr small).digits_eq_zero positive] at large
    exact Nat.not_le_of_gt limit large
  next => rw [develops, isSmall_grow_iff within]

/-- Where no place is free, rounding decides whether the quotient has a digit. -/
theorem endsInZero_rounded_iff (positive : 0 < divisor) (within : quotient.scale ≤ scaleLimit)
    (full : quotient.room = 0) :
    EndsInZero (roundQuotient divisor { quotient with extended := true }) ↔
      quotient.IsSmall divisor := by
  -- Without a digit every place was free, so the last one has been reached.
  have small_iff : quotient.digits = 0 →
      (quotient.IsSmall divisor ↔ 2 * quotient.rest ≤ divisor) := fun none => by
    have all := room_of_no_digit none within
    have last : quotient.scale = scaleLimit := by omega
    unfold IsSmall total
    rw [none, last, Int.sub_self, Nat.zero_mul, Nat.zero_add]
    exact Iff.of_eq (congrArg (· ≤ divisor) (Nat.mul_one _))
  rw [endsInZero_roundQuotient_iff]
  constructor
  · rintro ⟨none, half⟩
    exact (small_iff none).mpr half
  · intro small
    have none := small.digits_eq_zero positive
    exact ⟨none, (small_iff none).mp small⟩

/-- A quotient is developed to zero if it is at most half of the last place. -/
theorem endsInZero_develop_iff (positive : 0 < divisor) (within : quotient.scale ≤ scaleLimit)
    (nonzero : quotient.total divisor ≠ 0)
    (enough : (scaleLimit - quotient.scale).toNat < steps) :
    EndsInZero (develop divisor steps quotient) ↔ quotient.IsSmall divisor := by
  induction steps generalizing quotient with
  | zero => exact absurd enough (Nat.not_lt_zero _)
  | succ steps inductionHypothesis =>
    -- Places keep what has been divided, and with it whether the quotient is small.
    have grown : ∀ {places : Nat} (extended : Bool), 0 < places →
        quotient.scale + places ≤ scaleLimit →
        (EndsInZero (developBy divisor steps places { quotient with extended }) ↔
          quotient.IsSmall divisor) := by
      intro places extended adds within'
      refine endsInZero_developBy_iff positive within' (inductionHypothesis within' ?_ ?_)
      · rw [total_grow]
        exact Nat.mul_ne_zero nonzero (Nat.ne_of_gt (pow_ten_pos places))
      · show (scaleLimit - (quotient.scale + places)).toNat < steps
        omega
    rw [develop_succ]
    by_cases done : quotient.rest = 0
    · rw [if_pos done]
      split
      next whole =>
        have digit : quotient.digits ≠ 0 := fun none => nonzero (by
          unfold total
          rw [none, done, Nat.zero_mul])
        exact iff_of_false (fun zero => digit (endsInZero_some.mp zero))
          fun small => digit (small.digits_eq_zero positive)
      next fraction => exact grown quotient.extended (by omega) (by omega)
    rw [if_neg done]
    split
    next noPlace =>
      refine iff_of_false not_endsInZero_none fun small => ?_
      have all := room_of_no_digit (small.digits_eq_zero positive) within
      omega
    split
    next noPlace full => exact endsInZero_rounded_iff positive within full
    next noPlace free => exact grown true (Nat.pos_of_ne_zero free) (room_le within)

theorem shortenQuotient_scale {result : Quotient}
    (shortens : shortenQuotient quotient = some result) : result.scale ≤ quotient.scale := by
  unfold shortenQuotient at shortens
  dsimp only at shortens
  split at shortens <;> cases shortens
  exact Int.sub_le_self _ (by decide)

theorem roundQuotient_scale {result : Quotient}
    (rounds : roundQuotient divisor quotient = some result) : result.scale ≤ quotient.scale := by
  rw [roundQuotient_eq] at rounds
  split at rounds
  · split at rounds <;> cases rounds
    exact Int.sub_le_self _ (by decide)
  · cases rounds
    exact Int.le_refl _

/-- No quotient is developed beyond the greatest scale. -/
theorem develop_scale {result : Quotient} (within : quotient.scale ≤ scaleLimit)
    (develops : develop divisor steps quotient = some result) : result.scale ≤ scaleLimit := by
  induction steps generalizing quotient with
  | zero => cases develops
  | succ steps inductionHypothesis =>
    have grown : ∀ {places : Nat} {extended : Bool}, quotient.scale + places ≤ scaleLimit →
        developBy divisor steps places { quotient with extended } = some result →
        result.scale ≤ scaleLimit := by
      intro places extended within' develops
      unfold developBy at develops
      split at develops
      · cases develops
      split at develops
      · exact (shortenQuotient_scale develops).trans within'
      · exact inductionHypothesis within' develops
    rw [develop_succ] at develops
    split at develops
    · split at develops
      · cases develops
        exact within
      · exact grown (by omega) develops
    · split at develops
      · cases develops
      split at develops
      · exact (roundQuotient_scale develops).trans within
      · exact grown (room_le within) develops

end Quotient

/-! ### Zeros at the end -/

theorem trims_div {digits scale zeros : Nat} (ends : digits % Nat.pow 10 zeros = 0) :
    Trims (digits, scale) (digits / Nat.pow 10 zeros, scale - zeros) := by
  refine ⟨?_, Nat.sub_le scale zeros⟩
  have split := Nat.div_add_mod digits (Nat.pow 10 zeros)
  rw [ends, Nat.add_zero] at split
  constructor
  · intro none
    have none : digits / Nat.pow 10 zeros = 0 := none
    show digits = 0
    rw [← split, none, Nat.mul_zero]
  · intro none
    have none : digits = 0 := none
    show digits / Nat.pow 10 zeros = 0
    rw [none, Nat.zero_div]

theorem trims_dropEightZeros (steps digits scale : Nat) :
    Trims (digits, scale) (dropEightZeros steps digits scale) := by
  induction steps generalizing digits scale with
  | zero => exact .refl _
  | succ steps inductionHypothesis =>
    unfold dropEightZeros
    split
    next ends => exact (trims_div ends.2.2).trans (inductionHypothesis _ _)
    next => exact .refl _

theorem trims_dropSomeZeros (zeros twos : Nat) (digits : Nat × Nat) :
    Trims digits (dropSomeZeros zeros twos digits) := by
  unfold dropSomeZeros
  dsimp only
  split
  next ends => exact trims_div ends.2.2
  next => exact .refl _

theorem trims_dropQuotientZeros (digits scale : Nat) :
    Trims (digits, scale) (dropQuotientZeros digits scale) :=
  (((trims_dropEightZeros scale digits scale).trans (trims_dropSomeZeros 4 4 _)).trans
    (trims_dropSomeZeros 2 2 _)).trans (trims_dropSomeZeros 1 1 _)

/-! ### Quotients of decimals -/

/-- The digits and the scale of a developed quotient. -/
def Quotient.kept (quotient : Quotient) : Nat × Nat :=
  if quotient.extended then dropQuotientZeros quotient.digits quotient.scale.toNat
  else (quotient.digits, quotient.scale.toNat)

theorem Quotient.trims_kept (quotient : Quotient) :
    Trims (quotient.digits, quotient.scale.toNat) quotient.kept := by
  unfold kept
  split
  · exact trims_dropQuotientZeros _ _
  · exact .refl _

/-- A developed quotient as a decimal without a sign. -/
def Quotient.toDecimal (quotient : Quotient) : Decimal :=
  ⟨false, quotient.kept.1, quotient.kept.2⟩

theorem Quotient.toDecimal_coefficient (quotient : Quotient) :
    quotient.toDecimal.coefficient = 0 ↔ quotient.digits = 0 :=
  quotient.trims_kept.zero_iff

theorem Quotient.isPlain_toDecimal {quotient : Quotient} (within : quotient.scale ≤ scaleLimit) :
    quotient.toDecimal.IsPlain :=
  ⟨rfl, quotient.trims_kept.places.trans (Int.toNat_le.mpr within)⟩

/-- The quotient of two decimals before it is developed. -/
def startQuotient (first second : Decimal) : Quotient :=
  ⟨first.coefficient / second.coefficient, first.coefficient % second.coefficient,
    (first.scale : Int) - second.scale, false⟩

namespace IsPlain

variable {first second result : Decimal}

theorem divide_eq (plain : first.IsPlain) (plain' : second.IsPlain)
    (nonzero : first.coefficient ≠ 0) (nonzero' : second.coefficient ≠ 0) :
    first.divide second =
      (develop second.coefficient
        ((scaleLimit - (startQuotient first second).scale).toNat + 1)
        (startQuotient first second)).map Quotient.toDecimal := by
  unfold Decimal.divide
  rw [if_neg nonzero', if_neg nonzero, plain.unsigned, plain'.unsigned]
  rfl

theorem startQuotient_scale (plain : first.IsPlain) :
    (startQuotient first second).scale ≤ scaleLimit := by
  have places := plain.places
  show (first.scale : Int) - second.scale ≤ scaleLimit
  omega

/-- A quotient without signs has none. -/
theorem divide (plain : first.IsPlain) (plain' : second.IsPlain)
    (quotient : first.divide second = some result) : result.IsPlain := by
  by_cases zero' : second.coefficient = 0
  · rw [Decimal.divide, if_pos zero'] at quotient
    cases quotient
  by_cases zero : first.coefficient = 0
  · rw [Decimal.divide, if_neg zero', if_pos zero] at quotient
    cases quotient
    exact ⟨rfl, Nat.zero_le _⟩
  rw [plain.divide_eq plain' zero zero'] at quotient
  obtain ⟨developed, develops, rfl⟩ := Option.map_eq_some_iff.mp quotient
  exact Quotient.isPlain_toDecimal (Quotient.develop_scale plain.startQuotient_scale develops)

theorem isSmall_startQuotient_iff (plain : first.IsPlain) (plain' : second.IsPlain)
    (nonzero' : second.coefficient ≠ 0) :
    (startQuotient first second).IsSmall second.coefficient ↔
      first.value / second.value ≤ halfPlace := by
  have dividend : (startQuotient first second).total second.coefficient = first.coefficient :=
    Nat.div_add_mod' first.coefficient second.coefficient
  have left : (scaleLimit - (startQuotient first second).scale).toNat + first.scale =
      second.scale + scaleLimit := by
    have places := plain.places
    show ((scaleLimit : Int) - (first.scale - second.scale)).toNat + first.scale = _
    omega
  have ratio : first.value / second.value =
      ((first.coefficient * 10 ^ second.scale : Nat) : ℚ) /
        (second.coefficient * 10 ^ first.scale : Nat) := by
    rw [plain.value_eq, plain'.value_eq, div_div_div_eq, mul_comm (10 ^ first.scale)]
    push_cast
    rfl
  have divisor : 0 < second.coefficient * 10 ^ first.scale :=
    Nat.mul_pos (Nat.pos_of_ne_zero nonzero') (pow_ten_pos first.scale)
  rw [ratio, div_le_halfPlace_iff divisor]
  have scaled : 2 * (first.coefficient * 10 ^ second.scale) * 10 ^ scaleLimit =
      2 * first.coefficient * 10 ^ (scaleLimit - (startQuotient first second).scale).toNat *
        10 ^ first.scale := by
    rw [Nat.mul_assoc _ (10 ^ _), ← Nat.pow_add, left, Nat.pow_add, ← Nat.mul_assoc,
      ← Nat.mul_assoc]
  have positive : 0 < 10 ^ first.scale := pow_ten_pos first.scale
  rw [scaled, Nat.mul_le_mul_right_iff positive, Quotient.IsSmall, dividend]
  rfl

/-- A quotient without signs vanishes if it is at most half of the last place. -/
theorem vanishes_divide_iff (plain : first.IsPlain) (plain' : second.IsPlain)
    (nonzero' : second.coefficient ≠ 0) :
    Vanishes (first.divide second) ↔ first.value / second.value ≤ halfPlace := by
  by_cases zero : first.coefficient = 0
  · rw [Decimal.divide, if_neg nonzero', if_pos zero, plain.value_eq_zero_iff.mpr zero, zero_div,
      vanishes_some]
    exact iff_of_true rfl halfPlace_pos.le
  have total : (startQuotient first second).total second.coefficient ≠ 0 :=
    (Nat.div_add_mod' first.coefficient second.coefficient).trans_ne zero
  rw [plain.divide_eq plain' zero nonzero', ← plain.isSmall_startQuotient_iff plain' nonzero',
    ← Quotient.endsInZero_develop_iff (Nat.pos_of_ne_zero nonzero') plain.startQuotient_scale total
      (Nat.lt_succ_self _)]
  constructor
  · rintro ⟨decimal, same, zero⟩
    obtain ⟨developed, develops, rfl⟩ := Option.map_eq_some_iff.mp same
    exact ⟨developed, develops, developed.toDecimal_coefficient.mp zero⟩
  · rintro ⟨developed, develops, none⟩
    exact ⟨_, Option.map_eq_some_iff.mpr ⟨_, develops, rfl⟩,
      developed.toDecimal_coefficient.mpr none⟩

end IsPlain

end Decimal

end Reckon
