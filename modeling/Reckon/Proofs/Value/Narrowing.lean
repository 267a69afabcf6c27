/-
This file says what becomes of a number that is coerced into an integer. A text
of an integer that fits into 64 bits is that integer. Every other number is
rounded to the nearest number of the format first; a finite one loses its
fraction and is then held within the 64-bit integers.

So the integer is the integer part of the number exactly where the rounding and
the bounds leave the integer part alone. A number that is rounded to infinity is
refused, and so is everything that denotes no number; a finite number whose
integer part does not fit is not.
-/

import Reckon.Proofs.Binary64.Notation
import Reckon.Value.Type

namespace Reckon

/-! ### Integer parts -/

/-- The integer part of a number, toward zero. -/
def truncated (number : ℚ) : Int :=
  if number < 0 then -⌊-number⌋ else ⌊number⌋

/-- An integer held within the 64-bit integers. -/
def heldInt64 (number : Int) : Int :=
  max Int64.minValue.toInt (min number Int64.maxValue.toInt)

theorem truncated_intCast (number : Int) : truncated number = number := by
  unfold truncated
  split
  · rw [← Int.cast_neg, Int.floor_intCast, Int.neg_neg]
  · exact Int.floor_intCast number

theorem truncated_signed (negative : Bool) (numerator denominator : Nat) :
    truncated (Binary64.signed negative (numerator / denominator)) =
      if negative then -((numerator / denominator : Nat) : Int)
      else (numerator / denominator : Nat) := by
  have floor : ⌊(numerator : ℚ) / denominator⌋ = (numerator / denominator : Nat) :=
    Rat.floor_intCast_div_natCast numerator denominator
  have notNegative : (0 : ℚ) ≤ numerator / denominator := by positivity
  unfold truncated Binary64.signed
  cases negative with
  | false =>
    rw [if_neg Bool.false_ne_true, if_neg Bool.false_ne_true, if_neg (not_lt.mpr notNegative),
      floor]
  | true =>
    rw [if_pos rfl, if_pos rfl, neg_neg, floor]
    split
    · rfl
    next notBelow =>
      have zero : (numerator : ℚ) / denominator = 0 := by linarith
      rw [zero] at floor ⊢
      rw [← floor]
      rfl

namespace Binary64

theorem toInt_nearestInt64 (number : Int) : (nearestInt64 number).toInt = heldInt64 number := by
  have bounds : Int64.minValue.toInt ≤ Int64.maxValue.toInt := by decide
  unfold nearestInt64 heldInt64
  split
  · omega
  · split
    · omega
    · rw [toInt_ofInt_of_fits (decide_eq_true ⟨by omega, by omega⟩)]
      omega

/-- A finite number loses its fraction and is held within the 64-bit integers. -/
theorem toInt_truncate {number : Binary64} (finite : number.isFinite = true) :
    number.truncate.toInt = heldInt64 (truncated number.value) := by
  cases number with
  | notANumber | infinite => cases finite
  | finite negative rank =>
    rw [value_finite, truncated_signed]
    exact toInt_nearestInt64 _

theorem isFinite_of_withoutZeroSign {number number' : Binary64}
    (same : number.withoutZeroSign = number'.withoutZeroSign) :
    number.isFinite = number'.isFinite ∧ number.truncate = number'.truncate := by
  have signless : ∀ number : Binary64, number.withoutZeroSign.isFinite = number.isFinite ∧
      number.withoutZeroSign.truncate = number.truncate := by
    intro number
    unfold withoutZeroSign
    split
    next isZero =>
      cases number with
      | notANumber | infinite => cases isZero
      | finite negative rank =>
        obtain rfl : rank = ⟨0, by decide⟩ := Fin.ext (beq_iff_eq.mp isZero)
        cases negative <;> exact ⟨rfl, by decide +kernel⟩
    next => exact ⟨rfl, rfl⟩
  rw [← (signless number).1, ← (signless number).2, same]
  exact signless number'

end Binary64

namespace Value

open Binary64 (nearest)

/-! ### Numbers that values denote -/

/-- The numbers that binary numbers and texts denote. Blanks at the ends of a text are no part of
the number. -/
def Denotes : Value → ℚ → Prop
  | .float amount, number => amount.isFinite = true ∧ number = amount.value
  | .text content, number => DenotesDecimal (trimmed content).toList number
  | _, _ => False

/-- A text denotes a 64-bit integer in the notation of integers. -/
def IsIntegerText : Value → Prop
  | .text content => ∃ integer : Int64, DenotesInteger (trimmed content).toList integer.toInt
  | _ => False

/-- A value is a binary number or a text. -/
def IsFloatOrText : Value → Prop
  | .float _ => True
  | .text _ => True
  | _ => False

variable {value : Value} {number : ℚ}

/-- A text of an integer that fits is taken for that integer. -/
theorem toInteger?_of_isIntegerText (denotes : value.Denotes number)
    (isInteger : value.IsIntegerText) :
    ∃ integer, value.toInteger? = some integer ∧ integer.toInt = truncated number := by
  cases value with
  | text content =>
    obtain ⟨integer, denotesInteger⟩ := isInteger
    have same : number = integer.toInt := denotes.unique denotesInteger.decimal
    refine ⟨integer, ?_, by rw [same, truncated_intCast]⟩
    show integerOfText? (trimmed content) = some integer
    unfold integerOfText?
    rw [readInt64?_eq_some_iff.mpr denotesInteger]
  | _ => exact isInteger.elim

/-- Every other number is rounded before it loses its fraction. -/
theorem toInteger?_of_denotes (denotes : value.Denotes number)
    (notInteger : ¬ value.IsIntegerText) :
    value.toInteger? =
      if (nearest number).isFinite then some (nearest number).truncate else none := by
  cases value with
  | float amount =>
    obtain ⟨finite, rfl⟩ := denotes
    cases amount with
    | notANumber | infinite => cases finite
    | finite negative rank =>
      obtain ⟨sameFinite, sameInteger⟩ :=
        Binary64.isFinite_of_withoutZeroSign (Binary64.withoutZeroSign_nearest_value negative rank)
      rw [sameFinite, sameInteger]
      rfl
  | text content =>
    obtain ⟨read, taken, same⟩ := Binary64.ofText?_of_denotes denotes
    obtain ⟨sameFinite, sameInteger⟩ := Binary64.isFinite_of_withoutZeroSign same
    have noInteger : readInt64? (trimmed content) = none :=
      Option.eq_none_iff_forall_ne_some.mpr fun integer is =>
        notInteger ⟨integer, readInt64?_eq_some_iff.mp is⟩
    show integerOfText? (trimmed content) = _
    unfold integerOfText?
    rw [noInteger, taken, ← sameFinite, ← sameInteger]
  | _ => exact denotes.elim

/-- What denotes no number is taken for no integer. -/
theorem toInteger?_eq_none (kind : value.IsFloatOrText)
    (denotesNone : ∀ number, ¬ value.Denotes number) : value.toInteger? = none := by
  cases value with
  | float amount =>
    show (if amount.isFinite then some amount.truncate else none) = none
    exact if_neg fun finite => denotesNone _ ⟨finite, rfl⟩
  | text content =>
    show integerOfText? (trimmed content) = none
    unfold integerOfText?
    cases integer : readInt64? (trimmed content) with
    | some integer' =>
      exact absurd (readInt64?_eq_some_iff.mp integer).decimal (denotesNone _)
    | none =>
      cases taken : Binary64.ofText? (trimmed content) with
      | none => rfl
      | some read =>
        refine if_neg fun finite => ?_
        obtain ⟨number, denotes⟩ := Binary64.denotes_of_ofText? taken finite
        exact denotesNone number denotes
  | _ => exact kind.elim

end Value

namespace ValueType

open Binary64 (nearest)

/-! ### Coercion -/

/-- A value is coerced into an integer faithfully to a number: only into the integer part of the
number, and not at all if that does not fit into 64 bits. -/
def Narrows (value : Value) (number : ℚ) : Prop :=
  (∀ result, integer.coerce value = .ok (.integer result) → result.toInt = truncated number) ∧
    (fitsInt64 (truncated number) = false →
      integer.coerce value = .error (.ofValue value "integer"))

theorem coerce_integer (value : Value) :
    integer.coerce value =
      value.toInteger?.elim (.error (.ofValue value "integer")) fun amount =>
        .ok (.integer amount) := rfl

theorem narrows_of_some {value : Value} {number : ℚ} {result : Int64}
    (taken : value.toInteger? = some result) :
    Narrows value number ↔ result.toInt = truncated number := by
  unfold Narrows
  rw [coerce_integer, taken]
  constructor
  · exact fun narrows => narrows.1 result rfl
  · refine fun same => ⟨?_, fun misfit => ?_⟩
    · rintro _ ⟨⟩
      exact same
    · rw [← same, fitsInt64_toInt] at misfit
      cases misfit

theorem narrows_of_none {value : Value} {number : ℚ} (taken : value.toInteger? = none) :
    Narrows value number := by
  unfold Narrows
  rw [coerce_integer, taken]
  exact ⟨nofun, fun _ => rfl⟩

/-- A binary number or a text that denotes no number is no integer. One that denotes a number is
coerced into the integer part or refused exactly if it is a text of an integer that fits, or
rounds to infinity, or rounds to a number with the same integer part when that is held within the
64-bit integers. -/
theorem coerce_integer_narrows_iff (value : Value) :
    (value.IsFloatOrText → (∀ number, ¬ value.Denotes number) →
        integer.coerce value = .error (.ofValue value "integer")) ∧
      ∀ number, value.Denotes number →
        (Narrows value number ↔
          value.IsIntegerText ∨ (nearest number).isFinite = false ∨
            heldInt64 (truncated (nearest number).value) = truncated number) := by
  refine ⟨fun kind denotesNone => ?_, fun number denotes => ?_⟩
  · rw [coerce_integer, Value.toInteger?_eq_none kind denotesNone]
    rfl
  by_cases isInteger : value.IsIntegerText
  · obtain ⟨result, taken, same⟩ := Value.toInteger?_of_isIntegerText denotes isInteger
    exact iff_of_true ((narrows_of_some taken).mpr same) (.inl isInteger)
  have taken := Value.toInteger?_of_denotes denotes isInteger
  cases finite : (nearest number).isFinite with
  | false =>
    rw [finite, if_neg Bool.false_ne_true] at taken
    exact iff_of_true (narrows_of_none taken) (.inr (.inl rfl))
  | true =>
    rw [finite, if_pos rfl] at taken
    rw [narrows_of_some taken, Binary64.toInt_truncate finite]
    simp only [isInteger, false_or, Bool.true_eq_false]

/-- A fraction is dropped. -/
theorem coerce_integer_narrows_iff_fraction :
    (Value.text " 7.9 ").Denotes (79 / 10) ∧ Narrows (.text " 7.9 ") (79 / 10) := by
  have denotes : (Value.text " 7.9 ").Denotes (79 / 10) :=
    denotesDecimal_iff.mpr ⟨⟨['7'], ['9'], 0⟩, rfl, by decide +kernel⟩
  exact ⟨denotes, ((coerce_integer_narrows_iff (.text " 7.9 ")).2 _ denotes).mpr
    (.inr (.inr (by decide +kernel)))⟩

/-- The text of the first integer that does not fit is not refused, and the text of a number that
lies between two numbers of the format is coerced into an integer part that is not its own. -/
theorem coerce_integer_not_narrows :
    ((Value.text "9223372036854775808").Denotes 9223372036854775808 ∧
      fitsInt64 (truncated 9223372036854775808) = false ∧
      integer.coerce (.text "9223372036854775808") = .ok (.integer 9223372036854775807)) ∧
    ((Value.text "9007199254740993.5").Denotes (18014398509481987 / 2) ∧
      truncated (18014398509481987 / 2) = 9007199254740993 ∧
      integer.coerce (.text "9007199254740993.5") = .ok (.integer 9007199254740994)) ∧
    ¬ Narrows (.text "9223372036854775808") 9223372036854775808 ∧
    ¬ Narrows (.text "9007199254740993.5") (18014398509481987 / 2) := by
  have beyond : (Value.text "9223372036854775808").Denotes 9223372036854775808 :=
    denotesDecimal_iff.mpr ⟨⟨"9223372036854775808".toList, [], 0⟩, rfl, by decide +kernel⟩
  have between : (Value.text "9007199254740993.5").Denotes (18014398509481987 / 2) :=
    denotesDecimal_iff.mpr ⟨⟨"9007199254740993".toList, ['5'], 0⟩, rfl, by decide +kernel⟩
  have held : (Value.text "9223372036854775808").toInteger? = some 9223372036854775807 := by
    decide +kernel
  have rounded : (Value.text "9007199254740993.5").toInteger? = some 9007199254740994 := by
    decide +kernel
  refine ⟨⟨beyond, by decide +kernel, ?_⟩, ⟨between, by decide +kernel, ?_⟩, ?_, ?_⟩
  · rw [coerce_integer, held]
    rfl
  · rw [coerce_integer, rounded]
    rfl
  · rw [narrows_of_some held]
    decide +kernel
  · rw [narrows_of_some rounded]
    decide +kernel

end ValueType

end Reckon
