/-
This file shows that truth values and numbers survive the trip through text.
Such a value is coerced into a text, and the text back into the type the value
has: what comes back equals the value.

What is shown for an integer is its digits. A whole number below `10 ^ 15` is
shown as an integer too, and its value is that integer; every other finite
number is shown as its shortest decimal, which rounds to the number. Either way
the text denotes a decimal, and the reader rounds what a text denotes. It does
not see which way the digits were found, so the bound plays no part in it. Only
the sign of a zero is lost, and the zeros are equal.
-/

import Reckon.Proofs.Token.Words
import Reckon.Proofs.Function.Notation
import Reckon.Proofs.Value.Narrowing

namespace Reckon

/-! ### Blanks -/

theorem not_isBlank_of_digits {digits : List Char} (areDigits : digits.all Char.isDigit = true) :
    ∀ character ∈ digits, isBlank character = false := fun character member =>
  isBlank_of_isDigit (List.all_eq_true.mp areDigits character member)

theorem WithSign.not_isBlank {rest characters : List Char} {negative : Bool}
    (signed : WithSign rest negative characters)
    (plain : ∀ character ∈ rest, isBlank character = false) :
    ∀ character ∈ characters, isBlank character = false := by
  cases signed with
  | minus | plus => exact List.forall_mem_cons.mpr ⟨by decide, plain⟩
  | unsigned => exact plain

theorem WithPoint.not_isBlank {fraction characters : List Char}
    (pointed : WithPoint fraction characters) (areDigits : fraction.all Char.isDigit = true) :
    ∀ character ∈ characters, isBlank character = false := by
  cases pointed with
  | none => exact nofun
  | point => exact List.forall_mem_cons.mpr ⟨by decide, not_isBlank_of_digits areDigits⟩

theorem DenotesExponent.not_isBlank {characters : List Char} {exponent : Int}
    (denotes : DenotesExponent characters exponent) :
    ∀ character ∈ characters, isBlank character = false := by
  cases denotes with
  | none => exact nofun
  | marked isMark denotes =>
    obtain ⟨negative, digits, signed, ⟨-, areDigits⟩, -⟩ := denotes
    refine List.forall_mem_cons.mpr ⟨?_, signed.not_isBlank (not_isBlank_of_digits areDigits)⟩
    rcases isMark with rfl | rfl <;> decide

/-- There are no blanks among the characters of a decimal. -/
theorem DenotesDecimal.not_isBlank {characters : List Char} {number : ℚ}
    (denotes : DenotesDecimal characters number) :
    ∀ character ∈ characters, isBlank character = false := by
  obtain ⟨negative, rest, text, signed, written, -⟩ := denotes
  obtain ⟨point, power, rfl, whole, fraction, -, pointed, exponent⟩ := written
  exact signed.not_isBlank (List.forall_mem_append.mpr ⟨not_isBlank_of_digits whole,
    List.forall_mem_append.mpr ⟨pointed.not_isBlank fraction, exponent.not_isBlank⟩⟩)

theorem trimmed_of_denotes {content : String} {number : ℚ}
    (denotes : DenotesDecimal content.toList number) : trimmed content = content := by
  have notBlank := denotes.not_isBlank
  unfold trimmed
  rw [FunctionDefinition.trimBlanks_eq_self
    (fun first head => notBlank first (List.mem_of_mem_head? head))
    fun last tail => notBlank last (List.mem_of_mem_getLast? tail), String.ofList_toList]

/-! ### The texts of numbers -/

/-- The text of an integer denotes the integer. -/
theorem denotesInteger_toString (number : Int) :
    DenotesInteger (toString number).toList number := by
  cases number with
  | ofNat magnitude =>
    refine ⟨false, digitsOf magnitude, ?_, ⟨digitsOf_ne_nil _, all_isDigit_digitsOf _⟩, ?_⟩
    · rw [← toList_toString]
      exact .unsigned
    · rw [digitsValue_digitsOf]
      rfl
  | negSucc magnitude =>
    refine ⟨true, digitsOf (magnitude + 1), ?_, ⟨digitsOf_ne_nil _, all_isDigit_digitsOf _⟩, ?_⟩
    · show WithSign _ true ("-" ++ toString (magnitude + 1)).toList
      rw [String.toList_append, toList_toString]
      exact .minus
    · rw [digitsValue_digitsOf]
      rfl

theorem withSign_signText (negative : Bool) (rest : List Char) :
    WithSign rest negative (signText negative ++ rest) := by
  cases negative
  · exact .unsigned
  · exact .minus

/-- A decimal written out is a decimal text of the same value. -/
theorem writtenAs_positional (decimal : DecimalDigits) :
    ∃ text : DecimalText, text.WrittenAs decimal.positional ∧
      text.value = decimal.digits * 10 ^ decimal.exponent := by
  rcases Int.lt_or_le decimal.exponent 0 with fraction | whole
  · obtain ⟨whole, places, text, digits, length⟩ := positional_fraction fraction
    refine ⟨⟨whole, places, 0⟩, ⟨'.' :: places, [], ?_, List.all_eq_true.mpr text.whole_digits,
      List.all_eq_true.mpr text.fraction_digits, ?_, .point places, .none⟩, ?_⟩
    · rw [List.append_nil, text.parts]
    · exact fun empty => text.whole_ne_nil (List.append_eq_nil_iff.mp empty).1
    · unfold DecimalText.value
      dsimp only
      rw [digits, length, Int.zero_sub, Int.neg_neg]
  · obtain ⟨areDigits, nonempty, digits⟩ := positional_whole whole
    refine ⟨⟨decimal.positional, [], 0⟩, ⟨[], [], (List.append_nil _).symm, areDigits, rfl, ?_,
      .none, .none⟩, ?_⟩
    · rwa [List.append_nil]
    · unfold DecimalText.value
      obtain ⟨power, exponent⟩ := Int.eq_ofNat_of_zero_le whole
      rw [List.append_nil, digits, exponent, List.length_nil, Nat.cast_zero, sub_zero, zpow_zero,
        mul_one, Int.toNat_natCast, zpow_natCast, Nat.cast_mul, Nat.cast_pow, Nat.cast_ofNat]

theorem denotesDecimal_positional (negative : Bool) (decimal : DecimalDigits) :
    DenotesDecimal (signText negative ++ decimal.positional)
      (Binary64.signed negative (decimal.digits * 10 ^ decimal.exponent)) := by
  obtain ⟨text, written, value⟩ := writtenAs_positional decimal
  exact ⟨negative, _, text, withSign_signText negative _, written, by rw [value]⟩

namespace Binary64

/-- A whole number below `10 ^ 15` has the value of the integer it is shown as. -/
theorem value_eq_truncate {negative : Bool} {rank : Fin rankLimit}
    (short : isShortWhole (.finite negative rank) = true) :
    value (.finite negative rank) = (truncate (.finite negative rank)).toInt := by
  obtain ⟨whole, small⟩ := Bool.and_eq_true_iff.mp short
  obtain ⟨magnitude, units⟩ := isWhole_finite_iff.mp whole
  have bound : magnitude < Nat.pow 10 15 := by
    refine Nat.lt_of_mul_lt_mul_right (a := one) ?_
    rw [Nat.mul_comm, ← units]
    exact of_decide_eq_true small
  have denoted : value (.finite negative rank) =
      ((if negative then -(magnitude : Int) else magnitude : Int) : ℚ) := by
    rw [value_finite, units, Nat.cast_mul,
      mul_div_cancel_left₀ _ (Nat.cast_ne_zero.mpr (Nat.ne_of_gt one_pos))]
    cases negative <;> simp [signed]
  have held : ∀ number : Int, number.natAbs < Nat.pow 10 15 → heldInt64 number = number := by
    intro number small
    have limit : Nat.pow 10 15 = 1000000000000000 := rfl
    unfold heldInt64
    rw [Int64.toInt_minValue, Int64.toInt_maxValue]
    omega
  rw [toInt_truncate rfl, denoted, truncated_intCast, held]
  cases negative <;> simpa using bound

/-- What is shown of a finite number denotes a decimal that is rounded to the number. -/
theorem exists_denotes_shownText (negative : Bool) (rank : Fin rankLimit) :
    ∃ number, DenotesDecimal (shownText (.finite negative rank)).toList number ∧
      (nearest number).withoutZeroSign = (Binary64.finite negative rank).withoutZeroSign := by
  unfold shownText
  split
  next short =>
    refine ⟨_, (denotesInteger_toString _).decimal, ?_⟩
    rw [← value_eq_truncate short, withoutZeroSign_nearest_value]
  next =>
    unfold plainText positionalText
    rw [String.toList_ofList]
    split
    next zero =>
      refine ⟨_, denotesDecimal_positional negative ⟨0, 0⟩, ?_⟩
      rw [← withoutZeroSign_ofDecimal, ← ofRank_val, zero]
      rfl
    next nonzero =>
      refine ⟨_, denotesDecimal_positional negative (shortest .up rank), ?_⟩
      rw [← withoutZeroSign_ofDecimal,
        ofDecimal_shortest .up negative (Nat.pos_of_ne_zero nonzero) rank.isLt, ofRank_val]

/-- What is shown of a number is read as the number, but for the sign of zero. -/
theorem ofText?_shownText {number : Binary64} (isNumber : number ≠ .notANumber) :
    ∃ read, ofText? (trimmed number.shownText) = some read ∧
      read.withoutZeroSign = number.withoutZeroSign := by
  cases number with
  | notANumber => exact absurd rfl isNumber
  | infinite negative => exact ⟨.infinite negative, by cases negative <;> decide +kernel, rfl⟩
  | finite negative rank =>
    obtain ⟨number, denotes, rounded⟩ := exists_denotes_shownText negative rank
    obtain ⟨read, taken, same⟩ := ofText?_of_denotes denotes
    exact ⟨read, by rw [trimmed_of_denotes denotes, taken], same.trans rounded⟩

/-! ### Equality -/

theorem place?_withoutZeroSign (number : Binary64) :
    number.withoutZeroSign.place? = number.place? := by
  unfold withoutZeroSign
  split
  next isZero =>
    cases number with
    | notANumber | infinite => cases isZero
    | finite negative rank =>
      obtain rfl : rank = ⟨0, by decide⟩ := Fin.ext (beq_iff_eq.mp isZero)
      cases negative <;> rfl
  next => rfl

/-- Numbers that differ in the sign of zero at most are equal. -/
theorem equals_of_withoutZeroSign {number number' : Binary64} (isNumber : number ≠ .notANumber)
    (same : number.withoutZeroSign = number'.withoutZeroSign) :
    number.equals number' = true := by
  obtain ⟨place, has⟩ : ∃ place, number.place? = some place := by
    cases number with
    | notANumber => exact absurd rfl isNumber
    | infinite | finite => exact ⟨_, rfl⟩
  have has' : number'.place? = some place := by
    rw [← place?_withoutZeroSign, ← same, place?_withoutZeroSign, has]
  unfold equals
  rw [has, has']
  exact beq_self_eq_true place

end Binary64

/-! ### Values -/

namespace ValueType

theorem coerce_boolean (value : Value) :
    boolean.coerce value =
      value.toTruth?.elim (.error (.ofValue value "boolean")) fun truth =>
        .ok (.boolean truth) := rfl

theorem coerce_number (value : Value) :
    number.coerce value =
      value.toNumber?.elim (.error (.ofValue value "number")) fun amount =>
        .ok (.float amount) := rfl

end ValueType

namespace Value

/-- The built-in type of a truth value or a number. -/
def scalarType? : Value → Option ValueType
  | .boolean _ => some .boolean
  | .integer _ => some .integer
  | .float _ => some .number
  | _ => none

/-- A value is coerced into a text, and the text into a value of a type that equals it. -/
def SurvivesText (value : Value) (type : ValueType) : Prop :=
  ∃ content back, ValueType.text.coerce value = .ok (.text content) ∧
    type.coerce (.text content) = .ok back ∧ value.equals back = true

/-- What is shown of a truth value is taken for that truth value. -/
theorem toTruth?_shown (truth : Bool) :
    toTruth? (.text (Value.boolean truth).shown) = some truth := by
  cases truth <;> decide +kernel

/-- What is shown of an integer is taken for that integer, whatever its size. -/
theorem toInteger?_shown (number : Int64) :
    toInteger? (.text (Value.integer number).shown) = some number := by
  have denotes := denotesInteger_toString number.toInt
  show integerOfText? (trimmed (toString number.toInt)) = some number
  unfold integerOfText?
  rw [trimmed_of_denotes denotes.decimal, readInt64?_eq_some_iff.mpr denotes]

/-- What is shown of a number is taken for a number equal to it. -/
theorem toNumber?_shown {number : Binary64} (isNumber : number ≠ .notANumber) :
    ∃ read, toNumber? (.text (Value.float number).shown) = some read ∧
      number.equals read = true := by
  obtain ⟨read, taken, same⟩ := Binary64.ofText?_shownText isNumber
  exact ⟨read, taken, Binary64.equals_of_withoutZeroSign isNumber same.symm⟩

/-- Truth values and numbers survive the trip through text. -/
theorem survivesText {value : Value} {type : ValueType} (scalar : value.scalarType? = some type)
    (isNumber : value ≠ .float .notANumber) : value.SurvivesText type := by
  refine ⟨value.shown, ?_⟩
  cases value with
  | boolean truth =>
    obtain rfl := Option.some.inj scalar
    refine ⟨.boolean truth, rfl, ?_, beq_self_eq_true truth⟩
    rw [ValueType.coerce_boolean, toTruth?_shown]
    rfl
  | integer number =>
    obtain rfl := Option.some.inj scalar
    refine ⟨.integer number, rfl, ?_, beq_self_eq_true number⟩
    rw [ValueType.coerce_integer, toInteger?_shown]
    rfl
  | float number =>
    obtain rfl := Option.some.inj scalar
    obtain ⟨read, taken, equal⟩ :=
      toNumber?_shown fun notANumber => isNumber (congrArg Value.float notANumber)
    refine ⟨.float read, rfl, ?_, equal⟩
    rw [ValueType.coerce_number, taken]
    rfl
  | null | text | domain => cases scalar

/-- The least integer survives, and so do the negative zero, an infinity and the bound from which
whole numbers are no longer shown as integers. -/
theorem survivesText_bounds :
    (Value.integer Int64.minValue).SurvivesText .integer ∧
    (Value.float (.finite true ⟨0, by decide⟩)).SurvivesText .number ∧
    (Value.float (.infinite true)).SurvivesText .number ∧
    (Value.float (.ofNat (Nat.pow 10 15))).SurvivesText .number :=
  ⟨survivesText rfl (by decide), survivesText rfl (by decide), survivesText rfl (by decide),
    survivesText rfl (by decide +kernel)⟩

end Value

end Reckon
