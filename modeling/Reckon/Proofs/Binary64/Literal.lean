/-
This file shows that a number literal is read as the number it was written for,
if the number has no sign and, where it is whole, is below `10 ^ 15`. Below that
bound the whole numbers are written with a zero after the point. The numbers
that are not whole have a point in their shortest decimal, because each whole
number near them is a number of the format itself. From the bound on the whole
numbers are written as digits alone.
-/

import Reckon.Binary64.Text
import Reckon.Proofs.Binary64.ReadBack

namespace Reckon

/-! ### Digits -/

theorem digitsValue_eq (digits : List Char) :
    digitsValue digits = Nat.ofDigitChars 10 digits 0 := by
  unfold digitsValue
  rw [Nat.ofDigitChars_eq_foldl]

theorem digitsValue_digitsOf (number : Nat) : digitsValue (digitsOf number) = number := by
  rw [digitsValue_eq]
  exact Nat.ofDigitChars_ten_toDigits

theorem digitsValue_zeros_append (zeros : Nat) (digits : List Char) :
    digitsValue (List.replicate zeros '0' ++ digits) = digitsValue digits := by
  rw [digitsValue_eq, digitsValue_eq, Nat.ofDigitChars_append, Nat.ofDigitChars_replicate_zero,
    Nat.mul_zero]

theorem digitsValue_append_zeros (digits : List Char) (zeros : Nat) :
    digitsValue (digits ++ List.replicate zeros '0') = digitsValue digits * 10 ^ zeros := by
  rw [digitsValue_eq, digitsValue_eq, Nat.ofDigitChars_append, Nat.ofDigitChars_replicate_zero,
    Nat.mul_comm]

theorem digitsValue_append_zero (digits : List Char) :
    digitsValue (digits ++ ['0']) = 10 * digitsValue digits :=
  (digitsValue_append_zeros digits 1).trans (Nat.mul_comm _ 10)

theorem all_isDigit_digitsOf (number : Nat) : (digitsOf number).all Char.isDigit = true :=
  List.all_eq_true.mpr fun _ => isDigit_of_mem_digitsOf

theorem fitsInt64_toInt (integer : Int64) : fitsInt64 integer.toInt = true :=
  decide_eq_true ⟨Int64.le_toInt integer, Int64.toInt_le integer⟩

theorem toInt_ofInt_of_fits {number : Int} (fits : fitsInt64 number = true) :
    (Int64.ofInt number).toInt = number := by
  obtain ⟨low, high⟩ := of_decide_eq_true fits
  rw [Int64.toInt_minValue] at low
  rw [Int64.toInt_maxValue] at high
  exact Int64.toInt_ofInt_of_le low (Int.lt_of_le_sub_one high)

/-- Digits with a point between them, as a literal has them. -/
structure IsDecimalText (characters whole fraction : List Char) : Prop where
  parts : characters = whole ++ '.' :: fraction
  whole_ne_nil : whole ≠ []
  fraction_ne_nil : fraction ≠ []
  whole_digits : ∀ character ∈ whole, character.isDigit = true
  fraction_digits : ∀ character ∈ fraction, character.isDigit = true

/-- A decimal with places after its point is written with them. -/
theorem positional_fraction {decimal : DecimalDigits} (fraction : decimal.exponent < 0) :
    ∃ whole places, IsDecimalText decimal.positional whole places ∧
      digitsValue (whole ++ places) = decimal.digits ∧
      (places.length : Int) = -decimal.exponent := by
  have allDigits : ∀ character ∈ digitsOf decimal.digits, character.isDigit = true :=
    fun _ => isDigit_of_mem_digitsOf
  have value := digitsValue_digitsOf decimal.digits
  have notEmpty := digitsOf_ne_nil decimal.digits
  unfold DecimalDigits.positional
  dsimp only
  rw [if_neg (Int.not_le_of_gt fraction)]
  generalize digitsOf decimal.digits = digits at *
  split
  next inside =>
    have places : 0 < decimal.exponent.natAbs := by omega
    refine ⟨_, _, ⟨rfl, ?_, ?_, ?_, ?_⟩, ?_, ?_⟩
    · refine List.ne_nil_of_length_pos ?_
      rw [List.length_take]
      omega
    · refine List.ne_nil_of_length_pos ?_
      rw [List.length_drop]
      omega
    · exact fun character member => allDigits character (List.mem_of_mem_take member)
    · exact fun character member => allDigits character (List.mem_of_mem_drop member)
    · rw [List.take_append_drop, value]
    · rw [List.length_drop]
      omega
  next outside =>
    refine ⟨['0'], _, ⟨rfl, nofun, ?_, ?_, ?_⟩, ?_, ?_⟩
    · exact fun empty => notEmpty (List.append_eq_nil_iff.mp empty).2
    · intro character member
      rw [List.mem_singleton.mp member]
      rfl
    · intro character member
      rcases List.mem_append.mp member with zero | digit
      · rw [(List.mem_replicate.mp zero).2]
        rfl
      · exact allDigits character digit
    · show digitsValue (List.replicate 1 '0' ++ (_ ++ digits)) = _
      rw [digitsValue_zeros_append, digitsValue_zeros_append, value]
    · rw [List.length_append, List.length_replicate]
      omega

/-- A decimal with places before its point only is written as digits. -/
theorem positional_whole {decimal : DecimalDigits} (whole : 0 ≤ decimal.exponent) :
    decimal.positional.all Char.isDigit = true ∧ decimal.positional ≠ [] ∧
      digitsValue decimal.positional = decimal.digits * 10 ^ decimal.exponent.toNat := by
  have text : decimal.positional =
      digitsOf decimal.digits ++ List.replicate decimal.exponent.toNat '0' := by
    unfold DecimalDigits.positional
    exact if_pos whole
  rw [text]
  refine ⟨?_, fun empty => digitsOf_ne_nil _ (List.append_eq_nil_iff.mp empty).1, ?_⟩
  · rw [List.all_append, all_isDigit_digitsOf, Bool.true_and]
    refine List.all_eq_true.mpr fun character member => ?_
    rw [(List.mem_replicate.mp member).2]
    rfl
  · rw [digitsValue_append_zeros, digitsValue_digitsOf]

namespace Binary64

/-! ### Whole numbers -/

/-- The whole numbers below `2 ^ 53` are numbers of the format. -/
theorem exists_unitsOfRank_eq {number : Nat} (small : number < 2 ^ 53) :
    ∃ rank, unitsOfRank rank = number * one := by
  rcases Nat.eq_zero_or_pos number with rfl | positive
  · exact ⟨0, (Nat.zero_mul one).symm⟩
  · obtain ⟨power, value, one_eq⟩ := exists_one_eq
    have nonzero := Nat.ne_of_gt positive
    have leading := Nat.log2_self_le nonzero
    have trailing : number < 2 ^ (number.log2 + 1) := Nat.lt_log2_self
    have size : number.log2 < 53 := (Nat.log2_lt nonzero).mpr small
    -- The number is brought into the octave of multiples with as many binary digits as fit.
    have low : octave ≤ number * 2 ^ (52 - number.log2) := by
      have product := Nat.mul_le_mul_right (2 ^ (52 - number.log2)) leading
      rw [← Nat.pow_add, Nat.add_sub_cancel' (by omega)] at product
      exact product
    have high : number * 2 ^ (52 - number.log2) ≤ 2 * octave := by
      have product := Nat.mul_le_mul_right (2 ^ (52 - number.log2)) (Nat.le_of_lt trailing)
      rw [← Nat.pow_add, show number.log2 + 1 + (52 - number.log2) = 53 by omega] at product
      exact product
    refine ⟨(power - (52 - number.log2)) * octave + number * 2 ^ (52 - number.log2), ?_⟩
    rw [unitsOfRank_scaled (.inr low) high, one_eq, Nat.mul_assoc, ← Nat.pow_add,
      Nat.add_sub_cancel' (by omega)]

/-- Rounding a whole number below `2 ^ 53` changes nothing. -/
theorem unitsOfRank_nearestRank {number : Nat} (small : number < 2 ^ 53) :
    unitsOfRank (nearestRank (number * one) 1) = number * one := by
  obtain ⟨rank, same⟩ := exists_unitsOfRank_eq small
  have within := within_self rank Nat.one_pos
  rw [Nat.mul_one, same] at within
  rw [nearestRank_of_within within Nat.one_pos, same]

variable {rank : Nat}

/-- A number that is not whole lies below `2 ^ 53`, and so does the next number. -/
theorem unitsOfRank_succ_le_of_not_dvd (notWhole : ¬ one ∣ unitsOfRank rank) :
    unitsOfRank (rank + 1) ≤ 2 ^ 53 * one := by
  obtain ⟨power, value, one_eq⟩ := exists_one_eq
  obtain ⟨shift, multiple, rfl, low, high⟩ := exists_scaled rank
  rw [unitsOfRank_scaled low (Nat.le_of_lt high), one_eq] at notWhole
  have small : shift < power := Nat.lt_of_not_le fun large =>
    notWhole (Nat.dvd_trans (Nat.pow_dvd_pow 2 large) (Nat.dvd_mul_left _ multiple))
  rw [Nat.add_assoc, unitsOfRank_scaled (low.imp id (by omega)) high, one_eq]
  exact Nat.mul_le_mul high (Nat.pow_le_pow_right (by decide) (Nat.le_of_lt small))

/-- A decimal without places after its point reads back as a whole number, as long as the
magnitude is not too large. -/
theorem dvd_of_readsBack {digits : Nat} {exponent : Int} (whole : 0 ≤ exponent)
    (reads : readsBack rank digits exponent = true)
    (bound : unitsOfRank (rank + 1) ≤ 2 ^ 53 * one) : one ∣ unitsOfRank rank := by
  have within := within_of_readsBack_whole whole reads
  generalize digits * Nat.pow 10 exponent.natAbs = number at within
  have upper := within.2.1
  have step := unitsOfRank_lt_succ rank
  have small : number < 2 ^ 53 := Nat.lt_of_mul_lt_mul_right (a := one) (by omega)
  have same := unitsOfRank_nearestRank small
  rw [nearestRank_of_within within Nat.one_pos] at same
  exact ⟨number, by rw [same, Nat.mul_comm]⟩

/-- A grid of whole numbers has every whole magnitude as a multiple. -/
theorem onGrid_zero_ne_none (tie : TieRule) (whole : one ∣ unitsOfRank rank) :
    onGrid tie rank 0 ≠ none := by
  refine onGrid_ne_none_of_dvd tie rank ?_
  rw [gridStep_whole (Int.le_refl 0), Int.natAbs_zero, Nat.pow_eq, Nat.pow_zero]
  exact Nat.mul_dvd_mul (Nat.mul_dvd_mul_left 2 whole) (Nat.dvd_refl 1)

/-- The search does not go down to places after the point for a whole magnitude. -/
theorem exponent_coarsestGrid (tie : TieRule) (whole : one ∣ unitsOfRank rank) :
    ∀ {steps : Nat} {exponent : Int}, 0 ≤ exponent → exponent < steps →
      0 ≤ (coarsestGrid tie rank steps exponent).exponent := by
  intro steps
  induction steps with
  | zero =>
    intro exponent start enough
    omega
  | succ steps inductionHypothesis =>
    intro exponent start enough
    unfold coarsestGrid
    cases found : onGrid tie rank exponent with
    | some digits => exact start
    | none =>
      have later : exponent ≠ 0 := by
        rintro rfl
        exact onGrid_zero_ne_none tie whole found
      exact inductionHypothesis (by omega) (by omega)

/-- The shortest decimal of a whole magnitude other than zero has no places after the point. -/
theorem exponent_shortest (tie : TieRule) (whole : one ∣ unitsOfRank rank)
    (large : one ≤ unitsOfRank rank) : 0 ≤ (shortest tie rank).exponent := by
  obtain ⟨power, value, one_eq⟩ := exists_one_eq
  have size : power ≤ (unitsOfRank rank).log2 :=
    (Nat.le_log2 (by have := one_pos; omega)).mpr (one_eq ▸ large)
  have start : 0 ≤ firstGrid rank := by
    unfold firstGrid
    dsimp only
    split <;> omega
  exact exponent_coarsestGrid tie whole start (by omega)

/-! ### Literals -/

/-- The number `10 ^ 15` is finite, and its place is its rank. -/
theorem place?_wholeLimit :
    (ofNat (Nat.pow 10 15)).place? = some (nearestRank (Nat.pow 10 15 * one) 1 : Int) := by
  unfold ofNat ofRatio ofUnits ofRank
  rw [dif_pos (by decide +kernel)]
  rfl

/-- A number without a sign below `10 ^ 15` is finite, and its rank is less than that of the
bound. -/
theorem exists_rank_of_less {number : Binary64} (unsigned : number.isNegative = false)
    (bounded : number.less (.ofNat (Nat.pow 10 15)) = true) :
    ∃ rank : Fin rankLimit, number = .finite false rank ∧
      rank.val < nearestRank (Nat.pow 10 15 * one) 1 := by
  unfold less at bounded
  rw [place?_wholeLimit] at bounded
  cases number with
  | notANumber => cases bounded
  | infinite negative =>
    obtain rfl : negative = false := unsigned
    have below : (rankLimit : Int) < nearestRank (Nat.pow 10 15 * one) 1 :=
      of_decide_eq_true bounded
    exact absurd below (by decide +kernel)
  | finite negative rank =>
    obtain rfl : negative = false := unsigned
    exact ⟨rank, rfl, Int.ofNat_lt.mp (of_decide_eq_true bounded)⟩

theorem ofRank_val (negative : Bool) (rank : Fin rankLimit) :
    ofRank negative rank = .finite negative rank :=
  dif_pos rank.isLt

/-- The digits of a whole number with a zero after the point are read as the number. -/
theorem ofDecimalText_integerPart {rank : Fin rankLimit} (whole : one ∣ unitsOfRank rank) :
    ofDecimalText false ⟨digitsOf (unitsOfRank rank / one), ['0'], 0⟩ = .finite false rank := by
  obtain ⟨number, units⟩ := whole
  unfold ofDecimalText
  rw [digitsValue_append_zero, digitsValue_digitsOf, units, Nat.mul_div_cancel_left _ one_pos,
    ← ofRank_val]
  show ofDecimal false (10 * number) (-1) = _
  unfold ofDecimal
  by_cases zero : 10 * number = 0
  · rw [if_pos zero]
    congr 1
    refine (Nat.eq_zero_of_not_pos fun positive => ?_).symm
    have unitsPositive := unitsOfRank_pos positive
    rw [units, show number = 0 by omega, Nat.mul_zero] at unitsPositive
    exact absurd unitsPositive (Nat.lt_irrefl 0)
  · rw [if_neg zero, if_neg (by decide), if_neg (by omega), if_pos (by decide)]
    have within := within_self rank (show 0 < Nat.pow 10 (Int.natAbs (-1)) by decide)
    rw [units, show one * number * Nat.pow 10 (Int.natAbs (-1)) = 10 * number * one by
      rw [Nat.mul_comm, Nat.mul_comm one, ← Nat.mul_assoc]; rfl] at within
    unfold ofRatio ofUnits
    rw [nearestRank_of_within within (by decide)]

/-- The shortest decimal of a number that is not whole is written with a point, and it is read as
the number. -/
theorem positionalText_reads {rank : Fin rankLimit} (notWhole : ¬ one ∣ unitsOfRank rank) :
    ∃ whole fraction, IsDecimalText (positionalText rank) whole fraction ∧
      ofDecimalText false ⟨whole, fraction, 0⟩ = .finite false rank := by
  have nonzero : rank.val ≠ 0 := fun zero => by
    rw [zero] at notWhole
    exact notWhole (Nat.dvd_zero one)
  have positive := Nat.pos_of_ne_zero nonzero
  obtain ⟨reads, -⟩ := shortest_readsBack .up positive rank.isLt
  have bound := unitsOfRank_succ_le_of_not_dvd notWhole
  have point : (shortest .up rank).exponent < 0 :=
    Int.not_le.mp fun whole => notWhole (dvd_of_readsBack whole reads bound)
  obtain ⟨whole, fraction, text, value, places⟩ := positional_fraction point
  unfold positionalText
  rw [if_neg nonzero]
  refine ⟨whole, fraction, text, ?_⟩
  unfold ofDecimalText
  dsimp only
  rw [value, places, Int.zero_sub, Int.neg_neg, ofDecimal_shortest .up false positive rank.isLt,
    ofRank_val]

theorem isWhole_finite_iff {negative : Bool} {rank : Fin rankLimit} :
    isWhole (.finite negative rank) = true ↔ one ∣ unitsOfRank rank := by
  unfold isWhole
  rw [Bool.and_eq_true, beq_iff_eq]
  exact ⟨fun whole => Nat.dvd_of_mod_eq_zero whole.2,
    fun whole => ⟨rfl, Nat.mod_eq_zero_of_dvd whole⟩⟩

/-- The text of a finite number without a sign is digits with a point, if the number is not whole or
is below `10 ^ 15`, and they are read as the number. -/
theorem literalText_reads_of_short {rank : Fin rankLimit}
    (short : isWhole (.finite false rank) = true → isShortWhole (.finite false rank) = true) :
    ∃ whole fraction, IsDecimalText (literalText (.finite false rank)).toList whole fraction ∧
      ofDecimalText false ⟨whole, fraction, 0⟩ = .finite false rank := by
  unfold literalText
  by_cases whole : isWhole (.finite false rank) = true
  · rw [if_pos (short whole), String.toList_ofList]
    refine ⟨_, ['0'], ⟨rfl, digitsOf_ne_nil _, nofun, fun _ => isDigit_of_mem_digitsOf, ?_⟩,
      ofDecimalText_integerPart (isWhole_finite_iff.mp whole)⟩
    intro character member
    rw [List.mem_singleton.mp member]
    rfl
  · have long : ¬ isShortWhole (.finite false rank) = true :=
      fun short => whole (Bool.and_eq_true_iff.mp short).1
    rw [if_neg long]
    unfold plainText
    rw [String.toList_ofList]
    exact positionalText_reads fun divides => whole (isWhole_finite_iff.mpr divides)

/-- A whole number without a sign is below `10 ^ 15` exactly if its text is that of an integer with
a zero after the point. -/
theorem isShortWhole_iff_less {rank : Fin rankLimit} (whole : isWhole (.finite false rank) = true) :
    isShortWhole (.finite false rank) = true ↔
      less (.finite false rank) (.ofNat (Nat.pow 10 15)) = true := by
  have limit : unitsOfRank (nearestRank (Nat.pow 10 15 * one) 1) = Nat.pow 10 15 * one :=
    unitsOfRank_nearestRank (by decide)
  unfold isShortWhole
  rw [whole, Bool.true_and, decide_eq_true_iff]
  show unitsOfRank rank < Nat.pow 10 15 * one ↔ _
  constructor
  · intro short
    have below : rank.val < nearestRank (Nat.pow 10 15 * one) 1 := by
      refine Nat.lt_of_not_le fun above => ?_
      have large := unitsOfRank_mono above
      omega
    unfold less
    rw [place?_wholeLimit]
    exact decide_eq_true (Int.ofNat_lt.mpr below)
  · intro bounded
    obtain ⟨_, same, below⟩ := exists_rank_of_less rfl bounded
    cases same
    rw [← limit]
    exact unitsOfRank_lt below

/-- The text of a number that has no sign and is below `10 ^ 15` is digits with a point, and
they are read as the number. -/
theorem literalText_reads {number : Binary64} (unsigned : number.isNegative = false)
    (bounded : number.less (.ofNat (Nat.pow 10 15)) = true) :
    ∃ whole fraction, IsDecimalText number.literalText.toList whole fraction ∧
      ofDecimalText false ⟨whole, fraction, 0⟩ = number := by
  obtain ⟨rank, rfl, -⟩ := exists_rank_of_less unsigned bounded
  exact literalText_reads_of_short fun whole => (isShortWhole_iff_less whole).mpr bounded

/-- The text of a whole number without a sign from `10 ^ 15` on has no point. -/
theorem literalText_of_long {rank : Fin rankLimit} (whole : isWhole (.finite false rank) = true)
    (long : ¬ isShortWhole (.finite false rank) = true) :
    (literalText (.finite false rank)).toList ≠ [] ∧
      ∀ character ∈ (literalText (.finite false rank)).toList, character.isDigit = true := by
  have bound : Nat.pow 10 15 * one ≤ unitsOfRank rank := by
    refine Nat.le_of_not_lt fun small => long ?_
    unfold isShortWhole
    rw [whole, Bool.true_and]
    exact decide_eq_true small
  have large : one ≤ unitsOfRank rank :=
    Nat.le_trans (Nat.le_mul_of_pos_left one (by decide)) bound
  have nonzero : rank.val ≠ 0 := fun zero => by
    rw [zero] at large
    exact absurd large (Nat.not_le_of_lt one_pos)
  have exponent := exponent_shortest .up (isWhole_finite_iff.mp whole) large
  have text : (literalText (.finite false rank)).toList = (shortest .up rank).positional := by
    unfold literalText
    rw [if_neg long]
    show (String.ofList (positionalText rank)).toList = _
    unfold positionalText
    rw [if_neg nonzero, String.toList_ofList]
  obtain ⟨areDigits, nonempty, -⟩ := positional_whole exponent
  rw [text]
  exact ⟨nonempty, List.all_eq_true.mp areDigits⟩

end Binary64

end Reckon
