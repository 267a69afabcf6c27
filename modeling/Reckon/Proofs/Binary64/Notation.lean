/-
This file says which characters denote integers and decimals, and that the
readers of numbers read just these. A decimal has a sign or none, digits,
perhaps with a point before, after or between them, and perhaps an exponent,
which is an integer with a mark before it. The value of a decimal is exact; the
reader rounds it.
-/

import Reckon.Proofs.Binary64.Literal
import Reckon.Proofs.Binary64.Values

namespace Reckon

/-! ### Notations -/

/-- Characters after a sign, or after none. -/
inductive WithSign (rest : List Char) : Bool → List Char → Prop where
  | minus : WithSign rest true ('-' :: rest)
  | plus : WithSign rest false ('+' :: rest)
  | unsigned : WithSign rest false rest

/-- Characters denote an integer: digits, perhaps after a sign. -/
def DenotesInteger (characters : List Char) (number : Int) : Prop :=
  ∃ negative digits, WithSign digits negative characters ∧
    (digits ≠ [] ∧ digits.all Char.isDigit = true) ∧
    number = if negative then -(digitsValue digits : Int) else digitsValue digits

/-- Characters denote an exponent: nothing, or a mark and an integer. -/
inductive DenotesExponent : List Char → Int → Prop where
  | none : DenotesExponent [] 0
  | marked {mark : Char} {characters : List Char} {exponent : Int} : mark = 'e' ∨ mark = 'E' →
      DenotesInteger characters exponent → DenotesExponent (mark :: characters) exponent

/-- Characters are nothing, or a point and the digits of a fraction. -/
inductive WithPoint : List Char → List Char → Prop where
  | none : WithPoint [] []
  | point (fraction : List Char) : WithPoint fraction ('.' :: fraction)

namespace DecimalText

/-- Characters write a decimal text without a sign. -/
def WrittenAs (text : DecimalText) (characters : List Char) : Prop :=
  ∃ point power, characters = text.whole ++ (point ++ power) ∧
    text.whole.all Char.isDigit = true ∧ text.fraction.all Char.isDigit = true ∧
    text.whole ++ text.fraction ≠ [] ∧ WithPoint text.fraction point ∧
    DenotesExponent power text.exponent

/-- The number that a decimal text denotes. -/
def value (text : DecimalText) : ℚ :=
  digitsValue (text.whole ++ text.fraction) * 10 ^ (text.exponent - text.fraction.length)

end DecimalText

/-- Characters denote a decimal number. -/
def DenotesDecimal (characters : List Char) (number : ℚ) : Prop :=
  ∃ negative rest text, WithSign rest negative characters ∧
    DecimalText.WrittenAs text rest ∧ number = Binary64.signed negative text.value

/-! ### Signs -/

theorem withSign_splitSign (characters : List Char) :
    WithSign (splitSign characters).2 (splitSign characters).1 characters := by
  unfold splitSign
  split
  · exact .minus
  · exact .plus
  · exact .unsigned

/-- Characters that begin with neither sign. -/
def BeginsUnsigned (characters : List Char) : Prop :=
  ∀ sign, sign = '-' ∨ sign = '+' → ∀ rest, characters ≠ sign :: rest

theorem splitSign_of_withSign {rest characters : List Char} {negative : Bool}
    (signed : WithSign rest negative characters) (unsigned : BeginsUnsigned rest) :
    splitSign characters = (negative, rest) := by
  cases signed with
  | minus | plus => rfl
  | unsigned =>
    unfold splitSign
    split
    next rest => exact absurd rfl (unsigned '-' (.inl rfl) rest)
    next rest => exact absurd rfl (unsigned '+' (.inr rfl) rest)
    next => rfl

theorem beginsUnsigned_of_head {first : Char} {rest : List Char}
    (plain : first.isDigit = true ∨ first = '.') : BeginsUnsigned (first :: rest) := by
  rintro sign (rfl | rfl) more same <;> obtain ⟨rfl, -⟩ := List.cons.inj same
  all_goals exact absurd plain (by decide)

theorem beginsUnsigned_digits {digits : List Char} (nonempty : digits ≠ [])
    (all : digits.all Char.isDigit = true) : BeginsUnsigned digits := by
  obtain ⟨first, rest, rfl⟩ := List.exists_cons_of_ne_nil nonempty
  exact beginsUnsigned_of_head (.inl (List.all_eq_true.mp all first List.mem_cons_self))

/-! ### Integers -/

/-- Characters denote an integer if the reader splits a sign off digits. -/
theorem denotesInteger_iff {characters : List Char} {number : Int} :
    DenotesInteger characters number ↔
      ((splitSign characters).2 ≠ [] ∧ (splitSign characters).2.all Char.isDigit = true) ∧
        number = if (splitSign characters).1 then -(digitsValue (splitSign characters).2 : Int)
          else digitsValue (splitSign characters).2 := by
  constructor
  · rintro ⟨negative, digits, signed, areDigits, value⟩
    rw [splitSign_of_withSign signed (beginsUnsigned_digits areDigits.1 areDigits.2)]
    exact ⟨areDigits, value⟩
  · rintro ⟨areDigits, value⟩
    exact ⟨_, _, withSign_splitSign characters, areDigits, value⟩

/-- The reader of integers reads the integers that fit into 64 bits. -/
theorem readInt64?_eq_some_iff {text : String} {number : Int64} :
    readInt64? text = some number ↔ DenotesInteger text.toList number.toInt := by
  rw [denotesInteger_iff]
  unfold readInt64?
  dsimp only
  split
  next areDigits =>
    generalize (if (splitSign text.toList).1 then
      -(digitsValue (splitSign text.toList).2 : Int) else digitsValue (splitSign text.toList).2)
        = denoted
    split
    next fits =>
      rw [Option.some.injEq]
      constructor
      · rintro rfl
        exact ⟨areDigits, toInt_ofInt_of_fits fits⟩
      · rintro ⟨-, rfl⟩
        exact Int64.ofInt_toInt number
    next misfit =>
      refine ⟨nofun, ?_⟩
      rintro ⟨-, rfl⟩
      exact absurd (decide_eq_true ⟨Int64.le_toInt number, Int64.toInt_le number⟩) misfit
  next notDigits => exact ⟨nofun, fun denotes => absurd denotes.1 notDigits⟩

/-! ### Decimals -/

theorem readExponent?_eq_some_iff {characters : List Char} {exponent : Int} :
    DecimalText.readExponent? characters = some exponent ↔
      DenotesExponent characters exponent := by
  cases characters with
  | nil =>
    constructor
    · rintro ⟨⟩
      exact .none
    · rintro ⟨⟩
      rfl
  | cons mark rest =>
    unfold DecimalText.readExponent?
    dsimp only
    by_cases isMark : mark = 'e' ∨ mark = 'E'
    · rw [if_pos isMark]
      split
      next areDigits =>
        rw [Option.some.injEq]
        constructor
        · rintro rfl
          exact .marked isMark (denotesInteger_iff.mpr ⟨areDigits, rfl⟩)
        · rintro ⟨⟩
          next denotes => exact (denotesInteger_iff.mp denotes).2.symm
      next notDigits =>
        refine ⟨nofun, ?_⟩
        rintro ⟨⟩
        next denotes => exact absurd (denotesInteger_iff.mp denotes).1 notDigits
    · rw [if_neg isMark]
      refine ⟨nofun, ?_⟩
      rintro ⟨⟩
      next isMark' _ => exact absurd isMark' isMark

/-- An exponent does not begin with a digit or a point. -/
theorem DenotesExponent.head {characters : List Char} {exponent : Int}
    (denotes : DenotesExponent characters exponent) :
    characters.takeWhile Char.isDigit = [] ∧ characters.dropWhile Char.isDigit = characters ∧
      ∀ rest, characters ≠ '.' :: rest := by
  cases denotes with
  | none => exact ⟨rfl, rfl, nofun⟩
  | marked isMark _ =>
    rcases isMark with rfl | rfl
    all_goals exact ⟨rfl, rfl, nofun⟩

namespace DecimalText

theorem read?_of_point {characters after : List Char}
    (dropped : characters.dropWhile Char.isDigit = '.' :: after) :
    read? characters =
      if characters.takeWhile Char.isDigit = [] ∧ after.takeWhile Char.isDigit = [] then none
      else (readExponent? (after.dropWhile Char.isDigit)).map fun exponent =>
        ⟨characters.takeWhile Char.isDigit, after.takeWhile Char.isDigit, exponent⟩ := by
  unfold read?
  rw [dropped]
  rfl

theorem read?_of_noPoint {characters : List Char}
    (noPoint : ∀ after, characters.dropWhile Char.isDigit ≠ '.' :: after) :
    read? characters =
      if characters.takeWhile Char.isDigit = [] ∧ ([] : List Char) = [] then none
      else (readExponent? (characters.dropWhile Char.isDigit)).map fun exponent =>
        ⟨characters.takeWhile Char.isDigit, [], exponent⟩ := by
  unfold read?
  generalize characters.dropWhile Char.isDigit = rest at noPoint ⊢
  dsimp only
  split
  next after => exact absurd rfl (noPoint after)
  next => rfl

theorem writtenAs_of_read? {characters : List Char} {text : DecimalText}
    (read : read? characters = some text) : text.WrittenAs characters := by
  have digits : ∀ characters : List Char, (characters.takeWhile Char.isDigit).all Char.isDigit =
    true := fun characters => List.all_takeWhile
  have parts := @List.takeWhile_append_dropWhile _ Char.isDigit characters
  by_cases pointed : ∃ after, characters.dropWhile Char.isDigit = '.' :: after
  · obtain ⟨after, dropped⟩ := pointed
    rw [read?_of_point dropped] at read
    split at read
    · cases read
    next nonempty =>
      obtain ⟨exponent, denotes, rfl⟩ := Option.map_eq_some_iff.mp read
      refine ⟨'.' :: after.takeWhile Char.isDigit, after.dropWhile Char.isDigit, ?_,
        digits characters, digits after, fun none => nonempty (List.append_eq_nil_iff.mp none),
        .point _, readExponent?_eq_some_iff.mp denotes⟩
      rw [List.cons_append, List.takeWhile_append_dropWhile, ← dropped, parts]
  · rw [read?_of_noPoint fun after dropped => pointed ⟨after, dropped⟩] at read
    split at read
    · cases read
    next nonempty =>
      obtain ⟨exponent, denotes, rfl⟩ := Option.map_eq_some_iff.mp read
      exact ⟨[], characters.dropWhile Char.isDigit, parts.symm, digits characters, rfl,
        fun none => nonempty (List.append_eq_nil_iff.mp none), .none,
        readExponent?_eq_some_iff.mp denotes⟩

theorem read?_of_writtenAs {characters : List Char} {text : DecimalText}
    (written : text.WrittenAs characters) : read? characters = some text := by
  obtain ⟨whole, fraction, exponent⟩ := text
  obtain ⟨point, power, rfl, wholeDigits, fractionDigits, nonempty, withPoint, denotes⟩ := written
  dsimp only at *
  obtain ⟨noDigits, unchanged, noPoint⟩ := denotes.head
  have wholeDigits := List.all_eq_true.mp wholeDigits
  have fractionDigits := List.all_eq_true.mp fractionDigits
  have nonempty : ¬(whole = [] ∧ fraction = []) :=
    fun none => nonempty (List.append_eq_nil_iff.mpr none)
  have taken := @List.takeWhile_append_of_pos _ Char.isDigit whole (point ++ power) wholeDigits
  have dropped := @List.dropWhile_append_of_pos _ Char.isDigit whole (point ++ power) wholeDigits
  cases withPoint with
  | none =>
    rw [List.nil_append] at taken dropped ⊢
    rw [noDigits, List.append_nil] at taken
    rw [unchanged] at dropped
    rw [read?_of_noPoint fun after same => noPoint after (dropped.symm.trans same), taken,
      dropped, if_neg nonempty, readExponent?_eq_some_iff.mpr denotes]
    rfl
  | point =>
    rw [List.cons_append] at taken dropped ⊢
    rw [List.takeWhile_cons_of_neg (by decide), List.append_nil] at taken
    rw [List.dropWhile_cons_of_neg (by decide)] at dropped
    rw [read?_of_point dropped, taken, List.takeWhile_append_of_pos fractionDigits,
      List.dropWhile_append_of_pos fractionDigits, noDigits, unchanged, List.append_nil,
      if_neg nonempty, readExponent?_eq_some_iff.mpr denotes]
    rfl

/-- The reader of decimals without a sign reads what they write. -/
theorem read?_eq_some_iff {characters : List Char} {text : DecimalText} :
    read? characters = some text ↔ text.WrittenAs characters :=
  ⟨writtenAs_of_read?, read?_of_writtenAs⟩

end DecimalText

/-- What a decimal without a sign begins with is no sign. -/
theorem DecimalText.WrittenAs.head {characters : List Char} {text : DecimalText}
    (written : text.WrittenAs characters) :
    ∃ first rest, characters = first :: rest ∧ (first.isDigit = true ∨ first = '.') := by
  obtain ⟨point, power, rfl, wholeDigits, -, nonempty, withPoint, -⟩ := written
  cases whole : text.whole with
  | cons first rest =>
    rw [whole] at wholeDigits
    exact ⟨first, _, rfl, .inl (List.all_eq_true.mp wholeDigits first List.mem_cons_self)⟩
  | nil =>
    rw [whole] at nonempty
    generalize text.fraction = fraction at nonempty withPoint
    cases withPoint with
    | none => exact absurd rfl nonempty
    | point => exact ⟨'.', _, rfl, .inr rfl⟩

/-- Characters denote a decimal if the reader splits a sign off one. -/
theorem denotesDecimal_iff {characters : List Char} {number : ℚ} :
    DenotesDecimal characters number ↔
      ∃ text, DecimalText.read? (splitSign characters).2 = some text ∧
        number = Binary64.signed (splitSign characters).1 text.value := by
  constructor
  · rintro ⟨negative, rest, text, signed, written, value⟩
    obtain ⟨first, more, rfl, plain⟩ := written.head
    rw [splitSign_of_withSign signed (beginsUnsigned_of_head plain)]
    exact ⟨text, DecimalText.read?_eq_some_iff.mpr written, value⟩
  · rintro ⟨text, read, value⟩
    exact ⟨_, _, text, withSign_splitSign characters, DecimalText.read?_eq_some_iff.mp read,
      value⟩

/-- Characters denote one number at most. -/
theorem DenotesDecimal.unique {characters : List Char} {number number' : ℚ}
    (denotes : DenotesDecimal characters number) (denotes' : DenotesDecimal characters number') :
    number = number' := by
  obtain ⟨text, read, value⟩ := denotesDecimal_iff.mp denotes
  obtain ⟨text', read', value'⟩ := denotesDecimal_iff.mp denotes'
  obtain rfl := Option.some.inj (read.symm.trans read')
  exact value.trans value'.symm

/-- An integer is a decimal. -/
theorem DenotesInteger.decimal {characters : List Char} {number : Int}
    (denotes : DenotesInteger characters number) : DenotesDecimal characters number := by
  obtain ⟨negative, digits, signed, areDigits, rfl⟩ := denotes
  refine ⟨negative, digits, ⟨digits, [], 0⟩, signed, ⟨[], [], (List.append_nil _).symm,
    areDigits.2, rfl, ?_, .none, .none⟩, ?_⟩
  · rw [List.append_nil]
    exact areDigits.1
  · unfold DecimalText.value
    rw [List.append_nil, List.length_nil, Nat.cast_zero, sub_zero, zpow_zero, mul_one]
    cases negative
    · exact Int.cast_natCast _
    · exact (Int.cast_neg _).trans (congrArg _ (Int.cast_natCast _))

/-! ### Numbers of the format -/

theorem toLower_of_isDigit {character : Char} (digit : character.isDigit = true) :
    character.toLower = character := by
  obtain ⟨-, high⟩ := Bool.and_eq_true_iff.mp digit
  refine dif_neg fun upper => ?_
  have bound := UInt32.le_iff_toNat_le.mp (of_decide_eq_true high)
  have bound' := UInt32.le_iff_toNat_le.mp upper.1
  exact absurd (bound'.trans bound) (by decide)

/-- A decimal without a sign begins with no letter of a word. -/
theorem DecimalText.WrittenAs.not_word {characters : List Char} {text : DecimalText}
    (written : text.WrittenAs characters) {first : Char} {rest : List Char}
    (letter : first = 'n' ∨ first = 'i') : characters.map Char.toLower ≠ first :: rest := by
  obtain ⟨head, more, rfl, plain⟩ := written.head
  rw [List.map_cons]
  intro same
  have lower : head.toLower = head := by
    rcases plain with digit | rfl
    · exact toLower_of_isDigit digit
    · rfl
  rw [lower] at same
  obtain ⟨rfl, -⟩ := List.cons.inj same
  rcases letter with rfl | rfl <;> exact absurd plain (by decide)

namespace Binary64

/-- A decimal is read as the number nearest what it denotes, but for the sign of zero. -/
theorem ofText?_of_denotes {text : String} {number : ℚ}
    (denotes : DenotesDecimal text.toList number) :
    ∃ read, ofText? text = some read ∧
      read.withoutZeroSign = (nearest number).withoutZeroSign := by
  obtain ⟨decimal, taken, rfl⟩ := denotesDecimal_iff.mp denotes
  have written := DecimalText.read?_eq_some_iff.mp taken
  refine ⟨ofDecimalText (splitSign text.toList).1 decimal, ?_, withoutZeroSign_ofDecimal _ _ _⟩
  unfold ofText?
  dsimp only
  rw [if_neg (written.not_word (.inl rfl)), if_neg, taken]
  · rfl
  · exact not_or.mpr ⟨written.not_word (.inr rfl), written.not_word (.inr rfl)⟩

/-- A text that is read as a finite number denotes a decimal. -/
theorem denotes_of_ofText? {text : String} {read : Binary64} (is : ofText? text = some read)
    (finite : read.isFinite = true) : ∃ number, DenotesDecimal text.toList number := by
  unfold ofText? at is
  dsimp only at is
  split at is
  · cases is
    cases finite
  · split at is
    · cases is
      cases finite
    · obtain ⟨decimal, taken, -⟩ := Option.map_eq_some_iff.mp is
      exact ⟨_, denotesDecimal_iff.mpr ⟨decimal, taken, rfl⟩⟩

end Binary64

end Reckon
