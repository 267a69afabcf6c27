/-
This file shows that the scalars of a written JSON document are read back: its
texts, with every character that must be escaped, and its integers.

A text is written character by character, and each character is read back on
its own: as itself, after a backslash, or as the code unit of a control
character. An integer is read up to the first character that could not go on
with it; what is written after one is a comma, a bracket, a brace or the end of
a line.
-/

import Mathlib.Data.List.DropRight
import Mathlib.Data.List.TakeWhile
import Reckon.Json.Draft
import Reckon.Json.Writer
import Reckon.Proofs.Binary64.Literal

namespace Reckon

namespace JsonDraft

variable {first : Char} {rest tail characters : List Char}

/-! ### Blanks -/

theorem skipBlanks_append {blanks : List Char}
    (areBlanks : ∀ character ∈ blanks, isJsonBlank character = true) (rest : List Char) :
    skipBlanks (blanks ++ rest) = skipBlanks rest :=
  List.dropWhile_append_of_pos areBlanks

theorem skipBlanks_cons (notBlank : isJsonBlank first = false) :
    skipBlanks (first :: rest) = first :: rest := by
  unfold skipBlanks
  rw [List.dropWhile_cons, notBlank, if_neg Bool.false_ne_true]

theorem skipBlanks_skipBlanks (characters : List Char) :
    skipBlanks (skipBlanks characters) = skipBlanks characters :=
  List.dropWhile_idempotent _ _

/-- The ends of lines are blanks. -/
theorem isJsonBlank_of_mem_lineBreak (layout : JsonLayout) (level : Nat) :
    ∀ character ∈ layout.lineBreak level, isJsonBlank character = true := by
  cases layout with
  | compact => exact nofun
  | pretty =>
    refine List.forall_mem_cons.mpr ⟨rfl, fun character member => ?_⟩
    rw [List.eq_of_mem_replicate member]
    rfl

/-! ### Texts -/

theorem hexDigit?_hexCharacter :
    ∀ digit < 16, hexDigit? (Json.hexCharacter digit) = some digit := by
  decide

theorem codeUnit?_hexCharacter {code : Nat} (small : code < 32) :
    codeUnit? '0' '0' (Json.hexCharacter (code / 16)) (Json.hexCharacter (code % 16)) =
      some code := by
  have zero : hexDigit? '0' = some 0 := rfl
  unfold codeUnit?
  rw [zero, hexDigit?_hexCharacter _ (by omega), hexDigit?_hexCharacter _ (by omega)]
  show some (4096 * 0 + 256 * 0 + 16 * (code / 16) + code % 16) = some code
  congr 1
  omega

theorem readParts?_unit {a b c d : Char} {code : Nat} {parts : List TextPart}
    (unit : codeUnit? a b c d = some code) (read : readParts? tail = some (parts, rest)) :
    readParts? ('\\' :: 'u' :: a :: b :: c :: d :: tail) = some (.unit code :: parts, rest) := by
  rw [readParts?, unit, read]
  rfl

theorem readParts?_escape {character escaped : Char} {parts : List TextPart}
    (meaning : escapeMeaning? escaped = some character)
    (read : readParts? tail = some (parts, rest)) :
    readParts? ('\\' :: escaped :: tail) = some (.character character :: parts, rest) := by
  have notUnit : escaped ≠ 'u' := by
    rintro rfl
    cases meaning
  rw [readParts?.eq_def]
  split
  next same => cases same
  next same => cases same
  next same => exact absurd (List.cons.inj (List.cons.inj same).2).1 notUnit
  next same =>
    obtain ⟨rfl, rfl⟩ := List.cons.inj (List.cons.inj same).2
    rw [meaning, read]
    rfl
  next plain same =>
    obtain ⟨rfl, rfl⟩ := List.cons.inj same
    exact (plain _ _ rfl rfl).elim

theorem readParts?_plain {character : Char} {parts : List TextPart} (notQuote : character ≠ '"')
    (notBackslash : character ≠ '\\') (notControl : ¬character.toNat < 32)
    (read : readParts? tail = some (parts, rest)) :
    readParts? (character :: tail) = some (.character character :: parts, rest) := by
  rw [readParts?.eq_def]
  split
  next same => cases same
  next same => exact absurd (List.cons.inj same).1 notQuote
  next same => exact absurd (List.cons.inj same).1 notBackslash
  next same => exact absurd (List.cons.inj same).1 notBackslash
  next same =>
    obtain ⟨rfl, rfl⟩ := List.cons.inj same
    rw [if_neg (not_or.mpr ⟨notControl, notBackslash⟩), read]
    rfl

theorem characters?_unit {code : Nat} (control : code < 32) (parts : List TextPart) :
    characters? (.unit code :: parts) = (characters? parts).map (Char.ofNat code :: ·) := by
  have notLeading : isLeadingUnit code = false := decide_eq_false (by omega)
  have notTrailing : isTrailingUnit code = false := decide_eq_false (by omega)
  rw [characters?.eq_def]
  split
  next same => cases same
  next same =>
    obtain ⟨same, rfl⟩ := List.cons.inj same
    cases same
    rw [notLeading, notTrailing, if_neg Bool.false_ne_true, if_neg Bool.false_ne_true]
  next same =>
    obtain ⟨same, rfl⟩ := List.cons.inj same
    cases same
    rw [notLeading, notTrailing, if_neg (by decide)]
  next same => cases (List.cons.inj same).1

/-- A character of a text is read back from what is written for it. -/
theorem exists_part (character : Char) :
    ∃ part : TextPart,
      (∀ {parts tail rest}, readParts? tail = some (parts, rest) →
        readParts? (Json.escapedCharacter character ++ tail) = some (part :: parts, rest)) ∧
      ∀ {parts content}, characters? parts = some content →
        characters? (part :: parts) = some (character :: content) := by
  have itself : ∀ {parts content}, characters? parts = some content →
      characters? (.character character :: parts) = some (character :: content) := by
    intro parts content same
    rw [characters?, same]
    rfl
  unfold Json.escapedCharacter
  split
  case _ | _ | _ | _ | _ | _ | _ =>
    exact ⟨.character _, fun read => readParts?_escape rfl read, itself⟩
  case _ notQuote notBackslash _ _ _ _ _ =>
    split
    next control =>
      refine ⟨.unit character.toNat,
        fun read => readParts?_unit (codeUnit?_hexCharacter control) read,
        fun {parts content} same => ?_⟩
      rw [characters?_unit control, same, Char.ofNat_toNat]
      rfl
    next notControl =>
      exact ⟨.character character,
        fun read => readParts?_plain notQuote notBackslash notControl read, itself⟩

/-- A text is read back from what is written for it, whatever follows. -/
theorem exists_parts (content : String) :
    ∃ parts, text? parts = some content ∧ ∀ rest,
      readParts? (content.toList.flatMap Json.escapedCharacter ++ '"' :: rest) =
        some (parts, rest) := by
  have each : ∀ characters : List Char, ∃ parts, characters? parts = some characters ∧ ∀ rest,
      readParts? (characters.flatMap Json.escapedCharacter ++ '"' :: rest) =
        some (parts, rest) := by
    intro characters
    induction characters with
    | nil => exact ⟨[], rfl, fun rest => by rw [List.flatMap_nil, List.nil_append, readParts?]⟩
    | cons first later inductionHypothesis =>
      obtain ⟨parts, same, read⟩ := inductionHypothesis
      obtain ⟨part, readFirst, sameFirst⟩ := exists_part first
      refine ⟨part :: parts, sameFirst same, fun rest => ?_⟩
      rw [List.flatMap_cons, List.append_assoc]
      exact readFirst (read rest)
  obtain ⟨parts, same, read⟩ := each content.toList
  refine ⟨parts, ?_, read⟩
  unfold text?
  rw [same, Option.map_some, String.ofList_toList]

/-! ### Integers -/

/-- Characters before which a number ends. -/
def EndsNumber : List Char → Prop
  | [] => True
  | first :: _ => first.isDigit = false ∧ first ≠ '.' ∧ first ≠ 'e' ∧ first ≠ 'E'

theorem takeWhile_isDigit_append {digits : List Char} (areDigits : ∀ digit ∈ digits, digit.isDigit)
    (ends : EndsNumber rest) : (digits ++ rest).takeWhile Char.isDigit = digits := by
  rw [List.takeWhile_append_of_pos areDigits]
  cases rest with
  | nil => exact List.append_nil digits
  | cons first rest =>
    rw [List.takeWhile_cons_of_neg (Bool.eq_false_iff.mp ends.1), List.append_nil]

theorem dropWhile_isDigit_append {digits : List Char} (areDigits : ∀ digit ∈ digits, digit.isDigit)
    (ends : EndsNumber rest) : (digits ++ rest).dropWhile Char.isDigit = rest := by
  rw [List.dropWhile_append_of_pos areDigits]
  cases rest with
  | nil => rfl
  | cons first rest => rw [List.dropWhile_cons_of_neg (Bool.eq_false_iff.mp ends.1)]

theorem readFraction?_of_ends (ends : EndsNumber rest) : readFraction? rest = some ([], rest) := by
  unfold readFraction?
  split
  next => exact absurd rfl ends.2.1
  next => rfl

theorem readPower?_of_ends (ends : EndsNumber rest) : readPower? rest = some (none, rest) := by
  cases rest with
  | nil => rfl
  | cons first rest =>
    unfold readPower?
    dsimp only
    rw [if_neg (not_or.mpr ends.2.2)]

/-- Only zero begins with a zero. -/
theorem eq_zero_of_head?_digitsOf {number : Nat} (zero : (digitsOf number).head? = some '0') :
    number = 0 := by
  unfold digitsOf at zero
  induction number using Nat.strongRecOn with
  | ind number inductionHypothesis =>
    rcases Nat.lt_or_ge number 10 with small | large
    · rw [Nat.toDigits_of_lt_base small] at zero
      have digit : ∀ digit < 10, digit.digitChar = '0' → digit = 0 := by decide
      exact digit number small (Option.some.inj zero)
    · rw [Nat.toDigits_of_base_le (by decide) large, List.head?_append,
        Option.or_of_isSome (List.isSome_head?.mpr Nat.toDigits_ne_nil)] at zero
      have tenth := inductionHypothesis (number / 10) (Nat.div_lt_self (by omega) (by decide)) zero
      omega

/-- The draft of an integer. -/
def ofInteger (number : Int) : JsonDraft :=
  .number (decide (number < 0)) ⟨digitsOf number.natAbs, [], 0⟩ true

theorem toList_toString_int (number : Int) :
    (toString number).toList = signText (decide (number < 0)) ++ digitsOf number.natAbs := by
  cases number with
  | ofNat magnitude => exact toList_toString magnitude
  | negSucc magnitude =>
    show ("-" ++ toString (magnitude + 1)).toList = _
    rw [String.toList_append, toList_toString, decide_eq_true (Int.negSucc_lt_zero magnitude)]
    rfl

/-- A sign and digits are read up to what ends a number. -/
theorem readNumber?_digits (negative : Bool) (magnitude : Nat) (ends : EndsNumber rest) :
    readNumber? (signText negative ++ (digitsOf magnitude ++ rest)) =
      some (.number negative ⟨digitsOf magnitude, [], 0⟩ true, rest) := by
  have areDigits : ∀ digit ∈ digitsOf magnitude, digit.isDigit :=
    fun digit member => isDigit_of_mem_digitsOf member
  have plain : ¬(digitsOf magnitude = [] ∨
      (digitsOf magnitude).head? = some '0' ∧ (digitsOf magnitude).length ≠ 1) := by
    rintro (empty | ⟨zero, long⟩)
    · exact digitsOf_ne_nil magnitude empty
    · obtain rfl := eq_zero_of_head?_digitsOf zero
      exact long rfl
  have notMinus : ∀ more, digitsOf magnitude ++ rest ≠ '-' :: more := by
    intro more same
    obtain ⟨first, later, digits⟩ := List.exists_cons_of_ne_nil (digitsOf_ne_nil magnitude)
    have digit := areDigits first (digits ▸ List.mem_cons_self)
    rw [digits] at same
    rw [(List.cons.inj same).1] at digit
    cases digit
  unfold readNumber?
  split
  next sign' unsigned split =>
  obtain ⟨rfl, rfl⟩ : sign' = negative ∧ unsigned = digitsOf magnitude ++ rest := by
    cases negative with
    | true =>
      cases split
      exact ⟨rfl, rfl⟩
    | false =>
      split at split
      next more minus => exact absurd minus (notMinus more)
      next =>
        cases split
        exact ⟨rfl, rfl⟩
  dsimp only
  rw [takeWhile_isDigit_append areDigits ends, dropWhile_isDigit_append areDigits ends,
    if_neg plain, readFraction?_of_ends ends]
  show (readPower? rest).bind _ = _
  rw [readPower?_of_ends ends]
  rfl

/-- An integer is read back up to what ends a number. -/
theorem readNumber?_integer (number : Int) (ends : EndsNumber rest) :
    readNumber? ((toString number).toList ++ rest) = some (ofInteger number, rest) := by
  rw [toList_toString_int, List.append_assoc]
  exact readNumber?_digits _ _ ends

/-- The draft of an integer that is kept as one holds it. -/
theorem document?_ofInteger {number : Int} (least : Int64.minValue.toInt ≤ number)
    (greatest : number < UInt64.size) (levels : Nat) :
    document? levels (ofInteger number) = some (.integer number) := by
  have value : (if decide (number < 0) = true then -(number.natAbs : Int) else number.natAbs) =
      number := by
    split
    next negative =>
      have negative := of_decide_eq_true negative
      omega
    next positive =>
      have positive := of_decide_eq_false (Bool.eq_false_iff.mpr positive)
      omega
  have notZero : decide (number < 0) = true → number.natAbs ≠ 0 := by
    intro negative
    have negative := of_decide_eq_true negative
    omega
  unfold ofInteger document? number?
  dsimp only
  rw [digitsValue_digitsOf, value, if_pos ⟨rfl, notZero, least, greatest⟩]

end JsonDraft

end Reckon
