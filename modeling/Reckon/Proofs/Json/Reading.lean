/-
This file shows that a JSON document is read back from what is written for it,
on one line or across lines. The document has no binary numbers, its integers
are kept as integers by the reader, and it nests no deeper than the reader goes.

The proof follows the document. What is written for a part is read up to its
end, whatever follows that could not go on with a number; between two parts
stand a comma and blanks, and after the last one blanks and a bracket. The steps
that the reader is given are twice as many as there are characters, which is
enough for every part since each has at least one character.
-/

import Mathlib.Data.List.Forall2
import Reckon.Proofs.Json.Scalars

namespace Reckon

/-- Whether a document is read back as it is by a reader that goes so many levels deep. -/
inductive Json.IsPlain : Nat → Json → Prop
  | null {levels : Nat} : IsPlain levels .null
  | boolean {levels : Nat} {truth : Bool} : IsPlain levels (.boolean truth)
  | integer {levels : Nat} {number : Int} (least : Int64.minValue.toInt ≤ number)
      (greatest : number < UInt64.size) : IsPlain levels (.integer number)
  | text {levels : Nat} {content : String} : IsPlain levels (.text content)
  | array {levels : Nat} {items : List Json} (each : ∀ item ∈ items, IsPlain levels item) :
      IsPlain (levels + 1) (.array items)
  | object {levels : Nat} {members : List (String × Json)}
      (each : ∀ member ∈ members, IsPlain levels member.2) :
      IsPlain (levels + 1) (.object members)

namespace JsonDraft

variable {characters rest tail later : List Char} {steps : Nat}

/-! ### Blanks at the front -/

theorem readValue?_skipBlanks (steps : Nat) (characters : List Char) :
    readValue? steps (skipBlanks characters) = readValue? steps characters := by
  cases steps with
  | zero => rfl
  | succ steps => rw [readValue?, readValue?, skipBlanks_skipBlanks]

theorem readItems?_skipBlanks (steps : Nat) (characters : List Char) :
    readItems? steps (skipBlanks characters) = readItems? steps characters := by
  cases steps with
  | zero => rfl
  | succ steps => rw [readItems?, readItems?, readValue?_skipBlanks]

theorem readMembers?_skipBlanks (steps : Nat) (characters : List Char) :
    readMembers? steps (skipBlanks characters) = readMembers? steps characters := by
  cases steps with
  | zero => rfl
  | succ steps => rw [readMembers?, readMembers?, skipBlanks_skipBlanks]

theorem readValue?_blanks {blanks : List Char}
    (areBlanks : ∀ character ∈ blanks, isJsonBlank character = true) (steps : Nat)
    (characters : List Char) :
    readValue? steps (blanks ++ characters) = readValue? steps characters := by
  rw [← readValue?_skipBlanks, skipBlanks_append areBlanks, readValue?_skipBlanks]

/-! ### Lists of parts -/

theorem readItems?_begun {item : JsonDraft}
    (value : readValue? steps characters = some (item, tail)) :
    readItems? (steps + 1) characters =
      match skipBlanks tail with
      | ',' :: later => (readItems? steps later).bind fun (items, rest) =>
        some (item :: items, rest)
      | ']' :: rest => some ([item], rest)
      | _ => none := by
  rw [readItems?, value]
  rfl

theorem readItems?_last {item : JsonDraft}
    (value : readValue? steps characters = some (item, tail))
    (close : skipBlanks tail = ']' :: rest) :
    readItems? (steps + 1) characters = some ([item], rest) := by
  rw [readItems?_begun value, close]
  rfl

theorem readItems?_more {item : JsonDraft} {items : List JsonDraft}
    (value : readValue? steps characters = some (item, tail))
    (comma : skipBlanks tail = ',' :: later)
    (more : readItems? steps later = some (items, rest)) :
    readItems? (steps + 1) characters = some (item :: items, rest) := by
  rw [readItems?_begun value, comma]
  show (readItems? steps later).bind _ = _
  rw [more]
  rfl

/-- Characters begin with a member of an object, which is read, and others follow it. -/
structure BeginsWith (steps : Nat) (characters : List Char) (member : List TextPart × JsonDraft)
    (tail : List Char) : Prop where
  read : ∃ keyCharacters afterKey valueCharacters,
    skipBlanks characters = '"' :: keyCharacters ∧
    readParts? keyCharacters = some (member.1, afterKey) ∧
    skipBlanks afterKey = ':' :: valueCharacters ∧
    readValue? steps valueCharacters = some (member.2, tail)

theorem readMembers?_begun {member : List TextPart × JsonDraft}
    (begins : BeginsWith steps characters member tail) :
    readMembers? (steps + 1) characters =
      match skipBlanks tail with
      | ',' :: later => (readMembers? steps later).bind fun (members, rest) =>
        some (member :: members, rest)
      | '}' :: rest => some ([member], rest)
      | _ => none := by
  obtain ⟨keyCharacters, afterKey, valueCharacters, quote, key, colon, value⟩ := begins.read
  rw [readMembers?, quote]
  show (readParts? keyCharacters).bind _ = _
  rw [key]
  dsimp only [Option.bind]
  rw [colon]
  show (readValue? steps valueCharacters).bind _ = _
  rw [value]
  rfl

theorem readMembers?_last {member : List TextPart × JsonDraft}
    (begins : BeginsWith steps characters member tail)
    (close : skipBlanks tail = '}' :: rest) :
    readMembers? (steps + 1) characters = some ([member], rest) := by
  rw [readMembers?_begun begins, close]
  rfl

theorem readMembers?_more {member : List TextPart × JsonDraft}
    {members : List (List TextPart × JsonDraft)}
    (begins : BeginsWith steps characters member tail)
    (comma : skipBlanks tail = ',' :: later)
    (more : readMembers? steps later = some (members, rest)) :
    readMembers? (steps + 1) characters = some (member :: members, rest) := by
  rw [readMembers?_begun begins, comma]
  show (readMembers? steps later).bind _ = _
  rw [more]
  rfl

/-! ### Values -/

theorem readValue?_text {parts : List TextPart} (quote : skipBlanks characters = '"' :: later)
    (read : readParts? later = some (parts, rest)) :
    readValue? (steps + 1) characters = some (.text parts, rest) := by
  rw [readValue?, quote]
  show (readParts? later).bind _ = _
  rw [read]
  rfl

theorem readValue?_bracket (bracket : skipBlanks characters = '[' :: later) :
    readValue? (steps + 1) characters =
      match skipBlanks later with
      | ']' :: rest => some (array [], rest)
      | rest => (readItems? steps rest).bind fun (items, rest) => some (array items, rest) := by
  rw [readValue?, bracket]
  rfl

theorem readValue?_emptyArray (bracket : skipBlanks characters = '[' :: later)
    (close : skipBlanks later = ']' :: rest) :
    readValue? (steps + 1) characters = some (.array [], rest) := by
  rw [readValue?_bracket bracket, close]
  rfl

theorem readValue?_array {items : List JsonDraft} (bracket : skipBlanks characters = '[' :: later)
    (nonempty : ∀ more, skipBlanks later ≠ ']' :: more)
    (read : readItems? steps later = some (items, rest)) :
    readValue? (steps + 1) characters = some (.array items, rest) := by
  rw [readValue?_bracket bracket]
  split
  next close => exact absurd close (nonempty _)
  next =>
    rw [readItems?_skipBlanks, read]
    rfl

theorem readValue?_brace (brace : skipBlanks characters = '{' :: later) :
    readValue? (steps + 1) characters =
      match skipBlanks later with
      | '}' :: rest => some (object [], rest)
      | rest => (readMembers? steps rest).bind fun (members, rest) =>
        some (object members, rest) := by
  rw [readValue?, brace]
  rfl

theorem readValue?_emptyObject (brace : skipBlanks characters = '{' :: later)
    (close : skipBlanks later = '}' :: rest) :
    readValue? (steps + 1) characters = some (.object [], rest) := by
  rw [readValue?_brace brace, close]
  rfl

theorem readValue?_object {members : List (List TextPart × JsonDraft)}
    (brace : skipBlanks characters = '{' :: later)
    (nonempty : ∀ more, skipBlanks later ≠ '}' :: more)
    (read : readMembers? steps later = some (members, rest)) :
    readValue? (steps + 1) characters = some (.object members, rest) := by
  rw [readValue?_brace brace]
  split
  next close => exact absurd close (nonempty _)
  next =>
    rw [readMembers?_skipBlanks, read]
    rfl

/-- Whether a character may begin a number. -/
def BeginsNumber (first : Char) : Prop :=
  first = '-' ∨ first.isDigit = true

variable {first : Char}

theorem BeginsNumber.ne {mark : Char} (begins : BeginsNumber first) (notMinus : mark ≠ '-')
    (notDigit : mark.isDigit = false) : first ≠ mark := by
  rintro rfl
  rcases begins with rfl | digit
  · exact notMinus rfl
  · rw [notDigit] at digit
    cases digit

theorem BeginsNumber.not_isJsonBlank (begins : BeginsNumber first) :
    isJsonBlank first = false := by
  unfold isJsonBlank
  simp only [Bool.or_eq_false_iff, beq_eq_false_iff_ne]
  exact ⟨⟨⟨begins.ne (by decide) rfl, begins.ne (by decide) rfl⟩, begins.ne (by decide) rfl⟩,
    begins.ne (by decide) rfl⟩

/-- What begins like a number is read as one. -/
theorem readValue?_number (begins : BeginsNumber first) :
    readValue? (steps + 1) (first :: rest) = readNumber? (first :: rest) := by
  rw [readValue?, skipBlanks_cons begins.not_isJsonBlank]
  split
  next same => exact absurd (List.cons.inj same).1 (begins.ne (by decide) rfl)
  next same => exact absurd (List.cons.inj same).1 (begins.ne (by decide) rfl)
  next same => exact absurd (List.cons.inj same).1 (begins.ne (by decide) rfl)
  next same => exact absurd (List.cons.inj same).1 (begins.ne (by decide) rfl)
  next same => exact absurd (List.cons.inj same).1 (begins.ne (by decide) rfl)
  next same => exact absurd (List.cons.inj same).1 (begins.ne (by decide) rfl)
  next => rfl

theorem exists_beginsNumber (number : Int) :
    ∃ first rest, (toString number).toList = first :: rest ∧ BeginsNumber first := by
  rw [toList_toString_int]
  cases decide (number < 0) with
  | true => exact ⟨_, _, rfl, .inl rfl⟩
  | false =>
    obtain ⟨first, rest, same⟩ := List.exists_cons_of_ne_nil (digitsOf_ne_nil number.natAbs)
    exact ⟨first, rest, same, .inr (isDigit_of_mem_digitsOf (same ▸ List.mem_cons_self))⟩

/-! ### Written lists -/

/-- A draft is what a document is read as from what is written for it, and the document is read
from the draft so many levels deep. -/
structure ReadsBack (levels : Nat) (draft : JsonDraft) (document : Json) : Prop where
  held : document? levels draft = some document
  begins : ∀ layout level, ∃ first rest, document.characters layout level = first :: rest ∧
    isJsonBlank first = false ∧ first ≠ ']'
  read : ∀ layout level {rest steps}, EndsNumber rest →
    2 * (document.characters layout level).length ≤ steps →
    readValue? steps (document.characters layout level ++ rest) = some (draft, rest)

/-- The same of a member of an object, with its key. -/
structure ReadsMemberBack (levels : Nat) (draft : List TextPart × JsonDraft)
    (member : String × Json) : Prop where
  key : text? draft.1 = some member.1
  readKey : ∀ rest, readParts? (member.1.toList.flatMap Json.escapedCharacter ++ '"' :: rest) =
    some (draft.1, rest)
  value : ReadsBack levels draft.2 member.2

theorem ReadsBack.length_pos {levels : Nat} {draft : JsonDraft} {document : Json}
    (back : ReadsBack levels draft document) (layout : JsonLayout) (level : Nat) :
    0 < (document.characters layout level).length := by
  obtain ⟨first, rest, same, -⟩ := back.begins layout level
  rw [same]
  exact Nat.succ_pos _

variable {close : Char}

theorem skipBlanks_lineBreak (layout : JsonLayout) (level : Nat)
    (notBlank : isJsonBlank close = false) :
    skipBlanks (layout.lineBreak level ++ close :: rest) = close :: rest := by
  rw [skipBlanks_append (isJsonBlank_of_mem_lineBreak layout level), skipBlanks_cons notBlank]

theorem endsNumber_comma : EndsNumber (',' :: rest) :=
  ⟨rfl, by decide, by decide, by decide⟩

theorem endsNumber_lineBreak (layout : JsonLayout) (level : Nat)
    (closes : close = ']' ∨ close = '}') :
    EndsNumber (layout.lineBreak level ++ close :: rest) := by
  cases layout with
  | compact => rcases closes with rfl | rfl <;> exact ⟨rfl, by decide, by decide, by decide⟩
  | pretty => exact ⟨rfl, by decide, by decide, by decide⟩

theorem itemCharacters_true (layout : JsonLayout) (level : Nat) (item : Json)
    (items : List Json) :
    Json.itemCharacters layout level true (item :: items) =
      layout.lineBreak (level + 1) ++
        (item.characters layout (level + 1) ++ Json.itemCharacters layout level false items) := by
  rw [Json.itemCharacters, if_pos rfl, List.nil_append, List.append_assoc]

theorem itemCharacters_false (layout : JsonLayout) (level : Nat) (item : Json)
    (items : List Json) :
    Json.itemCharacters layout level false (item :: items) =
      ',' :: Json.itemCharacters layout level true (item :: items) := by
  rw [Json.itemCharacters, Json.itemCharacters]
  rfl

theorem memberCharacters_true (layout : JsonLayout) (level : Nat) (key : String) (value : Json)
    (members : List (String × Json)) :
    Json.memberCharacters layout level true ((key, value) :: members) =
      layout.lineBreak (level + 1) ++ (Json.textCharacters key ++ (layout.colon ++
        (value.characters layout (level + 1) ++
          Json.memberCharacters layout level false members))) := by
  rw [Json.memberCharacters, if_pos rfl, List.nil_append, List.append_assoc, List.append_assoc,
    List.append_assoc]

theorem memberCharacters_false (layout : JsonLayout) (level : Nat) (member : String × Json)
    (members : List (String × Json)) :
    Json.memberCharacters layout level false (member :: members) =
      ',' :: Json.memberCharacters layout level true (member :: members) := by
  rw [Json.memberCharacters, Json.memberCharacters]
  rfl

variable {levels : Nat}

/-- The items of an array are read back one after the other. -/
theorem readItems?_written {drafts : List JsonDraft} {items : List Json}
    (back : List.Forall₂ (ReadsBack levels) drafts items) (nonempty : items ≠ [])
    (layout : JsonLayout) (level : Nat)
    (enough : 2 * (Json.itemCharacters layout level true items).length < steps) :
    readItems? steps (Json.itemCharacters layout level true items ++
      (layout.lineBreak level ++ ']' :: rest)) = some (drafts, rest) := by
  induction back generalizing steps with
  | nil => exact absurd rfl nonempty
  | @cons draft item drafts items first later inductionHypothesis =>
    obtain ⟨steps, rfl⟩ := Nat.exists_eq_succ_of_ne_zero (Nat.ne_zero_of_lt enough)
    have value : ∀ {tail}, EndsNumber tail →
        readValue? steps (layout.lineBreak (level + 1) ++
          (item.characters layout (level + 1) ++ tail)) = some (draft, tail) := by
      intro tail ends
      rw [readValue?_blanks (isJsonBlank_of_mem_lineBreak _ _)]
      refine first.read _ _ ends ?_
      rw [itemCharacters_true, List.length_append, List.length_append] at enough
      omega
    rw [itemCharacters_true, List.append_assoc, List.append_assoc]
    cases later with
    | nil =>
      exact readItems?_last (value (endsNumber_lineBreak _ _ (.inl rfl)))
        (skipBlanks_lineBreak _ _ rfl)
    | @cons draft' item' drafts items _ later =>
      rw [itemCharacters_false, List.cons_append]
      refine readItems?_more (value endsNumber_comma) (skipBlanks_cons rfl)
        (inductionHypothesis (List.cons_ne_nil _ _) ?_)
      -- The list takes one step for each item, which has a character and so two steps of its own.
      have some := first.length_pos layout (level + 1)
      rw [itemCharacters_true, itemCharacters_false, List.length_append, List.length_append,
        List.length_cons] at enough
      omega

theorem textCharacters_append (content : String) (rest : List Char) :
    Json.textCharacters content ++ rest =
      '"' :: (content.toList.flatMap Json.escapedCharacter ++ '"' :: rest) := by
  unfold Json.textCharacters
  rw [List.cons_append, List.append_assoc, List.singleton_append]

theorem exists_colon (layout : JsonLayout) :
    ∃ blanks, layout.colon = ':' :: blanks ∧ ∀ blank ∈ blanks, isJsonBlank blank = true := by
  cases layout with
  | compact => exact ⟨[], rfl, nofun⟩
  | pretty => exact ⟨[' '], rfl, List.forall_mem_singleton.mpr rfl⟩

/-- A member of an object is read back. -/
theorem ReadsMemberBack.beginsWith {draft : List TextPart × JsonDraft} {member : String × Json}
    (back : ReadsMemberBack levels draft member) (layout : JsonLayout) (level : Nat)
    (enough : 2 * (member.2.characters layout (level + 1)).length ≤ steps)
    (ends : EndsNumber tail) :
    BeginsWith steps (layout.lineBreak (level + 1) ++ (Json.textCharacters member.1 ++
      (layout.colon ++ (member.2.characters layout (level + 1) ++ tail)))) draft tail := by
  obtain ⟨blanks, colon, areBlanks⟩ := exists_colon layout
  rw [textCharacters_append, colon, List.cons_append]
  refine ⟨_, _, _, skipBlanks_lineBreak _ _ rfl, back.readKey _, skipBlanks_cons rfl, ?_⟩
  rw [readValue?_blanks areBlanks]
  exact back.value.read _ _ ends enough

/-- The members of an object are read back one after the other. -/
theorem readMembers?_written {drafts : List (List TextPart × JsonDraft)}
    {members : List (String × Json)} (back : List.Forall₂ (ReadsMemberBack levels) drafts members)
    (nonempty : members ≠ []) (layout : JsonLayout) (level : Nat)
    (enough : 2 * (Json.memberCharacters layout level true members).length < steps) :
    readMembers? steps (Json.memberCharacters layout level true members ++
      (layout.lineBreak level ++ '}' :: rest)) = some (drafts, rest) := by
  induction back generalizing steps with
  | nil => exact absurd rfl nonempty
  | @cons draft member drafts members first later inductionHypothesis =>
    obtain ⟨key, value⟩ := member
    obtain ⟨steps, rfl⟩ := Nat.exists_eq_succ_of_ne_zero (Nat.ne_zero_of_lt enough)
    rw [memberCharacters_true, List.length_append, List.length_append, List.length_append,
      List.length_append] at enough
    rw [memberCharacters_true, List.append_assoc, List.append_assoc, List.append_assoc,
      List.append_assoc]
    cases later with
    | nil =>
      exact readMembers?_last (first.beginsWith _ _ (by dsimp only; omega)
        (endsNumber_lineBreak _ _ (.inr rfl))) (skipBlanks_lineBreak _ _ rfl)
    | @cons draft' member' drafts members _ later =>
      rw [memberCharacters_false, List.cons_append]
      refine readMembers?_more (first.beginsWith _ _ (by dsimp only; omega) endsNumber_comma)
        (skipBlanks_cons rfl) (inductionHypothesis (List.cons_ne_nil _ _) ?_)
      have some := first.value.length_pos layout (level + 1)
      rw [memberCharacters_false, List.length_cons] at enough
      dsimp only at some
      omega

/-! ### Documents -/

theorem documentItems?_of_readsBack {drafts : List JsonDraft} {items : List Json}
    (back : List.Forall₂ (ReadsBack levels) drafts items) :
    documentItems? levels drafts = some items := by
  induction back with
  | nil => rfl
  | cons first _ inductionHypothesis =>
    rw [documentItems?, first.held, inductionHypothesis]
    rfl

theorem documentMembers?_of_readsBack {drafts : List (List TextPart × JsonDraft)}
    {members : List (String × Json)}
    (back : List.Forall₂ (ReadsMemberBack levels) drafts members) :
    documentMembers? levels drafts = some members := by
  induction back with
  | nil => rfl
  | cons first _ inductionHypothesis =>
    rw [documentMembers?, first.key, first.value.held, inductionHypothesis]
    rfl

/-- An array whose items are read back is read back. -/
theorem ReadsBack.array {drafts : List JsonDraft} {items : List Json}
    (back : List.Forall₂ (ReadsBack levels) drafts items) :
    ReadsBack (levels + 1) (.array drafts) (.array items) where
  held := by
    rw [document?, documentItems?_of_readsBack back]
    rfl
  begins layout level := by
    rw [Json.characters]
    exact ⟨_, _, rfl, rfl, by decide⟩
  read layout level := by
    intro rest steps ends enough
    rw [Json.characters, List.length_cons, List.length_append, List.length_append] at enough
    obtain ⟨steps, rfl⟩ := Nat.exists_eq_succ_of_ne_zero (by omega : steps ≠ 0)
    rw [Json.characters, List.cons_append, List.append_assoc, List.append_assoc,
      List.singleton_append]
    cases back with
    | nil => exact readValue?_emptyArray (skipBlanks_cons rfl) (skipBlanks_cons rfl)
    | @cons draft item drafts items first later =>
      -- The reader takes an array for empty when a bracket comes next, and no item begins with one.
      refine readValue?_array (skipBlanks_cons rfl) (fun more => ?_)
        (readItems?_written (.cons first later) (List.cons_ne_nil _ _) layout level (by omega))
      obtain ⟨character, inside, same, notBlank, notClose⟩ := first.begins layout (level + 1)
      rw [itemCharacters_true, List.append_assoc,
        skipBlanks_append (isJsonBlank_of_mem_lineBreak _ _), same, List.append_assoc,
        List.cons_append, skipBlanks_cons notBlank]
      exact fun equal => notClose (List.cons.inj equal).1

/-- An object whose members are read back is read back. -/
theorem ReadsBack.object {drafts : List (List TextPart × JsonDraft)}
    {members : List (String × Json)}
    (back : List.Forall₂ (ReadsMemberBack levels) drafts members) :
    ReadsBack (levels + 1) (.object drafts) (.object members) where
  held := by
    rw [document?, documentMembers?_of_readsBack back]
    rfl
  begins layout level := by
    rw [Json.characters]
    exact ⟨_, _, rfl, rfl, by decide⟩
  read layout level := by
    intro rest steps ends enough
    rw [Json.characters, List.length_cons, List.length_append, List.length_append] at enough
    obtain ⟨steps, rfl⟩ := Nat.exists_eq_succ_of_ne_zero (by omega : steps ≠ 0)
    rw [Json.characters, List.cons_append, List.append_assoc, List.append_assoc,
      List.singleton_append]
    cases back with
    | nil => exact readValue?_emptyObject (skipBlanks_cons rfl) (skipBlanks_cons rfl)
    | @cons draft member drafts members first later =>
      refine readValue?_object (skipBlanks_cons rfl) (fun more => ?_)
        (readMembers?_written (.cons first later) (List.cons_ne_nil _ _) layout level (by omega))
      rw [memberCharacters_true, List.append_assoc, List.append_assoc, textCharacters_append,
        skipBlanks_lineBreak _ _ rfl]
      exact fun equal => absurd (List.cons.inj equal).1 (by decide)

theorem ReadsBack.null : ReadsBack levels .null .null where
  held := by rw [document?]
  begins layout level := by
    rw [Json.characters]
    exact ⟨_, _, rfl, rfl, by decide⟩
  read layout level := by
    intro rest steps ends enough
    rw [Json.characters] at enough ⊢
    obtain ⟨steps, rfl⟩ := Nat.exists_eq_succ_of_ne_zero (Nat.ne_zero_of_lt enough)
    rw [readValue?]
    rfl

theorem ReadsBack.boolean (truth : Bool) : ReadsBack levels (.boolean truth) (.boolean truth) where
  held := by rw [document?]
  begins layout level := by
    rw [Json.characters]
    cases truth <;> exact ⟨_, _, rfl, rfl, by decide⟩
  read layout level := by
    intro rest steps ends enough
    rw [Json.characters] at enough ⊢
    have some : 0 < 2 * (if truth = true then "true" else "false").toList.length := by
      cases truth <;> decide
    obtain ⟨steps, rfl⟩ := Nat.exists_eq_succ_of_ne_zero (Nat.ne_zero_of_lt (some.trans_le enough))
    rw [readValue?]
    cases truth <;> rfl

theorem ReadsBack.integer {number : Int} (least : Int64.minValue.toInt ≤ number)
    (greatest : number < UInt64.size) :
    ReadsBack levels (ofInteger number) (.integer number) where
  held := document?_ofInteger least greatest levels
  begins layout level := by
    obtain ⟨first, rest, same, begins⟩ := exists_beginsNumber number
    rw [Json.characters]
    exact ⟨first, rest, same, begins.not_isJsonBlank, begins.ne (by decide) rfl⟩
  read layout level := by
    intro rest steps ends enough
    obtain ⟨first, later, same, begins⟩ := exists_beginsNumber number
    rw [Json.characters] at enough ⊢
    rw [same, List.length_cons] at enough
    obtain ⟨steps, rfl⟩ := Nat.exists_eq_succ_of_ne_zero (by omega : steps ≠ 0)
    rw [← readNumber?_integer number ends, same]
    exact readValue?_number begins

theorem ReadsBack.text {parts : List TextPart} {content : String}
    (held : text? parts = some content)
    (read : ∀ rest, readParts? (content.toList.flatMap Json.escapedCharacter ++ '"' :: rest) =
      some (parts, rest)) : ReadsBack levels (.text parts) (.text content) where
  held := by
    rw [document?, held]
    rfl
  begins layout level := by
    rw [Json.characters]
    exact ⟨_, _, rfl, rfl, by decide⟩
  read layout level := by
    intro rest steps ends enough
    rw [Json.characters] at enough ⊢
    rw [Json.textCharacters, List.length_cons] at enough
    obtain ⟨steps, rfl⟩ := Nat.exists_eq_succ_of_ne_zero (by omega : steps ≠ 0)
    rw [textCharacters_append]
    exact readValue?_text (skipBlanks_cons rfl) (read rest)

theorem exists_forall₂ {α β : Type} {holds : α → β → Prop} {parts : List β}
    (each : ∀ part ∈ parts, ∃ draft, holds draft part) :
    ∃ drafts, List.Forall₂ holds drafts parts := by
  induction parts with
  | nil => exact ⟨[], .nil⟩
  | cons part parts inductionHypothesis =>
    obtain ⟨⟨draft, first⟩, rest⟩ := List.forall_mem_cons.mp each
    obtain ⟨drafts, later⟩ := inductionHypothesis rest
    exact ⟨draft :: drafts, .cons first later⟩

theorem exists_readsMembersBack {members : List (String × Json)}
    (each : ∀ member ∈ members, ∃ draft, ReadsBack levels draft member.2) :
    ∃ drafts, List.Forall₂ (ReadsMemberBack levels) drafts members := by
  refine exists_forall₂ fun member among => ?_
  obtain ⟨draft, back⟩ := each member among
  obtain ⟨parts, key, read⟩ := exists_parts member.1
  exact ⟨(parts, draft), key, read, back⟩

/-- A plain document is read back. -/
theorem exists_readsBack {document : Json} (plain : document.IsPlain levels) :
    ∃ draft, ReadsBack levels draft document := by
  induction plain with
  | null => exact ⟨_, .null⟩
  | boolean => exact ⟨_, .boolean _⟩
  | integer least greatest => exact ⟨_, .integer least greatest⟩
  | @text _ content =>
    obtain ⟨parts, held, read⟩ := exists_parts content
    exact ⟨_, .text held read⟩
  | array _ inductionHypothesis =>
    obtain ⟨drafts, back⟩ := exists_forall₂ inductionHypothesis
    exact ⟨_, .array back⟩
  | object _ inductionHypothesis =>
    obtain ⟨drafts, back⟩ := exists_readsMembersBack inductionHypothesis
    exact ⟨_, .object back⟩

/-- What is written for a document is split into the draft it is read back from. -/
theorem ReadsBack.read? {draft : JsonDraft} {document : Json}
    (back : ReadsBack levels draft document) (layout : JsonLayout) :
    JsonDraft.read? (String.ofList (document.characters layout 0)) = some draft := by
  have read := @ReadsBack.read _ _ _ back layout 0 [] _ trivial (Nat.le_add_right _ 2)
  rw [List.append_nil] at read
  unfold JsonDraft.read?
  dsimp only
  rw [String.toList_ofList, read]
  rfl

end JsonDraft

/-- A plain document is the document that the text written for it holds, in either layout. -/
theorem Json.ofText?_characters {document : Json} (plain : document.IsPlain jsonNestingLimit)
    (layout : JsonLayout) :
    Json.ofText? (String.ofList (document.characters layout 0)) = some document := by
  obtain ⟨draft, back⟩ := JsonDraft.exists_readsBack plain
  unfold Json.ofText?
  rw [back.read? layout]
  exact back.held

end Reckon
