/-
This file says how the definition of a function is written: a name, the type of
its result in angle brackets or none, parameters in parentheses, an arrow and a
body, with any blanks between these parts. What a definition begins with is
read off it exactly so, and in no other way: a name goes as far as its
characters go, the first closing parenthesis ends the parameters, and all that
follows the arrow is the body.
-/

import Mathlib.Data.List.TakeWhile
import Reckon.Function.Definition
import Reckon.Proofs.Token.Followed

namespace Reckon

namespace FunctionDefinition

variable {isPart : Char → Bool} {blanks characters rest word : List Char}

/-! ### Blanks -/

/-- Characters that are all blank. -/
def AllBlank (characters : List Char) : Prop :=
  ∀ character ∈ characters, isBlank character = true

instance (characters : List Char) : Decidable (AllBlank characters) :=
  List.decidableBAll _ characters

theorem skipBlanks_append (blank : AllBlank blanks) (characters : List Char) :
    skipBlanks (blanks ++ characters) = skipBlanks characters :=
  List.dropWhile_append_of_pos blank

theorem skipBlanks_cons {first : Char} (notBlank : isBlank first = false) (rest : List Char) :
    skipBlanks (first :: rest) = first :: rest :=
  List.dropWhile_cons_of_neg (Bool.eq_false_iff.mp notBlank)

theorem skipBlanks_eq_nil_iff : skipBlanks characters = [] ↔ AllBlank characters :=
  List.dropWhile_eq_nil_iff

theorem exists_skipBlanks (characters : List Char) :
    ∃ blanks, AllBlank blanks ∧ characters = blanks ++ skipBlanks characters :=
  ⟨characters.takeWhile isBlank, isBlank_of_mem_takeWhile,
    List.takeWhile_append_dropWhile.symm⟩

theorem skipBlanks_skipBlanks (characters : List Char) :
    skipBlanks (skipBlanks characters) = skipBlanks characters := by
  obtain ⟨blanks, blank, parts⟩ := exists_skipBlanks characters
  have skipped := skipBlanks_append blank (skipBlanks characters)
  rwa [← parts, eq_comm] at skipped

theorem trimBlanks_blanks_append (blank : AllBlank blanks) (characters : List Char) :
    trimBlanks (blanks ++ characters) = trimBlanks characters := by
  unfold trimBlanks
  rw [List.dropWhile_append_of_pos blank]

theorem trimBlanks_append_blanks (blank : AllBlank blanks) (characters : List Char) :
    trimBlanks (characters ++ blanks) = trimBlanks characters := by
  have reversed : ∀ character ∈ blanks.reverse, isBlank character = true :=
    fun character member => blank character (List.mem_reverse.mp member)
  unfold trimBlanks
  rw [List.dropWhile_append]
  by_cases none : characters.dropWhile isBlank = []
  · rw [none, List.dropWhile_eq_nil_iff.mpr blank]
    rfl
  · rw [if_neg (by simpa using none), List.reverse_append,
      List.dropWhile_append_of_pos reversed]

/-- Characters with no blank at either end stay as they are. -/
theorem trimBlanks_eq_self (start : ∀ first ∈ characters.head?, isBlank first = false)
    (stop : ∀ last ∈ characters.getLast?, isBlank last = false) :
    trimBlanks characters = characters := by
  have kept : ∀ {list : List Char}, (∀ first ∈ list.head?, isBlank first = false) →
      list.dropWhile isBlank = list := by
    rintro (_ | ⟨first, rest⟩) notBlank
    · rfl
    · exact skipBlanks_cons (notBlank first rfl) rest
  unfold trimBlanks
  rw [kept start, kept (by rwa [List.head?_reverse]), List.reverse_reverse]

/-- Characters are what is left of them without the blanks at their ends, with blanks on both
sides. -/
theorem exists_trimBlanks (characters : List Char) :
    ∃ before after, AllBlank before ∧ AllBlank after ∧
      characters = before ++ (trimBlanks characters ++ after) := by
  obtain ⟨before, after, parts, blankBefore, blankAfter⟩ :=
    toList_eq_blanks_trimmed (String.ofList characters)
  refine ⟨before, after, blankBefore, blankAfter, ?_⟩
  simpa only [trimmed, String.toList_ofList] using parts

/-! ### Words -/

/-- Characters that make up a word: one that may begin it, and then ones that may stand in it. -/
def IsWordOf (isPart : Char → Bool) : List Char → Prop
  | [] => False
  | first :: rest => isWordStart first = true ∧ ∀ character ∈ rest, isPart character = true

/-- Characters that do not continue a word before them. -/
def EndsWord (isPart : Char → Bool) : List Char → Prop
  | [] => True
  | first :: _ => isPart first = false

theorem isPathPart_of_isWordPart {character : Char} (part : isWordPart character = true) :
    isPathPart character = true :=
  Bool.or_eq_true_iff.mpr (.inl part)

theorem isWordPart_of_isWordStart {character : Char} (start : isWordStart character = true) :
    isWordPart character = true := by
  simp only [isWordStart, isWordPart, Char.isAlphanum, Bool.or_eq_true] at start ⊢
  exact start.imp .inl id

/-- Letters and digits of ASCII and underscores may stand in the names of expressions too. -/
theorem isNamePart_of_isWordPart {character : Char} (part : isWordPart character = true) :
    isNamePart character = true := by
  simp only [isWordPart, Char.isAlphanum, isNamePart, Bool.or_eq_true] at part ⊢
  exact part.imp (Or.imp isLetter_of_isAlpha isNumeral_of_isDigit) id

theorem not_isBlank_of_isPathPart {character : Char} (part : isPathPart character = true) :
    isBlank character = false := by
  refine Bool.eq_false_iff.mpr fun blank => ?_
  have ends := endsToken_of_isBlank blank
  rcases Bool.or_eq_true_iff.mp part with word | point
  · have absent := isNamePart_of_endsToken ends
    rw [isNamePart_of_isWordPart word] at absent
    cases absent
  · exact ne_of_endsToken ends (by decide) (beq_iff_eq.mp point)

theorem not_isBlank_of_isWordPart {character : Char} (part : isWordPart character = true) :
    isBlank character = false :=
  not_isBlank_of_isPathPart (isPathPart_of_isWordPart part)

/-- No character of a word is blank. -/
theorem IsWordOf.not_isBlank (isWord : IsWordOf isPart word)
    (notBlank : ∀ {character}, isPart character = true → isBlank character = false) :
    ∀ character ∈ word, isBlank character = false := by
  cases word with
  | nil => exact isWord.elim
  | cons first rest =>
    obtain ⟨start, parts⟩ := isWord
    exact List.forall_mem_cons.mpr
      ⟨not_isBlank_of_isWordPart (isWordPart_of_isWordStart start),
        fun character member => notBlank (parts character member)⟩

theorem IsWordOf.ne_nil (isWord : IsWordOf isPart word) : word ≠ [] := by
  rintro rfl
  exact isWord

/-- Blanks end a word, and so does what ends it after them. -/
theorem endsWord_blanks (notBlank : ∀ {character}, isPart character = true →
    isBlank character = false) (blank : AllBlank blanks) (ends : EndsWord isPart rest) :
    EndsWord isPart (blanks ++ rest) := by
  cases blanks with
  | nil => exact ends
  | cons first blanks =>
    refine Bool.eq_false_iff.mpr fun part => ?_
    have white := blank first List.mem_cons_self
    rw [notBlank part] at white
    cases white

theorem readWord?_append (isWord : IsWordOf isPart word) (ends : EndsWord isPart rest) :
    readWord? isPart (word ++ rest) = some (word, rest) := by
  cases word with
  | nil => exact isWord.elim
  | cons first parts =>
    obtain ⟨start, all⟩ := isWord
    have taken : rest.takeWhile isPart = [] := by
      cases rest with
      | nil => rfl
      | cons next rest => exact List.takeWhile_cons_of_neg (Bool.eq_false_iff.mp ends)
    have dropped : rest.dropWhile isPart = rest := by
      cases rest with
      | nil => rfl
      | cons next rest => exact List.dropWhile_cons_of_neg (Bool.eq_false_iff.mp ends)
    simp only [List.cons_append, readWord?, start, if_true, List.takeWhile_append_of_pos all,
      List.dropWhile_append_of_pos all, taken, dropped, List.append_nil]

theorem isWordOf_of_readWord? (read : readWord? isPart characters = some (word, rest)) :
    characters = word ++ rest ∧ IsWordOf isPart word := by
  cases characters with
  | nil => cases read
  | cons first more =>
    simp only [readWord?, Option.ite_none_right_eq_some, Option.some.injEq, Prod.mk.injEq] at read
    obtain ⟨start, rfl, rfl⟩ := read
    exact ⟨by rw [List.cons_append, List.takeWhile_append_dropWhile], start,
      List.all_eq_true.mp List.all_takeWhile⟩

/-! ### The parts of a definition -/

/-- How the type of a result is written: as a word in angle brackets, or not at all. -/
inductive WritesType : List Char → Option (List Char) → Prop
  | absent : WritesType [] none
  | present {before type after : List Char} (blankBefore : AllBlank before)
      (word : IsWordOf isWordPart type) (blankAfter : AllBlank after) :
      WritesType ('<' :: (before ++ (type ++ (after ++ ['>'])))) (some type)

/-- How the parts of a definition are written. The parameters reach up to the first closing
parenthesis, and the body is all that follows the arrow; something must follow it. -/
inductive Parts.Written : List Char → Parts → Prop
  | written {before name afterName typeText afterType parameters afterList body : List Char}
      {returnType : Option (List Char)} (blankBefore : AllBlank before)
      (path : IsWordOf isPathPart name) (blankAfterName : AllBlank afterName)
      (type : WritesType typeText returnType) (blankAfterType : AllBlank afterType)
      (reach : ')' ∉ parameters) (blankAfterList : AllBlank afterList) (follows : body ≠ []) :
      Written (before ++ (name ++ (afterName ++ (typeText ++ (afterType ++
        '(' :: (parameters ++ ')' :: (afterList ++ '=' :: '>' :: body)))))))
        ⟨name, returnType, parameters, body⟩

variable {parts : Parts} {before after type name : List Char} {returnType : Option (List Char)}

theorem Parts.Written.path (written : parts.Written characters) :
    IsWordOf isPathPart parts.name := by
  cases written with
  | written _ path => exact path

theorem Parts.Written.body_ne_nil (written : parts.Written characters) : parts.body ≠ [] := by
  cases written with
  | written _ _ _ _ _ _ _ follows => exact follows

theorem readReturnType?_present (blankBefore : AllBlank before) (word : IsWordOf isWordPart type)
    (blankAfter : AllBlank after) (rest : List Char) :
    readReturnType? ('<' :: (before ++ (type ++ (after ++ '>' :: rest)))) =
      some (some type, rest) := by
  obtain ⟨first, more, rfl⟩ := List.exists_cons_of_ne_nil word.ne_nil
  have notBlank := word.not_isBlank not_isBlank_of_isWordPart first List.mem_cons_self
  have ends : EndsWord isWordPart (after ++ '>' :: rest) :=
    endsWord_blanks not_isBlank_of_isWordPart blankAfter (rfl : isWordPart '>' = false)
  have closing : skipBlanks (after ++ '>' :: rest) = '>' :: rest := by
    rw [skipBlanks_append blankAfter, skipBlanks_cons (by decide)]
  rw [readReturnType?, skipBlanks_append blankBefore, List.cons_append,
    skipBlanks_cons notBlank, ← List.cons_append, readWord?_append word ends]
  dsimp only [Option.bind_eq_bind, Option.bind_some]
  rw [closing]
  rfl

/-- A type that is written before the parameters is read, up to blanks before them. -/
theorem WritesType.read {typeText afterName afterType : List Char}
    (written : WritesType typeText returnType) (blankAfterName : AllBlank afterName)
    (blankAfterType : AllBlank afterType) (rest : List Char) :
    ∃ gap, AllBlank gap ∧
      readReturnType? (skipBlanks (afterName ++ (typeText ++ (afterType ++ '(' :: rest)))) =
        some (returnType, gap ++ '(' :: rest) := by
  rw [skipBlanks_append blankAfterName]
  cases written with
  | absent =>
    refine ⟨[], nofun, ?_⟩
    rw [List.nil_append, skipBlanks_append blankAfterType, skipBlanks_cons (by decide)]
    rfl
  | present blankBefore word blankAfter =>
    refine ⟨afterType, blankAfterType, ?_⟩
    rw [List.cons_append, skipBlanks_cons (by decide)]
    simpa only [List.append_assoc, List.singleton_append] using
      readReturnType?_present blankBefore word blankAfter (afterType ++ '(' :: rest)

theorem writesType_of_readReturnType? (read : readReturnType? characters = some (returnType, rest)) :
    ∃ typeText, characters = typeText ++ rest ∧ WritesType typeText returnType := by
  unfold readReturnType? at read
  split at read
  next inside =>
    obtain ⟨⟨type, after⟩, typeRead, closed⟩ := Option.bind_eq_some_iff.mp read
    obtain ⟨before, blankBefore, parts⟩ := exists_skipBlanks inside
    obtain ⟨typeParts, word⟩ := isWordOf_of_readWord? typeRead
    obtain ⟨gap, blankGap, afterParts⟩ := exists_skipBlanks after
    dsimp only at closed
    split at closed <;> cases closed
    next closing =>
      refine ⟨_, ?_, .present blankBefore word blankGap⟩
      rw [parts, typeParts, afterParts, closing]
      simp only [List.cons_append, List.append_assoc, List.nil_append]
  next =>
    cases read
    exact ⟨[], rfl, .absent⟩

theorem takeWhile_parenthesis {parameters : List Char} (inside : ')' ∉ parameters)
    (rest : List Char) :
    (parameters ++ ')' :: rest).takeWhile (· != ')') = parameters ∧
      (parameters ++ ')' :: rest).dropWhile (· != ')') = ')' :: rest := by
  have all : ∀ character ∈ parameters, (character != ')') = true := by
    rintro character member
    exact bne_iff_ne.mpr fun same => inside (same ▸ member)
  rw [List.takeWhile_append_of_pos all, List.dropWhile_append_of_pos all]
  simp

/-- A definition that is written from parts is read as these parts, with the body taken out of the
blanks around it. -/
theorem Parts.Written.read (written : parts.Written characters) :
    readParts? characters = (readBody? parts.body).map fun body => { parts with body } := by
  cases written with
  | @written before name afterName typeText afterType parameters afterList body returnType
      blankBefore path blankAfterName type blankAfterType inside blankAfterList follows =>
    obtain ⟨first, more, rfl⟩ := List.exists_cons_of_ne_nil path.ne_nil
    have notBlank := path.not_isBlank not_isBlank_of_isPathPart first List.mem_cons_self
    have ends (rest : List Char) : EndsWord isPathPart
        (afterName ++ (typeText ++ (afterType ++ '(' :: rest))) := by
      refine endsWord_blanks not_isBlank_of_isPathPart blankAfterName ?_
      cases type with
      | absent =>
        rw [List.nil_append]
        exact endsWord_blanks not_isBlank_of_isPathPart blankAfterType
          (rfl : isPathPart '(' = false)
      | present => exact (rfl : isPathPart '<' = false)
    obtain ⟨gap, blankGap, typeRead⟩ := type.read blankAfterName blankAfterType
      (parameters ++ ')' :: (afterList ++ '=' :: '>' :: body))
    have opening (rest : List Char) : skipBlanks (gap ++ '(' :: rest) = '(' :: rest := by
      rw [skipBlanks_append blankGap, skipBlanks_cons (by decide)]
    have arrow : skipBlanks (afterList ++ '=' :: '>' :: body) = '=' :: '>' :: body := by
      rw [skipBlanks_append blankAfterList, skipBlanks_cons (by decide)]
    obtain ⟨listed, closed⟩ :=
      takeWhile_parenthesis inside (afterList ++ '=' :: '>' :: body)
    rw [readParts?, skipBlanks_append blankBefore, List.cons_append, skipBlanks_cons notBlank,
      ← List.cons_append, readWord?_append path (ends _)]
    dsimp only [Option.bind_eq_bind, Option.bind_some]
    rw [typeRead]
    dsimp only [Option.bind_some]
    simp only [opening, closed, listed, arrow]
    cases readBody? body <;> rfl

/-- What is read as the parts of a definition is written from them. -/
theorem written_of_readParts? (read : readParts? characters = some parts) :
    ∃ body, { parts with body }.Written characters ∧ readBody? body = some parts.body := by
  unfold readParts? at read
  obtain ⟨⟨name, afterName⟩, nameRead, read⟩ := Option.bind_eq_some_iff.mp read
  obtain ⟨⟨returnType, afterType⟩, typeRead, read⟩ := Option.bind_eq_some_iff.mp read
  obtain ⟨before, blankBefore, beforeParts⟩ := exists_skipBlanks characters
  obtain ⟨nameParts, path⟩ := isWordOf_of_readWord? nameRead
  obtain ⟨gap, blankGap, gapParts⟩ := exists_skipBlanks afterName
  obtain ⟨typeText, typeParts, type⟩ := writesType_of_readReturnType? typeRead
  obtain ⟨gap', blankGap', gapParts'⟩ := exists_skipBlanks afterType
  dsimp only at read
  split at read
  next list opened =>
    split at read
    next afterList closed =>
      obtain ⟨gap'', blankGap'', gapParts''⟩ := exists_skipBlanks afterList
      split at read
      next body arrow =>
        obtain ⟨trimmed, bodyRead, same⟩ := Option.bind_eq_some_iff.mp read
        cases same
        have inside : ')' ∉ list.takeWhile (· != ')') := fun member => by
          simpa using List.all_eq_true.mp List.all_takeWhile _ member
        have follows : body ≠ [] := by
          rintro rfl
          cases bodyRead
        have whole : characters = before ++ (name ++ (gap ++ (typeText ++ (gap' ++
            '(' :: (list.takeWhile (· != ')') ++ ')' :: (gap'' ++ '=' :: '>' :: body)))))) := by
          rw [← arrow, ← gapParts'', ← closed, List.takeWhile_append_dropWhile, ← opened,
            ← gapParts', ← typeParts, ← gapParts, ← nameParts, ← beforeParts]
        rw [whole]
        exact ⟨body, .written blankBefore path blankGap type blankGap' inside blankGap'' follows,
          bodyRead⟩
      next => cases read
    next => cases read
  next => cases read

end FunctionDefinition

end Reckon
