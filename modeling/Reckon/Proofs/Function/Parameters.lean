/-
This file says how the parameters of a definition are written, and which of
them is at fault where one is. A list of parameters is blank, or it holds
parameters with commas between them: names, with a colon and a type after them
or without, and no name twice. The fault of a list that is written otherwise is
the one of the first parameter from the left that is no parameter, or has the
name of an earlier one.
-/

import Mathlib.Data.List.Forall2
import Mathlib.Data.List.Induction
import Reckon.Proofs.Function.Notation

namespace Reckon

namespace FunctionDefinition

variable {blanks characters part : List Char} {parts before after : List (List Char)}
  {parameter : String × ValueType} {parameters seen : List (String × ValueType)}

/-! ### Single parameters -/

/-- How a parameter is written: as a name, or as a name, a colon and a type. -/
inductive WritesParameter : List Char → String × ValueType → Prop
  | untyped {before name after : List Char} (blankBefore : AllBlank before)
      (word : IsWordOf isWordPart name) (blankAfter : AllBlank after) :
      WritesParameter (before ++ (name ++ after)) (String.ofList name, .any)
  | typed {before name beforeColon afterColon type after : List Char}
      (blankBefore : AllBlank before) (word : IsWordOf isWordPart name)
      (blankBeforeColon : AllBlank beforeColon) (blankAfterColon : AllBlank afterColon)
      (typeWord : IsWordOf isWordPart type) (blankAfter : AllBlank after) :
      WritesParameter (before ++ (name ++ (beforeColon ++ ':' :: (afterColon ++ (type ++ after)))))
        (String.ofList name, .ofName (String.ofList type))

/-- Characters that begin with a word and end with one have no blank at either end. -/
theorem trimBlanks_words {first last more less : List Char} (begins : IsWordOf isWordPart first)
    (ends : IsWordOf isWordPart last) (both : first ++ more = less ++ last) :
    trimBlanks (first ++ more) = first ++ more := by
  refine trimBlanks_eq_self (fun character member => ?_) fun character member => ?_
  · rw [List.head?_append_of_ne_nil _ begins.ne_nil] at member
    exact begins.not_isBlank not_isBlank_of_isWordPart character (List.mem_of_mem_head? member)
  · rw [both, List.getLast?_append_of_ne_nil _ ends.ne_nil] at member
    exact ends.not_isBlank not_isBlank_of_isWordPart character (List.mem_of_mem_getLast? member)

theorem WritesParameter.read (written : WritesParameter part parameter) :
    readParameter? (trimBlanks part) = some parameter := by
  cases written with
  | @untyped before name after blankBefore word blankAfter =>
    have trimmed : trimBlanks name = name := by
      simpa using @trimBlanks_words _ _ [] [] word word (List.append_nil name)
    have read := @readWord?_append isWordPart [] name word trivial
    rw [List.append_nil] at read
    rw [trimBlanks_blanks_append blankBefore, trimBlanks_append_blanks blankAfter, trimmed,
      readParameter?, read]
    rfl
  | @typed before name beforeColon afterColon type after blankBefore word blankBeforeColon
      blankAfterColon typeWord blankAfter =>
    have trimmed : trimBlanks (name ++ (beforeColon ++ ':' :: (afterColon ++ type))) =
        name ++ (beforeColon ++ ':' :: (afterColon ++ type)) :=
      @trimBlanks_words _ _ _ (name ++ (beforeColon ++ ':' :: afterColon)) word typeWord (by simp)
    have ends : EndsWord isWordPart (beforeColon ++ ':' :: (afterColon ++ type)) :=
      endsWord_blanks not_isBlank_of_isWordPart blankBeforeColon (rfl : isWordPart ':' = false)
    have read := @readWord?_append isWordPart [] type typeWord trivial
    obtain ⟨first, more, rfl⟩ := List.exists_cons_of_ne_nil typeWord.ne_nil
    have notBlank := typeWord.not_isBlank not_isBlank_of_isWordPart first List.mem_cons_self
    have whole : name ++ (beforeColon ++ ':' :: (afterColon ++ (first :: more ++ after))) =
        (name ++ (beforeColon ++ ':' :: (afterColon ++ first :: more))) ++ after := by simp
    rw [trimBlanks_blanks_append blankBefore, whole, trimBlanks_append_blanks blankAfter, trimmed,
      readParameter?, readWord?_append word ends]
    dsimp only [Option.bind_eq_bind, Option.bind_some]
    rw [List.append_nil] at read
    simp only [skipBlanks_append blankBeforeColon, skipBlanks_append blankAfterColon,
      skipBlanks_cons notBlank, skipBlanks_cons (by decide : isBlank ':' = false), read]
    rfl

theorem allBlank_append {more : List Char} (first : AllBlank blanks) (second : AllBlank more) :
    AllBlank (blanks ++ more) :=
  List.forall_mem_append.mpr ⟨first, second⟩

theorem writesParameter_of_readParameter?
    (read : readParameter? (trimBlanks part) = some parameter) : WritesParameter part parameter := by
  obtain ⟨before, after, blankBefore, blankAfter, whole⟩ := exists_trimBlanks part
  unfold readParameter? at read
  obtain ⟨⟨name, rest⟩, nameRead, read⟩ := Option.bind_eq_some_iff.mp read
  obtain ⟨nameParts, word⟩ := isWordOf_of_readWord? nameRead
  rw [whole, nameParts, List.append_assoc]
  dsimp only at read
  split at read
  next nothing =>
    cases read
    exact .untyped blankBefore word (allBlank_append (skipBlanks_eq_nil_iff.mp nothing) blankAfter)
  next inside colon =>
    obtain ⟨beforeColon, blankBeforeColon, restParts⟩ := exists_skipBlanks rest
    obtain ⟨afterColon, blankAfterColon, insideParts⟩ := exists_skipBlanks inside
    obtain ⟨⟨type, nothing⟩, typeRead, read⟩ := Option.bind_eq_some_iff.mp read
    obtain ⟨typeParts, typeWord⟩ := isWordOf_of_readWord? typeRead
    dsimp only at read
    split at read <;> cases read
    next empty _ =>
      have typed := WritesParameter.typed blankBefore word blankBeforeColon blankAfterColon typeWord
        blankAfter
      rw [restParts, colon, insideParts, typeParts, empty]
      simpa only [List.append_assoc, List.cons_append, List.nil_append] using typed
  next => cases read

/-- A parameter is read off characters, without the blanks around them, just if it is written
there. -/
theorem readParameter?_eq_some_iff :
    readParameter? (trimBlanks part) = some parameter ↔ WritesParameter part parameter :=
  ⟨writesParameter_of_readParameter?, WritesParameter.read⟩

/-! ### Commas -/

/-- Characters are written from parts with commas between them. -/
structure IsSeparated (characters : List Char) (parts : List (List Char)) : Prop where
  joined : characters = [','].intercalate parts
  apart : ∀ part ∈ parts, ',' ∉ part
  nonempty : parts ≠ []

theorem splitCommas_ne_nil (characters : List Char) : splitCommas characters ≠ [] := by
  fun_cases splitCommas characters <;> nofun

theorem splitCommas_cons {first : Char} (other : first ≠ ',') (rest : List Char) :
    splitCommas (first :: rest) = (splitCommas rest).modifyHead (first :: ·) := by
  rw [splitCommas]
  · cases split : splitCommas rest with
    | nil => exact absurd split (splitCommas_ne_nil rest)
    | cons part parts => rfl
  · exact other

theorem splitCommas_eq_splitOn (characters : List Char) :
    splitCommas characters = characters.splitOn ',' := by
  induction characters with
  | nil => rfl
  | cons first rest inductionHypothesis =>
    rw [List.splitOn_cons_eq_if_modifyHead, ← inductionHypothesis]
    by_cases comma : first = ','
    · simp [comma, splitCommas]
    · simp [comma, splitCommas_cons comma]

theorem isSeparated_splitCommas (characters : List Char) :
    IsSeparated characters (splitCommas characters) where
  joined := by rw [splitCommas_eq_splitOn, List.intercalate_splitOn]
  apart := by
    induction characters with
    | nil => simp [splitCommas]
    | cons first rest inductionHypothesis =>
      by_cases comma : first = ','
      · simpa [comma, splitCommas] using inductionHypothesis
      · obtain ⟨part, parts, split⟩ := List.exists_cons_of_ne_nil (splitCommas_ne_nil rest)
        rw [split] at inductionHypothesis
        simpa [splitCommas_cons comma, split, Ne.symm comma] using inductionHypothesis
  nonempty := splitCommas_ne_nil characters

/-- Characters are split in the one way in which they are written with commas. -/
theorem isSeparated_iff : IsSeparated characters parts ↔ splitCommas characters = parts := by
  constructor
  · intro separated
    rw [splitCommas_eq_splitOn, separated.joined,
      List.splitOn_intercalate ',' separated.apart separated.nonempty]
  · rintro rfl
    exact isSeparated_splitCommas characters

/-- Characters without a comma at the front belong to the first part. -/
theorem splitCommas_append_left {more : List Char} (inside : ',' ∉ more) (characters : List Char) :
    splitCommas (more ++ characters) = (splitCommas characters).modifyHead (more ++ ·) := by
  obtain ⟨part, parts, split⟩ := List.exists_cons_of_ne_nil (splitCommas_ne_nil characters)
  rw [split, List.modifyHead_cons]
  induction more with
  | nil => exact split
  | cons first more inductionHypothesis =>
    obtain ⟨other, inside⟩ := not_or.mp (List.mem_cons.not.mp inside)
    rw [List.cons_append, splitCommas_cons (Ne.symm other), inductionHypothesis inside,
      List.modifyHead_cons, List.cons_append]

/-- Characters without a comma at the back belong to the last part. -/
theorem splitCommas_append_right {more : List Char} (inside : ',' ∉ more)
    (characters : List Char) :
    ∃ init last, splitCommas characters = init ++ [last] ∧
      splitCommas (characters ++ more) = init ++ [last ++ more] := by
  induction characters with
  | nil =>
    refine ⟨[], [], rfl, ?_⟩
    simpa [splitCommas] using splitCommas_append_left inside []
  | cons first rest inductionHypothesis =>
    obtain ⟨init, last, split, splitMore⟩ := inductionHypothesis
    by_cases comma : first = ','
    · subst comma
      exact ⟨[] :: init, last, congrArg ([] :: ·) split, congrArg ([] :: ·) splitMore⟩
    · rw [List.cons_append, splitCommas_cons comma, splitCommas_cons comma, split, splitMore]
      cases init with
      | nil => exact ⟨[], first :: last, rfl, rfl⟩
      | cons part init => exact ⟨(first :: part) :: init, last, rfl, rfl⟩

theorem AllBlank.no_comma (blank : AllBlank blanks) : ',' ∉ blanks :=
  fun member => absurd (blank ',' member) (by decide)

/-- It makes no difference whether characters are taken out of the blanks around them before they
are split. -/
theorem trimmed_splitCommas_trimBlanks (characters : List Char) :
    (splitCommas (trimBlanks characters)).map trimBlanks =
      (splitCommas characters).map trimBlanks := by
  obtain ⟨before, after, blankBefore, blankAfter, whole⟩ := exists_trimBlanks characters
  obtain ⟨init, last, split, splitMore⟩ :=
    splitCommas_append_right blankAfter.no_comma (trimBlanks characters)
  conv_rhs => rw [whole, splitCommas_append_left blankBefore.no_comma, splitMore]
  rw [split]
  cases init with
  | nil =>
    simp [trimBlanks_blanks_append blankBefore, trimBlanks_append_blanks blankAfter]
  | cons part init =>
    simp [trimBlanks_blanks_append blankBefore, trimBlanks_append_blanks blankAfter]

/-! ### Lists of parameters -/

/-- How the parameters of a definition are written: there are none, or they stand between commas
and no two have one name. -/
inductive WritesParameters : List Char → List (String × ValueType) → Prop
  | none {characters : List Char} (blank : AllBlank characters) : WritesParameters characters []
  | some {characters : List Char} {parts : List (List Char)}
      {parameters : List (String × ValueType)} (separated : IsSeparated characters parts)
      (written : List.Forall₂ WritesParameter parts parameters)
      (distinct : (parameters.map Prod.fst).Nodup) : WritesParameters characters parameters

/-- The fault of a list of parameters: the first part from the left that is no parameter, or that
is one with the name of an earlier one. -/
inductive FirstFault : List Char → DefinitionError → Prop
  | unreadable {characters part : List Char} {before after : List (List Char)}
      {parameters : List (String × ValueType)} (notBlank : ¬ AllBlank characters)
      (separated : IsSeparated characters (before ++ part :: after))
      (written : List.Forall₂ WritesParameter before parameters)
      (distinct : (parameters.map Prod.fst).Nodup)
      (unreadable : ∀ parameter, ¬ WritesParameter part parameter) :
      FirstFault characters (.invalidParameter (String.ofList (trimBlanks part)))
  | repeated {characters part : List Char} {before after : List (List Char)}
      {parameters : List (String × ValueType)} {parameter : String × ValueType}
      (notBlank : ¬ AllBlank characters)
      (separated : IsSeparated characters (before ++ part :: after))
      (written : List.Forall₂ WritesParameter before parameters)
      (distinct : (parameters.map Prod.fst).Nodup) (again : WritesParameter part parameter)
      (member : parameter.1 ∈ parameters.map Prod.fst) :
      FirstFault characters (.duplicateParameter parameter.1)

/-- Parameters that are written before others are read before them, and their names are not free
any more for the others. -/
theorem readParameters_append (written : List.Forall₂ WritesParameter before parameters)
    (distinct : (parameters.map Prod.fst).Nodup)
    (fresh : ∀ parameter ∈ parameters, parameter.1 ∉ seen.map Prod.fst)
    (after : List (List Char)) :
    readParameters seen ((before ++ after).map trimBlanks) =
      (readParameters (parameters.reverse ++ seen) (after.map trimBlanks)).map
        (parameters ++ ·) := by
  induction written generalizing seen with
  | nil =>
    rw [List.nil_append, List.reverse_nil, List.nil_append]
    cases readParameters seen (after.map trimBlanks) <;> rfl
  | @cons part parameter before parameters first written inductionHypothesis =>
    obtain ⟨name, type⟩ := parameter
    obtain ⟨free, fresh⟩ := List.forall_mem_cons.mp fresh
    obtain ⟨notLater, distinct⟩ := List.nodup_cons.mp distinct
    have later : ∀ parameter ∈ parameters, parameter.1 ∉ ((name, type) :: seen).map Prod.fst := by
      intro parameter member
      rw [List.map_cons, List.mem_cons, not_or]
      exact ⟨fun same => notLater (same ▸ List.mem_map_of_mem member), fresh parameter member⟩
    rw [List.cons_append, List.map_cons, readParameters, first.read]
    dsimp only
    rw [if_neg free, inductionHypothesis distinct later, List.reverse_cons, List.append_assoc,
      List.singleton_append]
    cases readParameters (parameters.reverse ++ (name, type) :: seen) (after.map trimBlanks) <;> rfl

theorem readParameters_written (written : List.Forall₂ WritesParameter before parameters)
    (distinct : (parameters.map Prod.fst).Nodup) (after : List (List Char)) :
    readParameters [] ((before ++ after).map trimBlanks) =
      (readParameters parameters.reverse (after.map trimBlanks)).map (parameters ++ ·) := by
  have fresh : ∀ parameter ∈ parameters,
      parameter.1 ∉ ([] : List (String × ValueType)).map Prod.fst := fun _ _ => List.not_mem_nil
  rw [readParameters_append written distinct fresh, List.append_nil]

theorem trimBlanks_eq_nil_iff : trimBlanks characters = [] ↔ AllBlank characters := by
  constructor
  · intro nothing
    obtain ⟨before, after, blankBefore, blankAfter, whole⟩ := exists_trimBlanks characters
    rw [whole, nothing]
    exact allBlank_append blankBefore blankAfter
  · intro blank
    have trimmed := trimBlanks_blanks_append blank []
    rwa [List.append_nil] at trimmed

theorem parametersOf_of_allBlank (blank : AllBlank characters) : parametersOf characters = .ok [] :=
  if_pos (trimBlanks_eq_nil_iff.mpr blank)

theorem parametersOf_of_not_allBlank (notBlank : ¬ AllBlank characters) :
    parametersOf characters = readParameters [] ((splitCommas characters).map trimBlanks) := by
  rw [parametersOf, if_neg (trimBlanks_eq_nil_iff.not.mpr notBlank),
    trimmed_splitCommas_trimBlanks]

theorem WritesParameter.not_allBlank (written : WritesParameter part parameter) :
    ¬ AllBlank part := by
  intro blank
  have read := written.read
  rw [trimBlanks_eq_nil_iff.mpr blank] at read
  cases read

/-- Where a parameter is written there is more than blanks. -/
theorem not_allBlank_of_forall₂ (separated : IsSeparated characters parts)
    (written : List.Forall₂ WritesParameter parts parameters) : ¬ AllBlank characters := by
  intro blank
  have single := splitCommas_append_left blank.no_comma []
  rw [List.append_nil, isSeparated_iff.mp separated] at single
  obtain rfl : parts = [characters] := by simpa [splitCommas] using single
  cases written with
  | cons first _ => exact first.not_allBlank blank

/-- Parameters are read as they are written. -/
theorem WritesParameters.parametersOf_eq (written : WritesParameters characters parameters) :
    parametersOf characters = .ok parameters := by
  cases written with
  | none blank => exact parametersOf_of_allBlank blank
  | some separated written distinct =>
    have read := readParameters_written written distinct []
    rw [List.append_nil] at read
    rw [parametersOf_of_not_allBlank (not_allBlank_of_forall₂ separated written),
      isSeparated_iff.mp separated, read]
    exact congrArg Except.ok (List.append_nil parameters)

/-- The first fault of a list of parameters is reported. -/
theorem FirstFault.parametersOf_eq {error : DefinitionError} (fault : FirstFault characters error) :
    parametersOf characters = .error error := by
  cases fault with
  | @unreadable part before after parameters notBlank separated written distinct unreadable =>
    have read := readParameters_written written distinct (part :: after)
    have nothing : readParameter? (trimBlanks part) = none :=
      Option.eq_none_iff_forall_not_mem.mpr fun parameter read =>
        unreadable parameter (readParameter?_eq_some_iff.mp read)
    rw [parametersOf_of_not_allBlank notBlank, isSeparated_iff.mp separated, read, List.map_cons,
      readParameters, nothing]
    rfl
  | @repeated part before after parameters parameter notBlank separated written distinct again
      member =>
    have read := readParameters_written written distinct (part :: after)
    have taken : parameter.1 ∈ parameters.reverse.map Prod.fst := by
      rwa [List.map_reverse, List.mem_reverse]
    rw [parametersOf_of_not_allBlank notBlank, isSeparated_iff.mp separated, read, List.map_cons,
      readParameters, again.read]
    dsimp only
    rw [if_pos taken]
    rfl

/-- Parts are all parameters with names of their own, or one is not after others that are. -/
theorem distinct_or_offends (parts : List (List Char)) :
    (∃ parameters, List.Forall₂ WritesParameter parts parameters ∧
      (parameters.map Prod.fst).Nodup) ∨
    ∃ before part after parameters, parts = before ++ part :: after ∧
      List.Forall₂ WritesParameter before parameters ∧ (parameters.map Prod.fst).Nodup ∧
      ((∀ parameter, ¬ WritesParameter part parameter) ∨
        ∃ parameter, WritesParameter part parameter ∧ parameter.1 ∈ parameters.map Prod.fst) := by
  induction parts using List.reverseRecOn with
  | nil => exact .inl ⟨[], .nil, List.nodup_nil⟩
  | append_singleton init last inductionHypothesis =>
    rcases inductionHypothesis with
      ⟨parameters, written, distinct⟩ | ⟨before, part, after, parameters, rfl, earlier⟩
    · by_cases readable : ∃ parameter, WritesParameter last parameter
      · obtain ⟨parameter, again⟩ := readable
        by_cases member : parameter.1 ∈ parameters.map Prod.fst
        · exact .inr ⟨init, last, [], parameters, rfl, written, distinct,
            .inr ⟨parameter, again, member⟩⟩
        · refine .inl ⟨parameters ++ [parameter],
            List.rel_append written (.cons again .nil), ?_⟩
          rw [List.map_append, List.map_singleton, List.nodup_append]
          refine ⟨distinct, List.pairwise_singleton _ _, fun name earlier other last => ?_⟩
          obtain rfl := List.mem_singleton.mp last
          exact fun same => member (same ▸ earlier)
      · exact .inr ⟨init, last, [], parameters, rfl, written, distinct,
          .inl (not_exists.mp readable)⟩
    · exact .inr ⟨before, part, after ++ [last], parameters, by simp, earlier⟩

/-- A list of parameters is written as one, or it has a first fault. -/
theorem writesParameters_or_firstFault (characters : List Char) :
    (∃ parameters, WritesParameters characters parameters) ∨
      ∃ error, FirstFault characters error := by
  by_cases blank : AllBlank characters
  · exact .inl ⟨[], .none blank⟩
  have separated := isSeparated_splitCommas characters
  rcases distinct_or_offends (splitCommas characters) with
    ⟨parameters, written, distinct⟩ | ⟨before, part, after, parameters, split, written, distinct,
      unreadable | ⟨parameter, again, member⟩⟩
  · exact .inl ⟨parameters, .some separated written distinct⟩
  · rw [split] at separated
    exact .inr ⟨_, .unreadable blank separated written distinct unreadable⟩
  · rw [split] at separated
    exact .inr ⟨_, .repeated blank separated written distinct again member⟩

/-- What is read as a list of parameters is written as one. -/
theorem parametersOf_eq_ok_iff :
    parametersOf characters = .ok parameters ↔ WritesParameters characters parameters := by
  refine ⟨fun read => ?_, WritesParameters.parametersOf_eq⟩
  rcases writesParameters_or_firstFault characters with ⟨others, written⟩ | ⟨error, fault⟩
  · rw [written.parametersOf_eq] at read
    cases read
    exact written
  · rw [fault.parametersOf_eq] at read
    cases read

end FunctionDefinition

end Reckon
