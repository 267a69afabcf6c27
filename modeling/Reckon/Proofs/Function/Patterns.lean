/-
This file describes definitions by patterns. A pattern is tried as a
backtracking matcher tries it: where there is a choice one way goes first, and
the others only if all that comes after it fails. The patterns of definitions
leave many choices: blanks can be given back, names can be cut short, and the
body can end early. None of them makes a difference, or hardly any, since what
is given back fits nothing that follows. So the first match of a pattern has
the parts that are read directly.
-/

import Reckon.Proofs.Function.Definitions

namespace Reckon

/-- A pattern of characters, with numbered groups. -/
inductive Pattern where
  /-- A character of a kind. -/
  | one (accepts : Char → Bool)
  /-- Characters of a kind, first as many as there are. -/
  | many (accepts : Char → Bool)
  /-- One character of a kind or more, first as few as can be. -/
  | fewest (accepts : Char → Bool)
  /-- A pattern, or else nothing. -/
  | optional (pattern : Pattern)
  /-- A pattern whose characters are kept under a number. -/
  | group (number : Nat) (pattern : Pattern)
  /-- The end of the text. -/
  | stop
  /-- A pattern and another one after it. -/
  | followed (first second : Pattern)

namespace Pattern

/-- The groups that were matched, with their characters. -/
abbrev Groups := List (Nat × List Char)

variable {Result : Type} {accepts isPart : Char → Bool} {characters : List Char}
  {groups : Groups}

/-! ### Matching -/

/-- What comes after characters of a kind: first after all of them, then after one less. -/
def afterMany (accepts : Char → Bool) (next : List Char → Option Result) :
    List Char → Option Result
  | [] => next []
  | first :: rest =>
    if accepts first then (afterMany accepts next rest).or (next (first :: rest))
    else next (first :: rest)

/-- What comes after characters of a kind: first after one, then after one more. -/
def afterFewest (accepts : Char → Bool) (next : List Char → Option Result) :
    List Char → Option Result
  | [] => none
  | first :: rest =>
    if accepts first then (next rest).or (afterFewest accepts next rest) else none

/-- Tries a pattern, and what comes next after each way in which it matches. -/
def run : Pattern → (List Char → Groups → Option Result) → List Char → Groups → Option Result
  | .one _, _, [], _ => none
  | .one accepts, next, first :: rest, groups => if accepts first then next rest groups else none
  | .many accepts, next, characters, groups =>
    afterMany accepts (fun rest => next rest groups) characters
  | .fewest accepts, next, characters, groups =>
    afterFewest accepts (fun rest => next rest groups) characters
  | .optional pattern, next, characters, groups =>
    (pattern.run next characters groups).or (next characters groups)
  | .group number pattern, next, characters, groups =>
    pattern.run (fun rest groups =>
      next rest (groups ++ [(number, characters.take (characters.length - rest.length))]))
      characters groups
  | .stop, next, characters, groups => if characters = [] then next [] groups else none
  | .followed first second, next, characters, groups =>
    first.run (second.run next) characters groups

/-- Takes the groups as they are. -/
def take : List Char → Groups → Option Groups :=
  fun _ groups => some groups

/-- The groups of the first way in which a pattern matches at the front of characters. -/
def groups? (pattern : Pattern) (characters : List Char) : Option Groups :=
  pattern.run take characters []

/-! ### Choices that make no difference -/

/-- Giving characters back is of no use if nothing matches there that does not match after all
of them. -/
theorem afterMany_eq {next : List Char → Option Result}
    (fails : ∀ first rest, accepts first = true → next (rest.dropWhile accepts) = none →
      next (first :: rest) = none) (characters : List Char) :
    afterMany accepts next characters = next (characters.dropWhile accepts) := by
  induction characters with
  | nil => rfl
  | cons first rest inductionHypothesis =>
    rw [afterMany, List.dropWhile_cons, inductionHypothesis]
    by_cases accepted : accepts first = true
    · rw [if_pos accepted, if_pos accepted]
      cases after : next (rest.dropWhile accepts) with
      | some result => rfl
      | none => exact (Option.none_or).trans (fails first rest accepted after)
    · rw [if_neg accepted, if_neg accepted]

/-- What matches after all of the characters matches first. -/
theorem afterMany_of_some {next : List Char → Option Result} {result : Result}
    (found : next (characters.dropWhile accepts) = some result) :
    afterMany accepts next characters = some result := by
  induction characters with
  | nil => exact found
  | cons first rest inductionHypothesis =>
    rw [afterMany]
    rw [List.dropWhile_cons] at found
    by_cases accepted : accepts first = true
    · rw [if_pos accepted] at found
      rw [if_pos accepted, inductionHypothesis found]
      rfl
    · rwa [if_neg accepted] at found ⊢

/-- If nothing matches after all of the characters the last is given back. -/
theorem afterMany_append_singleton {next : List Char → Option Result} {last : Char}
    (all : ∀ character ∈ characters ++ [last], accepts character = true) (nothing : next [] = none)
    {result : Result} (found : next [last] = some result) :
    afterMany accepts next (characters ++ [last]) = some result := by
  induction characters with
  | nil =>
    rw [List.nil_append, afterMany, if_pos (all last (by simp)), afterMany, nothing]
    exact found
  | cons first rest inductionHypothesis =>
    obtain ⟨accepted, all⟩ := List.forall_mem_cons.mp all
    rw [List.cons_append, afterMany, if_pos accepted, inductionHypothesis all]
    rfl

/-- More characters are taken until what comes after them matches. -/
theorem afterFewest_append {next : List Char → Option Result} {last : Char} {after : List Char}
    {result : Result} (fails : characters ≠ [] → ∀ more, next (more ++ last :: after) = none)
    (found : next after = some result) :
    afterFewest (fun _ => true) next (characters ++ last :: after) = some result := by
  induction characters with
  | nil =>
    rw [List.nil_append, afterFewest, if_pos rfl, found]
    rfl
  | cons first rest inductionHypothesis =>
    have fails := fails (List.cons_ne_nil first rest)
    rw [List.cons_append, afterFewest, if_pos rfl, fails rest, Option.none_or]
    exact inductionHypothesis fun _ => fails

/-! ### Characters, blanks and words -/

/-- A given character as a pattern. -/
def character (expected : Char) : Pattern :=
  .one (· == expected)

/-- Blanks as a pattern. -/
def blanks : Pattern :=
  .many isBlank

/-- A word as a pattern. -/
def word (isPart : Char → Bool) : Pattern :=
  .followed (.one FunctionDefinition.isWordStart) (.many isPart)

open FunctionDefinition

theorem run_character_cons_of_ne {expected first : Char} (other : first ≠ expected)
    (next : List Char → Groups → Option Result) (rest : List Char) :
    (character expected).run next (first :: rest) groups = none := by
  rw [character, run, if_neg (by simpa using other)]

theorem run_character_cons (expected : Char) (next : List Char → Groups → Option Result)
    (rest : List Char) : (character expected).run next (expected :: rest) groups =
      next rest groups := by
  rw [character, run, if_pos (beq_self_eq_true expected)]

/-- Where nothing that is sought begins with a blank all blanks are skipped. -/
theorem run_blanks {next : List Char → Groups → Option Result}
    (fails : ∀ first rest, isBlank first = true → next (skipBlanks rest) groups = none →
      next (first :: rest) groups = none) (characters : List Char) :
    blanks.run next characters groups = next (skipBlanks characters) groups :=
  afterMany_eq fails characters

theorem take_length_sub (before after : List Char) :
    (before ++ after).take ((before ++ after).length - after.length) = before := by
  simp

/-- Where nothing that is sought begins with a character of a word it is matched as far as it
goes. -/
theorem run_word {next : List Char → Groups → Option Result}
    (fails : ∀ first rest groups, isPart first = true → next (first :: rest) groups = none)
    (number : Nat) (characters : List Char) (groups : Groups) :
    (group number (word isPart)).run next characters groups =
      (readWord? isPart characters).bind fun (name, rest) =>
        next rest (groups ++ [(number, name)]) := by
  cases characters with
  | nil => rfl
  | cons first rest =>
    rw [run, word, run, run, readWord?]
    by_cases start : isWordStart first = true
    · rw [if_pos start, if_pos start, run, afterMany_eq fun first rest part _ => fails _ _ _ part]
      have whole : first :: rest = first :: rest.takeWhile isPart ++ rest.dropWhile isPart := by
        rw [List.cons_append, List.takeWhile_append_dropWhile]
      have taken : (first :: rest).take
          ((first :: rest).length - (rest.dropWhile isPart).length) =
            first :: rest.takeWhile isPart := by
        rw [whole, take_length_sub]
      dsimp only [Option.bind_some]
      rw [taken]
    · rw [if_neg start, if_neg start]
      rfl

/-! ### The pattern of a definition -/

/-- The type of a result in angle brackets. -/
def resultType : Pattern :=
  .followed (character '<') (.followed blanks (.followed (.group 2 (word isWordPart))
    (.followed blanks (character '>'))))

/-- The body, with blanks around it. -/
def body : Pattern :=
  .followed blanks (.followed (.group 4 (.fewest fun _ => true)) (.followed blanks .stop))

/-- The arrow and the body. -/
def arrow : Pattern :=
  .followed (character '=') (.followed (character '>') body)

/-- The parameters in parentheses, and all that comes after them. -/
def list : Pattern :=
  .followed (character '(') (.followed (.group 3 (.many (· != ')'))) (.followed (character ')')
    (.followed blanks arrow)))

/-- A definition. -/
def header : Pattern :=
  .followed blanks (.followed (.group 1 (word isPathPart)) (.followed blanks
    (.followed (.optional resultType) (.followed blanks list))))

/-! ### Bodies -/

theorem run_blanks_stop (characters : List Char) (groups : Groups) :
    (followed blanks stop).run take characters groups =
      if AllBlank characters then some groups else none := by
  rw [run, run_blanks fun first rest _ _ => if_neg (List.cons_ne_nil first rest)]
  rw [run, take]
  simp only [skipBlanks_eq_nil_iff]

/-- What is not blank begins with blanks, and ends with a character that is not blank and blanks
after it. -/
theorem exists_last (notBlank : ¬ AllBlank characters) :
    ∃ init last after, skipBlanks characters = init ++ last :: after ∧ isBlank last = false ∧
      AllBlank after ∧ trimBlanks characters = init ++ [last] := by
  have kept : (skipBlanks characters).reverse.dropWhile isBlank ≠ [] := by
    intro nothing
    refine notBlank (trimBlanks_eq_nil_iff.mp ?_)
    exact congrArg List.reverse nothing
  obtain ⟨last, init, ends⟩ := List.exists_cons_of_ne_nil kept
  have parts := @List.takeWhile_append_dropWhile _ isBlank (skipBlanks characters).reverse
  rw [ends] at parts
  have split := congrArg List.reverse parts
  rw [List.reverse_reverse, List.reverse_append, List.reverse_cons, List.append_assoc,
    List.singleton_append] at split
  have first := List.head?_dropWhile_not isBlank (skipBlanks characters).reverse
  rw [ends] at first
  refine ⟨init.reverse, last, ((skipBlanks characters).reverse.takeWhile isBlank).reverse,
    split.symm, first, ?_, ?_⟩
  · exact fun character member => isBlank_of_mem_takeWhile character (List.mem_reverse.mp member)
  · rw [← List.reverse_cons, ← ends]
    rfl

/-- A body ends before the blanks at the end of the text. -/
theorem run_content {init after : List Char} {last : Char} (blankAfter : AllBlank after)
    (stays : init ≠ [] → isBlank last = false) (groups : Groups) :
    (followed (group 4 (.fewest fun _ => true)) (followed blanks stop)).run take
      (init ++ last :: after) groups = some (groups ++ [(4, init ++ [last])]) := by
  have whole : init ++ last :: after = (init ++ [last]) ++ after := by simp
  rw [run, run, run]
  refine afterFewest_append (fun some more => ?_) ?_
  · rw [run_blanks_stop, if_neg]
    intro blank
    have white := blank last (by simp)
    rw [stays some] at white
    cases white
  · rw [run_blanks_stop, if_pos blankAfter, whole, take_length_sub]

/-- Where only blanks follow the arrow the last of them is the body, in the one case in which
blanks are given back to good effect. -/
theorem run_body (characters : List Char) (groups : Groups) :
    body.run take characters groups =
      (readBody? characters).map fun content => groups ++ [(4, content)] := by
  rw [body, run, blanks, run]
  by_cases blank : AllBlank characters
  · rcases List.eq_nil_or_concat characters with rfl | ⟨init, last, rfl⟩
    · rfl
    · rw [List.concat_eq_append] at blank ⊢
      have content := @run_content [] [] last nofun (absurd rfl) groups
      rw [readBody?_of_allBlank blank (by simp), List.getLast_append_singleton]
      exact afterMany_append_singleton blank rfl content
  · obtain ⟨init, last, after, skipped, notBlank, blankAfter, trimmed⟩ := exists_last blank
    rw [readBody?_of_not_allBlank blank, trimmed]
    refine afterMany_of_some ?_
    have content := @run_content init after last blankAfter (fun _ => notBlank) groups
    rwa [← skipped] at content

/-! ### Parameters in parentheses and the arrow -/

/-- Reads an arrow and a body. -/
def readArrow? : List Char → Option (List Char)
  | '=' :: '>' :: content => readBody? content
  | _ => none

/-- Reads a closing parenthesis, and an arrow and a body after blanks. -/
def readClosed? : List Char → Option (List Char)
  | ')' :: after => readArrow? (skipBlanks after)
  | _ => none

/-- Reads parameters in parentheses, and an arrow and a body after them. -/
def readList? : List Char → Option (List Char × List Char)
  | '(' :: rest =>
    (readClosed? (rest.dropWhile (· != ')'))).map fun content =>
      (rest.takeWhile (· != ')'), content)
  | _ => none

theorem readArrow?_arrow (content : List Char) :
    readArrow? ('=' :: '>' :: content) = readBody? content :=
  rfl

theorem readClosed?_parenthesis (after : List Char) :
    readClosed? (')' :: after) = readArrow? (skipBlanks after) :=
  rfl

theorem readList?_parenthesis (rest : List Char) :
    readList? ('(' :: rest) =
      (readClosed? (rest.dropWhile (· != ')'))).map fun content =>
        (rest.takeWhile (· != ')'), content) :=
  rfl

theorem readArrow?_eq_none (other : ∀ content, characters = '=' :: '>' :: content → False) :
    readArrow? characters = none := by
  unfold readArrow?
  split
  next => exact (other _ rfl).elim
  next => rfl

theorem readClosed?_eq_none (other : ∀ after, characters = ')' :: after → False) :
    readClosed? characters = none := by
  unfold readClosed?
  split
  next => exact (other _ rfl).elim
  next => rfl

theorem readList?_eq_none (other : ∀ rest, characters = '(' :: rest → False) :
    readList? characters = none := by
  unfold readList?
  split
  next => exact (other _ rfl).elim
  next => rfl

theorem readParts?_eq (definition : List Char) :
    readParts? definition =
      (readWord? isPathPart (skipBlanks definition)).bind fun (name, afterName) =>
        (readReturnType? (skipBlanks afterName)).bind fun (returnType, afterType) =>
          (readList? (skipBlanks afterType)).map fun (parameters, content) =>
            ⟨name, returnType, parameters, content⟩ := by
  unfold readParts?
  refine congrArg (Option.bind _) (funext fun (name, afterName) => ?_)
  refine congrArg (Option.bind _) (funext fun (returnType, afterType) => ?_)
  dsimp only
  generalize skipBlanks afterType = opened
  split
  next rest =>
    rw [readList?_parenthesis]
    generalize rest.dropWhile (· != ')') = closed
    split
    next after =>
      rw [readClosed?_parenthesis]
      generalize skipBlanks after = arrow
      split
      next content =>
        rw [readArrow?_arrow]
        cases readBody? content <;> rfl
      next other =>
        rw [readArrow?_eq_none other]
        rfl
    next other =>
      rw [readClosed?_eq_none other]
      rfl
  next other =>
    rw [readList?_eq_none other]
    rfl

theorem run_arrow (characters : List Char) (groups : Groups) :
    arrow.run take characters groups =
      (readArrow? characters).map fun content => groups ++ [(4, content)] := by
  rw [arrow, run]
  unfold readArrow?
  split
  next content => rw [run_character_cons, run, run_character_cons, run_body]
  next other =>
    rcases characters with _ | ⟨first, rest⟩
    · rfl
    · by_cases equal : first = '='
      · subst equal
        rw [run_character_cons, run]
        rcases rest with _ | ⟨second, rest⟩
        · rfl
        · exact run_character_cons_of_ne (by rintro rfl; exact other rest rfl) _ _
      · exact run_character_cons_of_ne equal _ _

/-- The arrow does not begin with a blank. -/
theorem run_blanks_arrow (characters : List Char) (groups : Groups) :
    (followed blanks arrow).run take characters groups =
      (readArrow? (skipBlanks characters)).map fun content => groups ++ [(4, content)] := by
  rw [run, run_blanks, run_arrow]
  intro first rest blank _
  refine run_character_cons_of_ne ?_ _ _
  rintro rfl
  cases blank

theorem run_closed (characters : List Char) (groups : Groups) :
    (followed (character ')') (followed blanks arrow)).run take characters groups =
      (readClosed? characters).map fun content => groups ++ [(4, content)] := by
  rw [run]
  unfold readClosed?
  split
  next after => rw [run_character_cons, run_blanks_arrow]
  next other =>
    rcases characters with _ | ⟨first, rest⟩
    · rfl
    · exact run_character_cons_of_ne (by rintro rfl; exact other rest rfl) _ _

theorem run_list (characters : List Char) (groups : Groups) :
    list.run take characters groups =
      (readList? characters).map fun (parameters, content) =>
        groups ++ [(3, parameters), (4, content)] := by
  rw [list, run]
  unfold readList?
  split
  next rest =>
    have taken := take_length_sub (rest.takeWhile (· != ')')) (rest.dropWhile (· != ')'))
    rw [List.takeWhile_append_dropWhile] at taken
    rw [run_character_cons, run, run, run, afterMany_eq, taken, run_closed, Option.map_map]
    · refine congrArg (Option.map · _) (funext fun content => ?_)
      exact List.append_assoc _ _ _
    · intro first more notClosing _
      exact run_character_cons_of_ne (bne_iff_ne.mp notClosing) _ _
  next other =>
    rcases characters with _ | ⟨first, rest⟩
    · rfl
    · exact run_character_cons_of_ne (by rintro rfl; exact other rest rfl) _ _

/-! ### The type of the result -/

/-- Blanks before a character that is none are skipped. -/
theorem run_blanks_character {expected : Char} (notBlank : isBlank expected = false)
    (next : List Char → Groups → Option Result) (characters : List Char) (groups : Groups) :
    (followed blanks (character expected)).run next characters groups =
      (character expected).run next (skipBlanks characters) groups := by
  rw [run, run_blanks]
  intro first rest blank _
  refine run_character_cons_of_ne ?_ _ _
  rintro rfl
  rw [notBlank] at blank
  cases blank

theorem readWord?_of_isBlank {first : Char} (blank : isBlank first = true) (rest : List Char) :
    readWord? isPart (first :: rest) = none := by
  refine if_neg fun start => ?_
  have notBlank := not_isBlank_of_isWordPart (isWordPart_of_isWordStart start)
  rw [blank] at notBlank
  cases notBlank

/-- Blanks before a word are skipped, and the word is matched as far as it goes. -/
theorem run_blanks_word {next : List Char → Groups → Option Result}
    (fails : ∀ first rest groups, isPart first = true → next (first :: rest) groups = none)
    (number : Nat) (characters : List Char) (groups : Groups) :
    blanks.run ((group number (word isPart)).run next) characters groups =
      (readWord? isPart (skipBlanks characters)).bind fun (name, rest) =>
        next rest (groups ++ [(number, name)]) := by
  rw [run_blanks, run_word fails]
  intro first rest blank _
  rw [run_word fails, readWord?_of_isBlank blank]
  rfl

/-- The group of a type, if there is one. -/
def typeGroups (returnType : Option (List Char)) : Groups :=
  returnType.toList.map fun type => (2, type)

theorem run_resultType (next : List Char → Groups → Option Result) (rest : List Char)
    (groups : Groups) :
    resultType.run next ('<' :: rest) groups =
      (readReturnType? ('<' :: rest)).bind fun (returnType, rest) =>
        next rest (groups ++ typeGroups returnType) := by
  have fails : ∀ first rest groups, isWordPart first = true →
      (followed blanks (character '>')).run next (first :: rest) groups = none := by
    intro first rest groups part
    have notBlank := not_isBlank_of_isWordPart part
    rw [run_blanks_character (by decide), skipBlanks_cons notBlank]
    refine run_character_cons_of_ne ?_ _ _
    rintro rfl
    cases part
  rw [resultType, run, run_character_cons, run]
  show blanks.run ((group 2 (word isWordPart)).run
    ((followed blanks (character '>')).run next)) rest groups = _
  rw [run_blanks_word fails, readReturnType?]
  cases readWord? isWordPart (skipBlanks rest) with
  | none => rfl
  | some found =>
    dsimp only [Option.bind_eq_bind, Option.bind_some]
    rw [run_blanks_character (by decide)]
    generalize skipBlanks found.2 = closed
    split
    next after =>
      rw [run_character_cons]
      rfl
    next other =>
      rcases closed with _ | ⟨first, more⟩
      · rfl
      · exact run_character_cons_of_ne (by rintro rfl; exact other more rfl) _ _

theorem run_blanks_list (characters : List Char) (groups : Groups) :
    (followed blanks list).run take characters groups =
      (readList? (skipBlanks characters)).map fun (parameters, content) =>
        groups ++ [(3, parameters), (4, content)] := by
  rw [run, run_blanks, run_list]
  intro first rest blank _
  rw [run_list, readList?_eq_none]
  · rfl
  · rintro more same
    obtain ⟨rfl, -⟩ := List.cons.inj same
    cases blank

/-! ### Definitions -/

/-- What a definition has after its name. -/
def readRest? (characters : List Char) (groups : Groups) : Option Groups :=
  (readReturnType? characters).bind fun (returnType, afterType) =>
    (readList? (skipBlanks afterType)).map fun (parameters, content) =>
      groups ++ typeGroups returnType ++ [(3, parameters), (4, content)]

theorem readReturnType?_of_ne {first : Char} (other : first ≠ '<') (rest : List Char) :
    readReturnType? (first :: rest) = some (none, first :: rest) := by
  unfold readReturnType?
  split
  next same => exact absurd (List.cons.inj same).1 other
  next => rfl

theorem readList?_of_ne {first : Char} (other : first ≠ '(') (rest : List Char) :
    readList? (first :: rest) = none :=
  readList?_eq_none fun _ same => other (List.cons.inj same).1

/-- A type is matched where there is one. -/
theorem run_optional (characters : List Char) (groups : Groups) :
    (followed (.optional resultType) (followed blanks list)).run take characters groups =
      readRest? characters groups := by
  have direct (characters : List Char) (groups : Groups) :
      (followed blanks list).run take characters groups =
        ((readList? (skipBlanks characters)).map fun (parameters, content) =>
          groups ++ typeGroups none ++ [(3, parameters), (4, content)]) := by
    rw [run_blanks_list, typeGroups, Option.toList_none, List.map_nil, List.append_nil]
  rw [run, run, readRest?]
  rcases characters with _ | ⟨first, rest⟩
  · exact (Option.none_or).trans (direct [] groups)
  · by_cases angle : first = '<'
    · subst angle
      have noList : readList? (skipBlanks ('<' :: rest)) = none := by
        rw [skipBlanks_cons (by decide), readList?_of_ne (by decide)]
      rw [run_resultType, run_blanks_list, noList, Option.map_none, Option.or_none]
      simp only [run_blanks_list]
    · rw [show resultType.run _ (first :: rest) groups = none from
        run_character_cons_of_ne angle _ _, Option.none_or, direct, readReturnType?_of_ne angle]
      rfl

theorem readRest?_of_ne {first : Char} (other : first ≠ '<') (rest : List Char)
    (groups : Groups) :
    readRest? (first :: rest) groups =
      (readList? (skipBlanks (first :: rest))).map fun (parameters, content) =>
        groups ++ typeGroups none ++ [(3, parameters), (4, content)] := by
  rw [readRest?, readReturnType?_of_ne other]
  rfl

/-- Where blanks are given back before the parameters the type is left out, and they are skipped
again. -/
theorem readRest?_of_isBlank {first : Char} (blank : isBlank first = true) {rest : List Char}
    (nothing : readRest? (skipBlanks rest) groups = none) :
    readRest? (first :: rest) groups = none := by
  have noList : readList? (skipBlanks rest) = none := by
    have again := skipBlanks_skipBlanks rest
    cases skipped : skipBlanks rest with
    | nil => rfl
    | cons second more =>
      rw [skipped] at nothing again
      by_cases angle : second = '<'
      · subst angle
        exact readList?_of_ne (by decide) more
      · rw [readRest?_of_ne angle, again] at nothing
        exact Option.map_eq_none_iff.mp nothing
  have other : first ≠ '<' := by
    rintro rfl
    cases blank
  have skipped : skipBlanks (first :: rest) = skipBlanks rest := List.dropWhile_cons_of_pos blank
  rw [readRest?_of_ne other, skipped, noList]
  rfl

theorem run_blanks_optional (characters : List Char) (groups : Groups) :
    blanks.run ((followed (.optional resultType) (followed blanks list)).run take) characters
      groups = readRest? (skipBlanks characters) groups := by
  rw [run_blanks, run_optional]
  intro first rest blank nothing
  rw [run_optional] at nothing ⊢
  exact readRest?_of_isBlank blank nothing

/-- The first match of the pattern of a definition has the parts that are read directly. -/
theorem groups?_header (characters : List Char) :
    header.groups? characters =
      (readParts? characters).map fun parts =>
        (1, parts.name) :: typeGroups parts.returnType ++
          [(3, parts.parameters), (4, parts.body)] := by
  have fails : ∀ first rest groups, isPathPart first = true →
      blanks.run ((followed (.optional resultType) (followed blanks list)).run take)
        (first :: rest) groups = none := by
    intro first rest groups part
    have notBlank := not_isBlank_of_isPathPart part
    have noAngle : first ≠ '<' := by
      rintro rfl
      cases part
    have noList : first ≠ '(' := by
      rintro rfl
      cases part
    rw [run_blanks_optional, skipBlanks_cons notBlank, readRest?_of_ne noAngle,
      skipBlanks_cons notBlank, readList?_of_ne noList]
    rfl
  show blanks.run ((group 1 (word isPathPart)).run
    (blanks.run ((followed (.optional resultType) (followed blanks list)).run take)))
      characters [] = _
  rw [run_blanks_word fails, readParts?_eq, Option.map_bind]
  refine congrArg (Option.bind _) (funext fun (name, afterName) => ?_)
  dsimp only [Function.comp]
  rw [run_blanks_optional, readRest?, Option.map_bind]
  refine congrArg (Option.bind _) (funext fun (returnType, afterType) => ?_)
  dsimp only [Function.comp]
  rw [Option.map_map]
  rfl

/-- The blanks after the arrow give the body one of them back, so that it is not empty. -/
example : header.groups? "f <t>(x) =>  ".toList =
    some [(1, ['f']), (2, ['t']), (3, ['x']), (4, [' '])] := by
  decide

/-! ### The pattern of a parameter -/

/-- A colon and the type of a parameter. -/
def parameterType : Pattern :=
  .followed (character ':') (.followed blanks (.group 2 (word isWordPart)))

/-- A parameter without blanks around it. -/
def parameter : Pattern :=
  .followed (.group 1 (word isWordPart)) (.followed blanks
    (.followed (.optional parameterType) .stop))

/-- The parameter of the groups that were matched. -/
def parameterOf (groups : Groups) : String × ValueType :=
  (String.ofList ((groups.lookup 1).getD []),
    ((groups.lookup 2).map (ValueType.ofName ∘ String.ofList)).getD .any)

/-- What a parameter has after its name. -/
def readType? : List Char → Option (Option (List Char))
  | [] => some none
  | ':' :: rest =>
    (readWord? isWordPart (skipBlanks rest)).bind fun (type, rest) =>
      if rest = [] then some (some type) else none
  | _ => none

theorem readType?_of_ne {first : Char} (other : first ≠ ':') (rest : List Char) :
    readType? (first :: rest) = none := by
  unfold readType?
  split
  next same => cases same
  next same => exact absurd (List.cons.inj same).1 other
  next => rfl

theorem readParameter?_eq (characters : List Char) :
    readParameter? characters =
      (readWord? isWordPart characters).bind fun (name, rest) =>
        (readType? (skipBlanks rest)).map fun type =>
          parameterOf ((1, name) :: typeGroups type) := by
  unfold readParameter?
  refine congrArg (Option.bind _) (funext fun (name, rest) => ?_)
  dsimp only
  generalize skipBlanks rest = after
  split
  next => rfl
  next inside =>
    rw [readType?]
    cases readWord? isWordPart (skipBlanks inside) with
    | none => rfl
    | some found =>
      dsimp only [Option.bind_eq_bind, Option.bind_some]
      split <;> rfl
  next noEnd noColon =>
    rcases after with _ | ⟨first, more⟩
    · exact (noEnd rfl).elim
    · rw [readType?_of_ne (by rintro rfl; exact noColon more rfl)]
      rfl

theorem run_stop_cons (first : Char) (rest : List Char) (groups : Groups) :
    stop.run take (first :: rest) groups = none :=
  if_neg (List.cons_ne_nil first rest)

theorem run_parameterType (characters : List Char) (groups : Groups) :
    (followed (.optional parameterType) stop).run take characters groups =
      (readType? characters).map fun type => groups ++ typeGroups type := by
  rw [run, run]
  rcases characters with _ | ⟨first, rest⟩
  · exact congrArg some (List.append_nil groups).symm
  · rw [run_stop_cons, Option.or_none]
    by_cases colon : first = ':'
    · subst colon
      rw [parameterType, run, run_character_cons, run,
        run_blanks_word fun first rest groups _ => run_stop_cons first rest groups, readType?]
      cases readWord? isWordPart (skipBlanks rest) with
      | none => rfl
      | some found =>
        dsimp only [Option.bind_some]
        rw [run]
        split <;> rfl
    · rw [readType?_of_ne colon]
      exact run_character_cons_of_ne colon _ _

/-- Neither a blank nor a character of a word begins what comes after the name. -/
theorem run_blanks_parameterType (characters : List Char) (groups : Groups) :
    blanks.run ((followed (.optional parameterType) stop).run take) characters groups =
      (readType? (skipBlanks characters)).map fun type => groups ++ typeGroups type := by
  rw [run_blanks, run_parameterType]
  intro first rest blank _
  rw [run_parameterType, readType?_of_ne]
  · rfl
  · rintro rfl
    cases blank

/-- The first match of the pattern of a parameter has the name and the type that are read
directly. -/
theorem groups?_parameter (characters : List Char) :
    (parameter.groups? characters).map parameterOf = readParameter? characters := by
  have fails : ∀ first rest groups, isWordPart first = true →
      blanks.run ((followed (.optional parameterType) stop).run take) (first :: rest) groups =
        none := by
    intro first rest groups part
    rw [run_blanks_parameterType, skipBlanks_cons (not_isBlank_of_isWordPart part),
      readType?_of_ne]
    · rfl
    · rintro rfl
      cases part
  show ((group 1 (word isWordPart)).run
    (blanks.run ((followed (.optional parameterType) stop).run take)) characters []).map _ = _
  rw [run_word fails, readParameter?_eq, Option.map_bind]
  refine congrArg (Option.bind _) (funext fun (name, rest) => ?_)
  dsimp only [Function.comp]
  rw [run_blanks_parameterType, Option.map_map]
  rfl

end Pattern

end Reckon
