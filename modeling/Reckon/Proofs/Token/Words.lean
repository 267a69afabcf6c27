/-
This file says which characters are read as given tokens. A word is read as one
token if nothing that follows could belong to it too; so of the characters
after a name or a number only the first is asked, and a symbol or a quoted text
ends by itself.
-/

import Mathlib.Data.List.TakeWhile
import Reckon.Binary64.Text
import Reckon.Expression.Printer
import Reckon.Proofs.Binary64.Literal
import Reckon.Proofs.Token.Scanning

namespace Reckon

/-! ### Characters that are read as tokens -/

/-- Characters are read, wherever they stand, as tokens of these kinds and the end. -/
def Scans (characters : List Char) (kinds : List TokenKind) : Prop :=
  ∀ position, (scanFrom position 0 characters).failure = none ∧
    (scanFrom position 0 characters).tokens.map Token.kind = kinds ++ [.endOfInput]

theorem scans_nil : Scans [] [] :=
  fun _ => ⟨rfl, rfl⟩

variable {first : Char} {rest tail : List Char} {kind : TokenKind} {kinds : List TokenKind}

theorem scanFrom_blank (position : Nat) (blank : isBlank first = true) :
    scanFrom position 0 (first :: tail) = scanFrom (position + 1) 0 tail := by
  rw [scanFrom]
  exact if_pos blank

theorem scanFrom_covered (position : Nat) (rest tail : List Char) :
    scanFrom position rest.length (rest ++ tail) = scanFrom (position + rest.length) 0 tail := by
  induction rest generalizing position with
  | nil => rfl
  | cons first rest inductionHypothesis =>
    show scanFrom (position + 1) rest.length (rest ++ tail) = _
    rw [inductionHypothesis, List.length_cons, Nat.add_assoc, Nat.add_comm 1]

/-- After a token that is recognised the reading goes on behind it. -/
theorem scanFrom_token {position : Nat} (notBlank : isBlank first = false)
    (recognised : recognise position first (rest ++ tail) = .ok (kind, rest.length)) :
    scanFrom position 0 (first :: rest ++ tail) =
      ⟨⟨kind, String.ofList (first :: rest), position⟩ ::
          (scanFrom (position + 1 + rest.length) 0 tail).tokens,
        (scanFrom (position + 1 + rest.length) 0 tail).failure⟩ := by
  rw [List.cons_append, scanFrom]
  rw [if_neg (Bool.eq_false_iff.mp notBlank), recognised]
  dsimp only
  rw [scanFrom_covered, List.take_left]

theorem Scans.blank (scans : Scans tail kinds) (blank : isBlank first = true) :
    Scans (first :: tail) kinds := by
  intro position
  rw [scanFrom_blank position blank]
  exact scans (position + 1)

theorem Scans.token (scans : Scans tail kinds) (notBlank : isBlank first = false)
    (recognised : ∀ position, recognise position first (rest ++ tail) = .ok (kind, rest.length)) :
    Scans (first :: rest ++ tail) (kind :: kinds) := by
  intro position
  have later := scans (position + 1 + rest.length)
  rw [scanFrom_token notBlank (recognised position)]
  exact ⟨later.1, congrArg (kind :: ·) later.2⟩

/-- A text whose characters are read as tokens of given kinds has tokens of these kinds. -/
theorem Scans.tokenize {source : String} (scans : Scans source.toList kinds) :
    ∃ body stop, tokenize source = .ok (body ++ [.endAt stop]) ∧ body.map Token.kind = kinds ∧
      ∀ token ∈ body, token.kind ≠ .endOfInput := by
  obtain ⟨none, same⟩ := scans 0
  obtain ⟨body, stop, tokens, noEnd⟩ :=
    scanFrom_tokens (fun _ => recognise_ne_endOfInput) none
  refine ⟨body, stop, ?_, ?_, noEnd⟩
  · unfold Reckon.tokenize scan
    dsimp only
    rw [none, tokens]
  · rw [tokens, List.map_append] at same
    exact List.append_cancel_right same

/-- A symbol of one character is read as such if what follows does not make it another. -/
theorem Scans.symbol (scans : Scans tail kinds) (notBlank : isBlank first = false)
    (recognised : ∀ position, recognise position first tail = .ok (kind, 0)) :
    Scans (first :: tail) (kind :: kinds) :=
  @Scans.token first [] tail kind kinds scans notBlank recognised

/-! ### Characters that end a token -/

/-- Whether a character belongs to no token that was complete before it. -/
def endsToken (character : Char) : Bool :=
  !isNamePart character && !(['.', '=', '&', '|'].contains character)

/-- Characters before which every token ends that is complete by then. -/
def StandsApart : List Char → Prop
  | [] => True
  | first :: _ => endsToken first = true

theorem isNamePart_of_endsToken {character : Char} (ends : endsToken character = true) :
    isNamePart character = false :=
  (Bool.not_eq_true' _).mp (Bool.and_eq_true_iff.mp ends).1

theorem isDigit_of_endsToken {character : Char} (ends : endsToken character = true) :
    character.isDigit = false := by
  refine Bool.eq_false_iff.mpr fun digit => ?_
  have part : isNamePart character = true := by
    unfold isNamePart
    rw [isNumeral_of_isDigit digit, Bool.or_true, Bool.true_or]
  rw [isNamePart_of_endsToken ends] at part
  cases part

theorem ne_of_endsToken {character mark : Char} (ends : endsToken character = true)
    (isMark : ['.', '=', '&', '|'].contains mark = true) : character ≠ mark := by
  rintro rfl
  have other := (Bool.and_eq_true_iff.mp ends).2
  rw [isMark] at other
  cases other

/-- Whether a character that follows a word can belong to no word. -/
def endsWord : Char → Bool
  | ' ' | '\n' | '(' | ')' | ',' | ';' | ':' | '<' | '>' => true
  | _ => false

/-- Characters before which a word ends. -/
def Ends : List Char → Prop
  | [] => True
  | first :: _ => endsWord first = true

theorem Ends.standsApart (ends : Ends tail) : StandsApart tail := by
  cases tail with
  | nil => trivial
  | cons first tail =>
    change endsWord first = true at ends
    unfold endsWord at ends
    split at ends
    case h_10 => cases ends
    all_goals
      show endsToken _ = true
      decide

/-! ### Names and reserved words -/

/-- Whether a character belongs to the name before it, given what follows. -/
def ContinuesName (first : Char) (rest : List Char) : Prop :=
  isNamePart first = true ∨
    first = '.' ∧ ∃ next more, rest = next :: more ∧ isNamePart next = true

theorem nameLength_cons (continues : ContinuesName first rest) :
    nameLength (first :: rest) = nameLength rest + 1 := by
  rw [nameLength.eq_def, Nat.add_comm]
  dsimp only
  by_cases part : isNamePart first = true
  · rw [if_pos part]
  · obtain ⟨point, next, more, rfl, part'⟩ := continues.resolve_left part
    rw [if_neg part, if_pos point]
    exact if_pos part'

theorem nameLength_cons_of_not (ends : ¬ ContinuesName first rest) :
    nameLength (first :: rest) = 0 := by
  rw [nameLength.eq_def]
  dsimp only
  rw [if_neg fun part => ends (.inl part)]
  by_cases point : first = '.'
  · rw [if_pos point]
    cases rest with
    | nil => rfl
    | cons next more =>
      exact if_neg fun part => ends (.inr ⟨point, next, more, rfl, part⟩)
  · rw [if_neg point]

/-- A name does not go on with what stands apart from it. -/
theorem nameLength_followed (apart : StandsApart tail) (characters : List Char) :
    nameLength (characters ++ tail) = nameLength characters := by
  have ends : ∀ {next more}, tail = next :: more → isNamePart next = false := by
    rintro next more rfl
    exact isNamePart_of_endsToken apart
  induction characters with
  | nil =>
    cases tail with
    | nil => rfl
    | cons first tail =>
      refine nameLength_cons_of_not ?_
      rintro (part | ⟨point, -⟩)
      · rw [ends rfl] at part
        cases part
      · exact ne_of_endsToken apart (by decide) point
  | cons first rest inductionHypothesis =>
    rw [List.cons_append]
    by_cases continues : ContinuesName first rest
    · have goesOn : ContinuesName first (rest ++ tail) :=
        continues.imp id fun ⟨point, next, more, same, part⟩ =>
          ⟨point, next, more ++ tail, by rw [same]; rfl, part⟩
      rw [nameLength_cons continues, nameLength_cons goesOn, inductionHypothesis]
    · rw [nameLength_cons_of_not continues]
      refine nameLength_cons_of_not ?_
      rintro (part | ⟨point, next, more, same, part⟩)
      · exact continues (.inl part)
      · cases rest with
        | nil =>
          rw [ends same] at part
          cases part
        | cons second rest =>
          obtain ⟨rfl, -⟩ := List.cons.inj same
          exact continues (.inr ⟨point, second, rest, rfl, part⟩)

/-- A name is read whole before characters that end it. -/
theorem nameLength_append (whole : nameLength rest = rest.length) (ends : Ends tail) :
    nameLength (rest ++ tail) = rest.length :=
  (nameLength_followed ends.standsApart rest).trans whole

/-- The characters that belong to a name are a name by themselves. -/
theorem nameLength_take (characters : List Char) :
    nameLength (characters.take (nameLength characters)) = nameLength characters ∧
      nameLength characters ≤ characters.length := by
  induction characters with
  | nil => exact ⟨rfl, Nat.le_refl 0⟩
  | cons first rest inductionHypothesis =>
    obtain ⟨same, within⟩ := inductionHypothesis
    by_cases continues : ContinuesName first rest
    · have later : ContinuesName first (rest.take (nameLength rest)) := by
        refine continues.imp id fun ⟨point, next, more, whole, part⟩ => ?_
        obtain rfl := whole
        rw [nameLength_cons (.inl part), List.take_succ_cons]
        exact ⟨point, next, _, rfl, part⟩
      rw [nameLength_cons continues, List.take_succ_cons, nameLength_cons later, same]
      exact ⟨rfl, Nat.succ_le_succ within⟩
    · rw [nameLength_cons_of_not continues]
      exact ⟨rfl, Nat.zero_le _⟩

/-- Characters that make up one word, as the tokens of a text have them. -/
structure IsWord (first : Char) (rest : List Char) : Prop where
  notBlank : isBlank first = false
  notQuote : ¬ (first = '"' ∨ first = '\'')
  notDigit : ¬ first.isDigit = true
  start : isNameStart first = true
  whole : nameLength rest = rest.length

/-- A word is read as what it means, as long as nothing that follows belongs to it. -/
theorem Scans.word (scans : Scans tail kinds) (word : IsWord first rest) (ends : Ends tail) :
    Scans (first :: rest ++ tail) (.ofWord (String.ofList (first :: rest)) :: kinds) := by
  refine scans.token word.notBlank fun position => ?_
  unfold recognise
  rw [if_neg word.notQuote, if_neg word.notDigit, if_pos word.start]
  dsimp only
  rw [nameLength_append word.whole ends, List.take_left]

/-! ### Numbers -/

theorem isBlank_of_isDigit {character : Char} (digit : character.isDigit = true) :
    isBlank character = false := by
  have bounds : 48 ≤ character.toNat ∧ character.toNat ≤ 57 := by
    obtain ⟨low, high⟩ := Bool.and_eq_true_iff.mp digit
    exact ⟨UInt32.le_iff_toNat_le.mp (of_decide_eq_true low),
      UInt32.le_iff_toNat_le.mp (of_decide_eq_true high)⟩
  refine Bool.eq_false_iff.mpr fun blank => ?_
  obtain ⟨range, member, low, high⟩ := CodePoints.has_iff.mp blank
  simp only [blankPoints, List.mem_cons, List.not_mem_nil, or_false] at member
  rcases member with rfl | rfl | rfl | rfl | rfl | rfl | rfl | rfl | rfl | rfl <;> omega

theorem not_quote_of_isDigit {character : Char} (digit : character.isDigit = true) :
    ¬ (character = '"' ∨ character = '\'') := by
  rintro (rfl | rfl) <;> exact absurd digit (by decide)

theorem takeWhile_isDigit_followed (apart : StandsApart tail) (characters : List Char) :
    (characters ++ tail).takeWhile Char.isDigit = characters.takeWhile Char.isDigit := by
  induction characters with
  | nil =>
    cases tail with
    | nil => rfl
    | cons first tail =>
      exact List.takeWhile_cons_of_neg (Bool.eq_false_iff.mp (isDigit_of_endsToken apart))
  | cons first rest inductionHypothesis =>
    rw [List.cons_append, List.takeWhile_cons, List.takeWhile_cons, inductionHypothesis]

theorem dropWhile_isDigit_followed (apart : StandsApart tail) (characters : List Char) :
    (characters ++ tail).dropWhile Char.isDigit = characters.dropWhile Char.isDigit ++ tail := by
  induction characters with
  | nil =>
    cases tail with
    | nil => rfl
    | cons first tail =>
      exact List.dropWhile_cons_of_neg (Bool.eq_false_iff.mp (isDigit_of_endsToken apart))
  | cons first rest inductionHypothesis =>
    rw [List.cons_append, List.dropWhile_cons, List.dropWhile_cons, inductionHypothesis]
    split <;> rfl

/-- A number does not go on with what stands apart from it. -/
theorem numberDigits_followed (apart : StandsApart tail) (characters : List Char) :
    numberDigits (characters ++ tail) = numberDigits characters := by
  unfold numberDigits
  dsimp only
  rw [takeWhile_isDigit_followed apart, dropWhile_isDigit_followed apart]
  cases dropped : characters.dropWhile Char.isDigit with
  | nil =>
    cases tail with
    | nil => rfl
    | cons first tail =>
      rw [List.nil_append]
      split
      next same =>
        exact absurd (List.cons.inj same).1 (ne_of_endsToken apart (by decide))
      next => rfl
  | cons next after =>
    rw [List.cons_append]
    split
    next same =>
      obtain ⟨rfl, rfl⟩ := List.cons.inj same
      rw [takeWhile_isDigit_followed apart]
      rfl
    next noPoint =>
      split
      next same => exact absurd (congrArg (· ++ tail) same) (noPoint _)
      next => rfl

/-- Digits with nothing after them that belongs to a number have no fraction. -/
theorem numberDigits_whole {digits : List Char}
    (all : ∀ character ∈ digits, character.isDigit = true) (ends : Ends tail) :
    numberDigits (digits ++ tail) = (digits, []) := by
  rw [numberDigits_followed ends.standsApart]
  unfold numberDigits
  dsimp only
  rw [List.takeWhile_eq_self_iff.mpr all, List.dropWhile_eq_nil_iff.mpr all]

theorem numberDigits_fraction {characters whole fraction : List Char}
    (text : IsDecimalText characters whole fraction) (ends : Ends tail) :
    numberDigits (characters ++ tail) = (whole, fraction) := by
  have point : ('.' :: fraction).takeWhile Char.isDigit = [] :=
    List.takeWhile_cons_of_neg (by decide)
  have point' : ('.' :: fraction).dropWhile Char.isDigit = '.' :: fraction :=
    List.dropWhile_cons_of_neg (by decide)
  rw [numberDigits_followed ends.standsApart]
  unfold numberDigits
  dsimp only
  rw [text.parts, List.takeWhile_append_of_pos text.whole_digits, point, List.append_nil,
    List.dropWhile_append_of_pos text.whole_digits, point']
  show (whole, fraction.takeWhile Char.isDigit) = _
  rw [List.takeWhile_eq_self_iff.mpr text.fraction_digits]

/-- Characters that begin with a digit are read as a number. -/
theorem Scans.number {characters whole fraction : List Char} (scans : Scans tail kinds)
    (begins : ∃ first rest, characters = first :: rest ∧ first.isDigit = true)
    (parts : numberDigits (characters ++ tail) = (whole, fraction))
    (lexeme : numberLexeme whole fraction = characters)
    (value : numberKind? whole fraction = some kind) :
    Scans (characters ++ tail) (kind :: kinds) := by
  obtain ⟨first, rest, rfl, digit⟩ := begins
  refine scans.token (isBlank_of_isDigit digit) fun position => ?_
  unfold recognise
  rw [if_neg (not_quote_of_isDigit digit), if_pos digit]
  rw [List.cons_append] at parts
  rw [parts]
  dsimp only
  rw [value, lexeme]
  rfl

theorem Scans.integer {number : Nat} (scans : Scans tail kinds) (ends : Ends tail)
    (fits : fitsInt64 number = true) :
    Scans (digitsOf number ++ tail) (.integer (Int64.ofInt number) :: kinds) := by
  have digits : ∀ character ∈ digitsOf number, character.isDigit = true :=
    fun _ => isDigit_of_mem_digitsOf
  refine scans.number ?_ (numberDigits_whole digits ends) rfl ?_
  · obtain ⟨first, rest, same⟩ := List.exists_cons_of_ne_nil (digitsOf_ne_nil number)
    exact ⟨first, rest, same, digits first (same ▸ List.mem_cons_self)⟩
  · unfold numberKind?
    dsimp only
    rw [digitsValue_digitsOf, if_pos fits]
    rfl

theorem Scans.float {characters whole fraction : List Char} (scans : Scans tail kinds)
    (ends : Ends tail) (text : IsDecimalText characters whole fraction) :
    Scans (characters ++ tail)
      (.float (.ofDecimalText false ⟨whole, fraction, 0⟩) :: kinds) := by
  refine scans.number ?_ (numberDigits_fraction text ends) ?_ ?_
  · obtain ⟨first, rest, same⟩ := List.exists_cons_of_ne_nil text.whole_ne_nil
    exact ⟨first, rest ++ '.' :: fraction, by rw [text.parts, same]; rfl,
      text.whole_digits first (same ▸ List.mem_cons_self)⟩
  · unfold numberLexeme
    rw [if_pos text.fraction_ne_nil, text.parts]
  · unfold numberKind?
    rw [if_pos text.fraction_ne_nil]

/-! ### Quoted texts -/

theorem quotedContent?_escaped (quote character : Char) (rest : List Char) :
    quotedContent? quote ('\\' :: character :: rest) =
      (quotedContent? quote rest).map fun (content, length) =>
        (unescape character :: content, length + 2) := by
  rw [quotedContent?]

theorem quotedContent?_plain {quote character : Char} (other : character ≠ quote)
    (noEscape : character ≠ '\\') (rest : List Char) :
    quotedContent? quote (character :: rest) =
      (quotedContent? quote rest).map fun (content, length) =>
        (character :: content, length + 1) := by
  rw [quotedContent?.eq_def]
  split
  next same => cases same
  next same => exact absurd (List.cons.inj same).1 noEscape
  next same =>
    obtain ⟨rfl, rfl⟩ := List.cons.inj same
    rw [if_neg other, if_neg noEscape]

/-- The content of a quoted text is read up to the closing quote, whatever follows. -/
theorem quotedContent?_append (content tail : List Char) :
    quotedContent? '"' (content.flatMap escaped ++ '"' :: tail) =
      some (content, (content.flatMap escaped).length + 1) := by
  induction content with
  | nil => rfl
  | cons first content inductionHypothesis =>
    rw [List.flatMap_cons, List.append_assoc]
    unfold escaped
    split
    case _ | _ | _ | _ | _ =>
      show quotedContent? '"' ('\\' :: _ :: (content.flatMap escaped ++ '"' :: tail)) = _
      rw [quotedContent?_escaped, inductionHypothesis]
      rfl
    case _ noQuote noEscape _ _ _ =>
      show quotedContent? '"' (first :: (content.flatMap escaped ++ '"' :: tail)) = _
      rw [quotedContent?_plain noQuote noEscape, inductionHypothesis]
      rfl

/-- A quoted text is recognised whatever follows. -/
theorem recognise_quoted (place : Nat) (content : String) (tail : List Char) :
    recognise place '"' (content.toList.flatMap escaped ++ ['"'] ++ tail) =
      .ok (.text content, (content.toList.flatMap escaped ++ ['"']).length) := by
  unfold recognise
  rw [if_pos (.inl rfl), List.append_assoc, List.singleton_append, quotedContent?_append]
  dsimp only
  rw [String.ofList_toList, List.length_append]
  rfl

theorem Scans.quoted {content : String} (scans : Scans tail kinds) :
    Scans ((Reckon.quoted content).toList ++ tail) (.text content :: kinds) := by
  unfold Reckon.quoted
  rw [String.toList_ofList]
  exact scans.token (by decide) fun position => recognise_quoted position content tail

/-! ### What tokens hold -/

/-- A name as the tokens of a text have it: it is one word and not a reserved one. -/
def IsName (name : String) : Prop :=
  ∃ first rest, name = String.ofList (first :: rest) ∧ IsWord first rest ∧
    TokenKind.ofWord name = .name name

/-- What can be said of the content of a token of a text: numbers have no sign, and names are
names. -/
def Readable : TokenKind → Prop
  | .integer number => 0 ≤ number.toInt
  | .float number => number.isNegative = false
  | .name name => IsName name
  | _ => True

theorem ofWord_eq_name {word name : String} (same : TokenKind.ofWord word = .name name) :
    word = name := by
  unfold TokenKind.ofWord at same
  split at same <;> cases same
  rfl

theorem readable_ofWord (word : IsWord first rest) :
    Readable (.ofWord (String.ofList (first :: rest))) := by
  cases kind : TokenKind.ofWord (String.ofList (first :: rest)) with
  | name name =>
    obtain rfl := ofWord_eq_name kind
    exact ⟨first, rest, rfl, word, kind⟩
  | integer | float =>
    unfold TokenKind.ofWord at kind
    split at kind <;> cases kind
  | _ => trivial

theorem isNegative_ofRank (rank : Nat) : (Binary64.ofRank false rank).isNegative = false := by
  unfold Binary64.ofRank
  split <;> rfl

theorem isNegative_ofDecimal (significand : Nat) (exponent : Int) :
    (Binary64.ofDecimal false significand exponent).isNegative = false := by
  unfold Binary64.ofDecimal
  split
  · exact isNegative_ofRank 0
  · split
    · rfl
    · split
      · exact isNegative_ofRank 0
      · split <;> exact isNegative_ofRank _

theorem readable_numberKind {whole fraction : List Char}
    (read : numberKind? whole fraction = some kind) : Readable kind := by
  unfold numberKind? at read
  by_cases point : fraction ≠ []
  · rw [if_pos point] at read
    cases read
    exact isNegative_ofDecimal _ _
  · rw [if_neg point] at read
    dsimp only at read
    by_cases fits : fitsInt64 (digitsValue whole : Int) = true
    · rw [if_pos fits] at read
      cases read
      show 0 ≤ (Int64.ofInt (digitsValue whole)).toInt
      rw [toInt_ofInt_of_fits fits]
      exact Int.natCast_nonneg _
    · rw [if_neg fits] at read
      cases read

theorem readable_recognise {position length : Nat} (notBlank : isBlank first = false)
    (read : recognise position first rest = .ok (kind, length)) : Readable kind := by
  unfold recognise at read
  split at read
  · split at read <;> cases read
    trivial
  next notQuote =>
    split at read
    · dsimp only at read
      split at read <;> cases read
      next digits => exact readable_numberKind digits
    next notDigit =>
      split at read
      next start =>
        cases read
        obtain ⟨same, within⟩ := nameLength_take rest
        have whole : nameLength (rest.take (nameLength rest)) =
            (rest.take (nameLength rest)).length := by
          rw [same, List.length_take, Nat.min_eq_left within]
        exact readable_ofWord ⟨notBlank, notQuote, notDigit, start, whole⟩
      · split at read <;> cases read
        next symbol =>
          unfold symbol? at symbol
          split at symbol <;> cases symbol <;> trivial

end Reckon
