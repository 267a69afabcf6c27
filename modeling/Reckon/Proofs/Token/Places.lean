/-
This file shows where the tokens of a text stand when there are blanks before
and after it. The tokens are the same, and so is the fault if there is one; a
quote that is never closed stays open, since no blank closes it. Each token is
moved on by the blanks before the text, and the end of the input by those after
it too.
-/

import Reckon.Proofs.Token.Gaps

namespace Reckon

/-! ### Other places -/

/-- A token moved to another place. -/
def Token.placed (places : Nat → Nat) (token : Token) : Token :=
  { token with position := places token.position }

/-- A fault in the characters of a text moved to another place. -/
def LexicalError.placed (places : Nat → Nat) : LexicalError → LexicalError
  | .unterminatedText position => .unterminatedText (places position)
  | .unexpectedCharacter character position => .unexpectedCharacter character (places position)
  | .invalidNumber literal position => .invalidNumber literal (places position)

/-- What the reading of a text gives, moved to other places. -/
def Scan.placed (places : Nat → Nat) (scan : Scan) : Scan :=
  ⟨scan.tokens.map (Token.placed places), scan.failure.map (LexicalError.placed places)⟩

@[simp]
theorem LexicalError.position_placed (places : Nat → Nat) (failure : LexicalError) :
    (failure.placed places).position = places failure.position := by
  cases failure <;> rfl

/-- Only the place of a fault matters to where it is moved. -/
theorem LexicalError.placed_position (places : Nat → Nat) (failure : LexicalError) :
    failure.placed (fun _ => places failure.position) = failure.placed places := by
  cases failure <;> rfl

variable {blanks rest characters : List Char} {first : Char}

/-! ### Tokens before blanks -/

theorem not_isBlank_of_isQuote {quote : Char} (isQuote : IsQuote quote) :
    isBlank quote = false := by
  rcases isQuote with rfl | rfl <;> decide

/-- A quoted text is never closed where its quote does not stand. -/
theorem quotedContent?_eq_none {quote : Char} (absent : quote ∉ characters) :
    quotedContent? quote characters = none := by
  fun_induction quotedContent? quote characters with
  | case1 => rfl
  | case2 escaped rest inductionHypothesis =>
    rw [inductionHypothesis fun member =>
      absent (List.mem_cons_of_mem _ (List.mem_cons_of_mem _ member))]
    rfl
  | case3 rest notEscaped => exact absurd List.mem_cons_self absent
  | case4 rest notQuote notEscaped => rfl
  | case5 character rest notEscaped notQuote notBackslash inductionHypothesis =>
    rw [inductionHypothesis fun member => absent (List.mem_cons_of_mem _ member)]
    rfl

/-- Blanks after a text close no quote, and are no part of what is quoted. -/
theorem quotedContent?_beforeBlanks {quote : Char} (isQuote : IsQuote quote)
    (all : ∀ character ∈ blanks, isBlank character = true) :
    quotedContent? quote (characters ++ blanks) = quotedContent? quote characters := by
  have notEscape : quote ≠ '\\' := by
    rcases isQuote with rfl | rfl <;> decide
  have absent : quote ∉ blanks := fun member => by
    have blank := all quote member
    rw [not_isBlank_of_isQuote isQuote] at blank
    cases blank
  cases read : quotedContent? quote characters with
  | some quoted => exact quotedContent?_followed notEscape read blanks
  | none =>
    fun_induction quotedContent? quote characters with
    | case1 => exact quotedContent?_eq_none absent
    | case2 escaped rest inductionHypothesis =>
      rw [List.cons_append, List.cons_append, quotedContent?_escaped,
        inductionHypothesis (Option.map_eq_none_iff.mp read)]
      rfl
    | case3 rest notEscaped => cases read
    | case4 rest notEscaped notQuote =>
      -- The text ends with a backslash, which then stands before a blank.
      obtain rfl : rest = [] := by
        cases rest with
        | nil => rfl
        | cons escaped rest => exact absurd rfl (notEscaped escaped rest rfl)
      cases blanks with
      | nil => exact quotedContent?_eq_none fun member =>
          notEscape (List.mem_singleton.mp member)
      | cons blank blanks =>
        rw [List.singleton_append, quotedContent?_escaped,
          quotedContent?_eq_none fun member => absent (List.mem_cons_of_mem _ member)]
        rfl
    | case5 character rest notEscaped notQuote notBackslash inductionHypothesis =>
      rw [List.cons_append, quotedContent?_plain notQuote notBackslash,
        inductionHypothesis (Option.map_eq_none_iff.mp read)]
      rfl

theorem symbol?_beforeBlanks (all : ∀ character ∈ blanks, isBlank character = true) :
    symbol? first (rest ++ blanks) = symbol? first rest :=
  Option.ext fun _ =>
    ⟨symbol?_of_followed (standsApart_blanks all), symbol?_followed (standsApart_blanks all)⟩

/-- What is recognised at a character, be it a token or a fault, is the same at any place and with
blanks after the text. -/
theorem recognise_beforeBlanks (all : ∀ character ∈ blanks, isBlank character = true)
    (position place : Nat) :
    recognise place first (rest ++ blanks) =
      (recognise position first rest).mapError (LexicalError.placed fun _ => place) := by
  have apart := standsApart_blanks all
  unfold recognise
  by_cases quote : first = '"' ∨ first = '\''
  · rw [if_pos quote, if_pos quote, quotedContent?_beforeBlanks quote all]
    cases quotedContent? first rest <;> rfl
  · rw [if_neg quote, if_neg quote]
    by_cases digit : first.isDigit = true
    · rw [if_pos digit, if_pos digit, ← List.cons_append, numberDigits_followed apart]
      dsimp only
      cases numberKind? (numberDigits (first :: rest)).1 (numberDigits (first :: rest)).2 <;> rfl
    · rw [if_neg digit, if_neg digit]
      by_cases start : isNameStart first = true
      · rw [if_pos start, if_pos start, nameLength_followed apart]
        dsimp only
        rw [List.take_append_of_le_length (nameLength_take rest).2]
        rfl
      · rw [if_neg start, if_neg start, symbol?_beforeBlanks all]
        cases symbol? first rest <;> rfl

/-! ### Texts before blanks -/

/-- With blanks after them, characters are read as before. The places of the characters may be
any, as long as they follow one another and the end comes after the blanks. -/
theorem scanFrom_beforeBlanks (all : ∀ character ∈ blanks, isBlank character = true)
    {places : Nat → Nat} {position place covered : Nat} (enough : covered ≤ characters.length)
    (inside : ∀ step < characters.length, places (position + step) = place + step)
    (stops : places (position + characters.length) =
      place + characters.length + blanks.length) :
    scanFrom place covered (characters ++ blanks) =
      (scanFrom position covered characters).placed places := by
  induction characters generalizing position place covered with
  | nil =>
    obtain rfl : covered = 0 := Nat.le_zero.mp enough
    rw [List.nil_append, ← List.append_nil blanks, scanFrom_blanks place all]
    show (⟨[.endAt (place + blanks.length)], none⟩ : Scan) = ⟨[.endAt (places position)], none⟩
    rw [show places position = _ from stops]
    rfl
  | cons first rest inductionHypothesis =>
    have here : places position = place := inside 0 (Nat.zero_lt_succ _)
    have later : ∀ {covered}, covered ≤ rest.length →
        scanFrom (place + 1) covered (rest ++ blanks) =
          (scanFrom (position + 1) covered rest).placed places := by
      intro covered enough
      refine inductionHypothesis enough (fun step less => ?_) ?_
      · rw [Nat.add_assoc, Nat.add_assoc, Nat.add_comm 1]
        exact inside (step + 1) (Nat.succ_lt_succ less)
      · rw [List.length_cons] at stops
        rw [Nat.add_assoc, Nat.add_comm 1, stops, Nat.add_assoc place 1, Nat.add_comm 1]
    rw [List.cons_append]
    unfold scanFrom
    cases covered with
    | succ covered => exact later (Nat.le_of_succ_le_succ enough)
    | zero =>
      dsimp only
      by_cases blank : isBlank first = true
      · rw [if_pos blank, if_pos blank]
        exact later (Nat.zero_le _)
      · rw [if_neg blank, if_neg blank, recognise_beforeBlanks all position place]
        cases recognised : recognise position first rest with
        | error failure =>
          have moved : failure.placed (fun _ => place) = failure.placed places := by
            rw [← here, ← position_recognise recognised, LexicalError.placed_position]
          simp only [Except.mapError, moved, Scan.placed, List.map_nil, Option.map_some]
        | ok token =>
          obtain ⟨kind, length⟩ := token
          have within := length_recognise recognised
          simp only [Except.mapError, later within, List.take_append_of_le_length within,
            Scan.placed, List.map_cons, Token.placed, here]

/-! ### Blanks around a text -/

/-- How many blanks a text begins with. -/
def leadingBlanks (source : String) : Nat :=
  (source.toList.takeWhile isBlank).length

/-- The place in a text of a place in what is left of it without the blanks at its ends. The two
ends are places of each other. -/
def placeAround (source : String) (place : Nat) : Nat :=
  if place < (trimmed source).length then leadingBlanks source + place else source.length

theorem length_eq_leading_trimmed (source : String) :
    ∃ trailing, source.length = leadingBlanks source + (trimmed source).length + trailing := by
  obtain ⟨after, parts, -⟩ := toList_eq_leading_trimmed source
  refine ⟨after.length, ?_⟩
  have lengths := congrArg List.length parts
  rw [List.length_append, List.length_append, String.length_toList, String.length_toList,
    ← Nat.add_assoc] at lengths
  exact lengths

/-- A text is read as what is left of it without the blanks at its ends, with everything at its
place in the whole. -/
theorem scan_eq_placed (source : String) :
    scan source = (scan (trimmed source)).placed (placeAround source) := by
  obtain ⟨after, parts, blanks⟩ := toList_eq_leading_trimmed source
  have lengths := congrArg List.length parts
  simp only [List.length_append, String.length_toList] at lengths
  have skipped : scan source = scanFrom (leadingBlanks source) 0
      ((trimmed source).toList ++ after) := by
    show scanFrom 0 0 source.toList = _
    rw [parts, scanFrom_blanks 0 isBlank_of_mem_takeWhile, Nat.zero_add]
    rfl
  rw [skipped]
  refine scanFrom_beforeBlanks blanks (Nat.zero_le _) (fun step less => ?_) ?_
  · rw [String.length_toList] at less
    rw [Nat.zero_add]
    exact if_pos less
  · rw [Nat.zero_add, String.length_toList]
    refine (if_neg (Nat.lt_irrefl _)).trans (lengths.trans ?_)
    exact (Nat.add_assoc _ _ _).symm

theorem tokenize_eq_placed (source : String) :
    tokenize source =
      ((tokenize (trimmed source)).mapError (LexicalError.placed (placeAround source))).map
        (List.map (Token.placed (placeAround source))) := by
  unfold tokenize
  rw [scan_eq_placed]
  dsimp only [Scan.placed]
  cases (scan (trimmed source)).failure <;> rfl

end Reckon
