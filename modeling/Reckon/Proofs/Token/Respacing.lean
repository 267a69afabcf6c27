/-
This file shows that the blanks between tokens mean nothing. A token is read
from its lexeme alone, and so it is wherever the lexeme stands, as long as what
follows ends every token; a blank does, and so does the end of a text. So the
lexemes of a text may be set apart by other blanks, and the new text is read as
the same tokens.
-/

import Reckon.Proofs.Token.Followed

namespace Reckon

namespace Token

/-- A token apart from its place: what it is, and the characters it was read from. -/
def unplaced (token : Token) : TokenKind × String :=
  (token.kind, token.lexeme)

/-- A token is read from its lexeme at every place, whatever follows that ends it. -/
def IsSelfContained (token : Token) : Prop :=
  ∃ first rest, token.lexeme = String.ofList (first :: rest) ∧ isBlank first = false ∧
    ∀ place tail, StandsApart tail →
      recognise place first (rest ++ tail) = .ok (token.kind, rest.length)

end Token

variable {first quote : Char} {rest tail characters : List Char} {kind : TokenKind} {length : Nat}

/-! ### Tokens from their lexemes -/

theorem quotedContent?_take (notEscape : quote ≠ '\\') {content : List Char}
    (read : quotedContent? quote characters = some (content, length)) :
    quotedContent? quote (characters.take length) = some (content, length) := by
  fun_induction quotedContent? quote characters generalizing content length with
  | case1 => cases read
  | case2 escaped rest inductionHypothesis =>
    obtain ⟨⟨content, length⟩, within, same⟩ := Option.map_eq_some_iff.mp read
    cases same
    rw [List.take_succ_cons, List.take_succ_cons, quotedContent?_escaped,
      inductionHypothesis within]
    rfl
  | case3 rest notEscaped =>
    cases read
    exact quotedContent?_close notEscape []
  | case4 rest notQuote notEscaped => cases read
  | case5 character rest notEscaped notQuote notBackslash inductionHypothesis =>
    obtain ⟨⟨content, length⟩, within, same⟩ := Option.map_eq_some_iff.mp read
    cases same
    rw [List.take_succ_cons, quotedContent?_plain notQuote notBackslash,
      inductionHypothesis within]
    rfl

/-- A number has digits only before and after its point. -/
theorem isDigit_numberDigits (characters : List Char) :
    (∀ character ∈ (numberDigits characters).1, character.isDigit = true) ∧
      ∀ character ∈ (numberDigits characters).2, character.isDigit = true := by
  have taken : ∀ characters : List Char, ∀ character ∈ characters.takeWhile Char.isDigit,
      character.isDigit = true := fun _ => List.all_eq_true.mp List.all_takeWhile
  unfold numberDigits
  dsimp only
  split
  next after dropped => exact ⟨taken _, taken after⟩
  next => exact ⟨taken _, fun _ member => absurd member List.not_mem_nil⟩

/-- A number is read again from the characters of its literal. -/
theorem numberDigits_numberLexeme {whole fraction : List Char} (nonempty : whole ≠ [])
    (wholeDigits : ∀ character ∈ whole, character.isDigit = true)
    (fractionDigits : ∀ character ∈ fraction, character.isDigit = true) :
    numberDigits (numberLexeme whole fraction) = (whole, fraction) := by
  rw [← List.append_nil (numberLexeme whole fraction)]
  unfold numberLexeme
  by_cases point : fraction ≠ []
  · rw [if_pos point]
    exact numberDigits_fraction ⟨rfl, nonempty, point, wholeDigits, fractionDigits⟩ trivial
  · rw [if_neg point, not_ne_iff.mp point]
    exact numberDigits_whole wholeDigits trivial

/-- The digits of a number are read again from as many characters as its literal has. -/
theorem numberDigits_take (digit : first.isDigit = true) :
    numberDigits (first :: rest.take ((numberLexeme (numberDigits (first :: rest)).1
      (numberDigits (first :: rest)).2).length - 1)) = numberDigits (first :: rest) := by
  have nonempty : (numberDigits (first :: rest)).1 ≠ [] := by
    have whole : (numberDigits (first :: rest)).1 = (first :: rest).takeWhile Char.isDigit := by
      unfold numberDigits
      dsimp only
      split <;> rfl
    rw [whole, List.takeWhile_cons_of_pos digit]
    exact List.cons_ne_nil _ _
  obtain ⟨wholeDigits, fractionDigits⟩ := isDigit_numberDigits (first :: rest)
  have same := numberDigits_numberLexeme nonempty wholeDigits fractionDigits
  have begins := List.prefix_iff_eq_take.mp (numberLexeme_begins (first :: rest))
  have filled : numberLexeme (numberDigits (first :: rest)).1 (numberDigits (first :: rest)).2 ≠
      [] := by
    unfold numberLexeme
    split
    · exact List.append_ne_nil_of_left_ne_nil nonempty _
    · exact nonempty
  generalize numberLexeme (numberDigits (first :: rest)).1 (numberDigits (first :: rest)).2 =
    lexeme at same begins filled
  obtain ⟨front, others, rfl⟩ := List.exists_cons_of_ne_nil filled
  rw [List.length_cons, List.take_succ_cons] at begins
  rw [List.length_cons, Nat.add_sub_cancel, ← begins]
  exact same

theorem symbol?_take (read : symbol? first rest = some (kind, length)) :
    symbol? first (rest.take length) = some (kind, length) := by
  unfold symbol? at read
  split at read <;> cases read <;> rfl

/-- A token that is recognised is recognised from its lexeme. -/
theorem recognise_take {position : Nat} (read : recognise position first rest = .ok (kind, length)) :
    recognise position first (rest.take length) = .ok (kind, length) := by
  unfold recognise at read ⊢
  by_cases isQuote : first = '"' ∨ first = '\''
  · rw [if_pos isQuote] at read ⊢
    have notEscape : first ≠ '\\' := by
      rcases isQuote with rfl | rfl <;> decide
    cases quoted : quotedContent? first rest with
    | none =>
      rw [quoted] at read
      cases read
    | some content =>
      rw [quoted] at read
      cases read
      rw [quotedContent?_take notEscape quoted]
  · rw [if_neg isQuote] at read ⊢
    by_cases digit : first.isDigit = true
    · rw [if_pos digit] at read ⊢
      dsimp only at read ⊢
      cases value : numberKind? (numberDigits (first :: rest)).1 (numberDigits (first :: rest)).2
        with
      | none =>
        rw [value] at read
        cases read
      | some number =>
        rw [value] at read
        cases read
        rw [numberDigits_take digit, value]
    · rw [if_neg digit] at read ⊢
      by_cases start : isNameStart first = true
      · rw [if_pos start] at read ⊢
        cases read
        dsimp only
        rw [(nameLength_take rest).1, List.take_take, Nat.min_self]
      · rw [if_neg start] at read ⊢
        cases symbol : symbol? first rest with
        | none =>
          rw [symbol] at read
          cases read
        | some token =>
          rw [symbol] at read
          cases read
          rw [symbol?_take symbol]

/-- Every token of a text but the end is read from its lexeme alone. -/
theorem isSelfContained_of_tokenize {source : String} {tokens : List Token}
    (read : tokenize source = .ok tokens) :
    ∃ body stop, tokens = body ++ [.endAt stop] ∧ ∀ token ∈ body, token.IsSelfContained := by
  unfold tokenize at read
  dsimp only at read
  split at read
  · cases read
  next none =>
    cases read
    refine scanFrom_recognised (fun {position length first rest kind} notBlank recognised => ?_) none
    have taken : (rest.take length).length = length := by
      rw [List.length_take, Nat.min_eq_left (length_recognise recognised)]
    refine ⟨first, rest.take length, rfl, notBlank, fun place tail apart => ?_⟩
    rw [taken]
    exact recognise_followed apart (recognise_take recognised) place

/-! ### Lexemes between blanks -/

variable {words : List (TokenKind × String)}

/-- Characters are read, wherever they stand, as these tokens and the end. -/
def ScansAs (characters : List Char) (words : List (TokenKind × String)) : Prop :=
  ∀ place, (scanFrom place 0 characters).failure = none ∧
    (scanFrom place 0 characters).tokens.map Token.unplaced = words ++ [(.endOfInput, "")]

theorem scansAs_nil : ScansAs [] [] :=
  fun _ => ⟨rfl, rfl⟩

theorem ScansAs.afterBlanks {blanks : List Char} (scans : ScansAs tail words)
    (all : ∀ character ∈ blanks, isBlank character = true) : ScansAs (blanks ++ tail) words := by
  induction blanks with
  | nil => exact scans
  | cons first rest inductionHypothesis =>
    obtain ⟨blank, blanks⟩ := List.forall_mem_cons.mp all
    intro place
    rw [List.cons_append, scanFrom_blank place blank]
    exact inductionHypothesis blanks (place + 1)

theorem ScansAs.afterToken {token : Token} (scans : ScansAs tail words)
    (selfContained : token.IsSelfContained) (apart : StandsApart tail) :
    ScansAs (token.lexeme.toList ++ tail) (token.unplaced :: words) := by
  obtain ⟨first, rest, lexeme, notBlank, recognised⟩ := selfContained
  intro place
  obtain ⟨read, same⟩ := scans (place + 1 + rest.length)
  rw [lexeme, String.toList_ofList, scanFrom_token notBlank (recognised place tail apart)]
  refine ⟨read, ?_⟩
  rw [List.map_cons, same]
  exact congrArg (fun lexeme => (token.kind, lexeme) :: (words ++ [(.endOfInput, "")])) lexeme.symm

theorem ScansAs.tokenize (scans : ScansAs characters words) :
    ∃ tokens, tokenize (String.ofList characters) = .ok tokens ∧
      tokens.map Token.unplaced = words ++ [(.endOfInput, "")] := by
  obtain ⟨read, same⟩ := scans 0
  refine ⟨(scanFrom 0 0 characters).tokens, ?_, same⟩
  unfold Reckon.tokenize scan
  dsimp only
  rw [String.toList_ofList, read]

/-- Lexemes are read as their tokens between any blanks that keep them apart. -/
theorem scansAs_weave {body : List Token}
    (selfContained : ∀ token ∈ body, token.IsSelfContained) (stop : Nat) {spaces : List (List Char)}
    (enough : spaces.length = body.length + 1)
    (blank : ∀ space ∈ spaces, ∀ character ∈ space, isBlank character = true)
    (apart : ∀ space ∈ spaces.tail.dropLast, space ≠ []) :
    ScansAs (weave spaces (body ++ [.endAt stop])) (body.map Token.unplaced) := by
  induction body generalizing spaces with
  | nil =>
    obtain ⟨last, rfl⟩ := List.length_eq_one_iff.mp enough
    exact scansAs_nil.afterBlanks (blank last List.mem_cons_self)
  | cons token rest inductionHypothesis =>
    obtain ⟨space, later, rfl⟩ := List.exists_cons_of_length_eq_add_one enough
    obtain ⟨first, others⟩ := List.forall_mem_cons.mp selfContained
    obtain ⟨spaceBlank, laterBlank⟩ := List.forall_mem_cons.mp blank
    have fewer : later.length = rest.length + 1 := Nat.succ.inj enough
    have scans := inductionHypothesis others fewer laterBlank fun space member => by
      rw [← List.tail_dropLast] at member
      exact apart space (List.mem_of_mem_tail member)
    refine (scans.afterToken first ?_).afterBlanks spaceBlank
    obtain ⟨next, more, rfl⟩ := List.exists_cons_of_length_eq_add_one fewer
    cases next with
    | cons character next =>
      have ends := laterBlank _ List.mem_cons_self character List.mem_cons_self
      cases rest <;> exact endsToken_of_isBlank ends
    | nil =>
      -- Only the last gap may be empty, and then nothing but the end follows.
      cases more with
      | cons other more => exact absurd rfl (apart [] List.mem_cons_self)
      | nil =>
        obtain rfl := List.length_eq_zero_iff.mp (Nat.succ.inj fewer).symm
        trivial

/-- The blanks between the tokens of a text mean nothing. Its lexemes with any blanks between them,
at least one in each place, and any before the first and after the last are read as tokens of the
same kinds and lexemes. Each lexeme alone is read as its one token and the end. -/
theorem tokenize_weave {source : String} {tokens : List Token}
    (read : tokenize source = .ok tokens) :
    (∀ spaces : List (List Char), spaces.length = tokens.length →
      (∀ space ∈ spaces, ∀ character ∈ space, isBlank character = true) →
      (∀ space ∈ spaces.tail.dropLast, space ≠ []) →
        ∃ others, tokenize (String.ofList (weave spaces tokens)) = .ok others ∧
          others.map Token.unplaced = tokens.map Token.unplaced) ∧
      ∀ token ∈ tokens, token.isEnd = false →
        tokenize token.lexeme =
          .ok [⟨token.kind, token.lexeme, 0⟩, .endAt token.lexeme.length] := by
  obtain ⟨body, stop, rfl, selfContained⟩ := isSelfContained_of_tokenize read
  constructor
  · intro spaces enough blank apart
    rw [List.length_append] at enough
    obtain ⟨others, tokenized, same⟩ :=
      (scansAs_weave selfContained stop enough blank apart).tokenize
    refine ⟨others, tokenized, ?_⟩
    rw [same, List.map_append]
    rfl
  · intro token member notEnd
    rcases List.mem_append.mp member with inBody | isEnd
    · obtain ⟨first, rest, lexeme, notBlank, recognised⟩ := selfContained token inBody
      have alone := scanFrom_token notBlank (recognised 0 [] trivial)
      rw [List.append_nil] at alone
      have scanned : scan token.lexeme =
          ⟨[⟨token.kind, token.lexeme, 0⟩, .endAt token.lexeme.length], none⟩ := by
        unfold scan
        rw [lexeme, String.toList_ofList, alone, String.length_ofList, List.length_cons,
          Nat.zero_add, Nat.add_comm 1]
        rfl
      unfold tokenize
      rw [scanned]
    · rw [List.mem_singleton.mp isEnd] at notEnd
      cases notEnd

/-- The lexemes of `a<=b.c'x y'1` are set apart by blanks, one of them a line break. -/
theorem tokenize_weave_comparedPath :
    ∃ tokens, tokenize "a<=b.c'x y'1" = .ok tokens ∧
      (tokens.map Token.lexeme = ["a", "<=", "b.c", "'x y'", "1", ""]) ∧
      (∃ others, tokenize "a <= b.c\n'x y' 1" = .ok others ∧
        others.map Token.unplaced = tokens.map Token.unplaced) ∧
      tokenize "'x y'" = .ok [⟨.text "x y", "'x y'", 0⟩, .endAt 5] := by
  have read : tokenize "a<=b.c'x y'1" = .ok [⟨.name "a", "a", 0⟩, ⟨.lessEqual, "<=", 1⟩,
      ⟨.name "b.c", "b.c", 3⟩, ⟨.text "x y", "'x y'", 6⟩, ⟨.integer 1, "1", 11⟩, .endAt 12] := by
    decide +kernel
  have blank : [[], [' '], [' '], ['\n'], [' '], []].all (fun space => space.all isBlank) = true := by
    decide
  obtain ⟨respaced, alone⟩ := tokenize_weave read
  exact ⟨_, read, rfl, respaced [[], [' '], [' '], ['\n'], [' '], []] rfl
    (fun space member => List.all_eq_true.mp (List.all_eq_true.mp blank space member)) (by decide),
    alone _ (.tail _ (.tail _ (.tail _ List.mem_cons_self))) rfl⟩

end Reckon
