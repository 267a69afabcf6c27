/-
This file shows what becomes of the tokens of a text when other characters
follow it. No token that is complete goes on with a blank or a parenthesis, for
example, so before such a character a text that can be read is read as the same
tokens, and the tokens of what follows come after them.

In particular it makes no difference whether a text is stripped of the blanks
at its two ends.
-/

import Reckon.Proofs.Token.Tiling

namespace Reckon

/-! ### Characters that end every token -/

/-- Blanks end every token. -/
theorem endsToken_of_isBlank {character : Char} (blank : isBlank character = true) :
    endsToken character = true := by
  have all : ∀ range ∈ blankPoints.ranges, ∀ point ∈ List.range' range.1 (range.2 + 1 - range.1),
      endsToken (Char.ofNat point) = true := by
    -- Range by range, since all of them at once take the kernel much room.
    iterate 10 refine List.forall_mem_cons.mpr ⟨by decide +kernel, ?_⟩
    exact List.forall_mem_nil _
  obtain ⟨range, member, low, high⟩ := CodePoints.has_iff.mp blank
  have ends := all range member character.toNat (List.mem_range'_1.mpr ⟨low, by omega⟩)
  rwa [Char.ofNat_toNat] at ends

theorem standsApart_blanks {blanks : List Char}
    (all : ∀ character ∈ blanks, isBlank character = true) : StandsApart blanks := by
  cases blanks with
  | nil => trivial
  | cons first rest => exact endsToken_of_isBlank (all first List.mem_cons_self)

variable {first : Char} {rest tail characters : List Char} {kind : TokenKind}
  {kinds later : List TokenKind}

/-! ### Tokens before such characters -/

theorem quotedContent?_close {quote : Char} (notEscape : quote ≠ '\\') (rest : List Char) :
    quotedContent? quote (quote :: rest) = some ([], 1) := by
  rw [quotedContent?.eq_def]
  split
  next same => cases same
  next same => exact absurd (List.cons.inj same).1 notEscape
  next same =>
    obtain ⟨rfl, rfl⟩ := List.cons.inj same
    exact if_pos rfl

/-- A quoted text ends with its closing quote, whatever follows. -/
theorem quotedContent?_followed {quote : Char} (notEscape : quote ≠ '\\') {content : List Char}
    {length : Nat} (read : quotedContent? quote characters = some (content, length))
    (tail : List Char) : quotedContent? quote (characters ++ tail) = some (content, length) := by
  fun_induction quotedContent? quote characters generalizing content length with
  | case1 => cases read
  | case2 escaped rest inductionHypothesis =>
    obtain ⟨⟨content, length⟩, within, same⟩ := Option.map_eq_some_iff.mp read
    rw [List.cons_append, List.cons_append, quotedContent?_escaped, inductionHypothesis within]
    exact congrArg some same
  | case3 rest notEscaped =>
    rw [← read]
    exact quotedContent?_close notEscape _
  | case4 rest notQuote notEscaped => cases read
  | case5 character rest notEscaped notQuote notBackslash inductionHypothesis =>
    obtain ⟨⟨content, length⟩, within, same⟩ := Option.map_eq_some_iff.mp read
    rw [List.cons_append, quotedContent?_plain notQuote notBackslash, inductionHypothesis within]
    exact congrArg some same

/-- What follows a text does not begin with the second character of a symbol. -/
theorem ne_cons_of_followed (apart : StandsApart tail) {mark : Char}
    (isMark : ['.', '=', '&', '|'].contains mark = true)
    (other : ∀ more, rest = mark :: more → False) (more : List Char) :
    rest ++ tail = mark :: more → False := by
  intro same
  cases rest with
  | nil =>
    rw [List.nil_append] at same
    rw [same] at apart
    exact ne_of_endsToken apart isMark rfl
  | cons second rest =>
    obtain ⟨rfl, -⟩ := List.cons.inj same
    exact other rest rfl

theorem symbol?_followed (apart : StandsApart tail) {token : TokenKind × Nat}
    (read : symbol? first rest = some token) : symbol? first (rest ++ tail) = some token := by
  unfold symbol? at read
  split at read <;> cases read
  -- A symbol of one character that another one would make a longer symbol.
  case h_14.refl other | h_16.refl other | h_18.refl other | h_20.refl other =>
    rw [symbol?]
    exact ne_cons_of_followed apart (by decide) other
  all_goals rfl

/-- A token that is recognised is recognised at any place before characters that end it. -/
theorem recognise_followed (apart : StandsApart tail) {position length : Nat}
    (read : recognise position first rest = .ok (kind, length)) (place : Nat) :
    recognise place first (rest ++ tail) = .ok (kind, length) := by
  unfold recognise at read ⊢
  by_cases quote : first = '"' ∨ first = '\''
  · rw [if_pos quote] at read ⊢
    have notEscape : first ≠ '\\' := by
      rcases quote with rfl | rfl <;> decide
    cases quoted : quotedContent? first rest with
    | none =>
      rw [quoted] at read
      cases read
    | some content =>
      rw [quoted] at read
      rw [quotedContent?_followed notEscape quoted]
      exact read
  · rw [if_neg quote] at read ⊢
    by_cases digit : first.isDigit = true
    · rw [if_pos digit] at read ⊢
      rw [← List.cons_append, numberDigits_followed apart]
      dsimp only at read ⊢
      cases number : numberKind? (numberDigits (first :: rest)).1 (numberDigits (first :: rest)).2
        with
      | none =>
        rw [number] at read
        cases read
      | some value =>
        rw [number] at read
        exact read
    · rw [if_neg digit] at read ⊢
      by_cases start : isNameStart first = true
      · rw [if_pos start] at read ⊢
        have within := (nameLength_take rest).2
        dsimp only at read ⊢
        rw [nameLength_followed apart, List.take_append_of_le_length within]
        exact read
      · rw [if_neg start] at read ⊢
        cases symbol : symbol? first rest with
        | none =>
          rw [symbol] at read
          cases read
        | some token =>
          rw [symbol] at read
          rw [symbol?_followed apart symbol]
          exact read

/-! ### Texts before such characters -/

/-- Characters that can be read from one place on are read as the same tokens from any other, and
the tokens of what follows come after them. -/
theorem scanFrom_followed (apart : StandsApart tail) (scans : Scans tail later)
    {position covered : Nat} (enough : covered ≤ characters.length)
    (read : (scanFrom position covered characters).failure = none) :
    ∃ body, (scanFrom position covered characters).tokens.map Token.kind =
        body ++ [.endOfInput] ∧
      ∀ place, (scanFrom place covered (characters ++ tail)).failure = none ∧
        (scanFrom place covered (characters ++ tail)).tokens.map Token.kind =
          body ++ later ++ [.endOfInput] := by
  induction characters generalizing position covered with
  | nil =>
    obtain rfl : covered = 0 := Nat.le_zero.mp enough
    exact ⟨[], rfl, scans⟩
  | cons first rest inductionHypothesis =>
    rw [List.cons_append]
    unfold scanFrom at read ⊢
    cases covered with
    | succ covered =>
      obtain ⟨body, same, follows⟩ := inductionHypothesis (Nat.le_of_succ_le_succ enough) read
      exact ⟨body, same, fun place => follows (place + 1)⟩
    | zero =>
      dsimp only at read ⊢
      by_cases blank : isBlank first = true
      · rw [if_pos blank] at read ⊢
        obtain ⟨body, same, follows⟩ := inductionHypothesis (Nat.zero_le _) read
        refine ⟨body, same, fun place => ?_⟩
        rw [if_pos blank]
        exact follows (place + 1)
      · rw [if_neg blank] at read ⊢
        cases recognised : recognise position first rest with
        | error failure =>
          rw [recognised] at read
          cases read
        | ok token =>
          obtain ⟨kind, length⟩ := token
          rw [recognised] at read
          obtain ⟨body, same, follows⟩ :=
            inductionHypothesis (length_recognise recognised) read
          refine ⟨kind :: body, congrArg (kind :: ·) same, fun place => ?_⟩
          rw [if_neg blank, recognise_followed apart recognised place]
          exact ⟨(follows (place + 1)).1, congrArg (kind :: ·) (follows (place + 1)).2⟩

/-- The tokens of a text come before those of what follows it, if that ends every token. -/
theorem Scans.append (scans : Scans characters kinds) (apart : StandsApart tail)
    (after : Scans tail later) : Scans (characters ++ tail) (kinds ++ later) := by
  obtain ⟨read, same⟩ := scans 0
  obtain ⟨body, same', follows⟩ := scanFrom_followed apart after (Nat.zero_le _) read
  obtain rfl : kinds = body := List.append_cancel_right (same.symm.trans same')
  exact follows

/-- A text that can be read has the same tokens at any place. -/
theorem scans_of_tokenize {source : String} {body : List Token} {stop : Nat}
    (read : tokenize source = .ok (body ++ [.endAt stop])) :
    Scans source.toList (body.map Token.kind) := by
  unfold tokenize at read
  dsimp only at read
  split at read
  · cases read
  next none =>
    have tokens : (scan source).tokens = body ++ [.endAt stop] := Except.ok.inj read
    obtain ⟨kinds, same, follows⟩ :=
      @scanFrom_followed [] source.toList [] trivial scans_nil 0 0 (Nat.zero_le _) none
    have kept : kinds = body.map Token.kind := by
      refine List.append_cancel_right (same.symm.trans ?_)
      rw [show (scanFrom 0 0 source.toList).tokens = _ from tokens, List.map_append]
      rfl
    rw [List.append_nil, List.append_nil, kept] at follows
    exact follows

/-! ### Blanks around a text -/

theorem Scans.afterBlanks {blanks : List Char} (scans : Scans tail kinds)
    (all : ∀ character ∈ blanks, isBlank character = true) : Scans (blanks ++ tail) kinds := by
  induction blanks with
  | nil => exact scans
  | cons first rest inductionHypothesis =>
    obtain ⟨blank, blanks⟩ := List.forall_mem_cons.mp all
    exact (inductionHypothesis blanks).blank blank

theorem isBlank_of_mem_takeWhile {characters : List Char} :
    ∀ character ∈ characters.takeWhile isBlank, isBlank character = true :=
  List.all_eq_true.mp List.all_takeWhile

/-- A text begins with blanks, then comes what is left of it without the blanks at its ends, and
then come blanks. -/
theorem toList_eq_leading_trimmed (source : String) :
    ∃ after, source.toList =
        source.toList.takeWhile isBlank ++ ((trimmed source).toList ++ after) ∧
      ∀ character ∈ after, isBlank character = true := by
  let begun := source.toList.dropWhile isBlank
  refine ⟨(begun.reverse.takeWhile isBlank).reverse, ?_, fun character member =>
    isBlank_of_mem_takeWhile character (List.mem_reverse.mp member)⟩
  have ended : begun.reverse.takeWhile isBlank ++ begun.reverse.dropWhile isBlank =
    begun.reverse := List.takeWhile_append_dropWhile
  unfold trimmed trimBlanks
  rw [String.toList_ofList, ← List.reverse_append, ended, List.reverse_reverse,
    List.takeWhile_append_dropWhile]

/-- A text is what is left of it without the blanks at its ends, with blanks on both sides. -/
theorem toList_eq_blanks_trimmed (source : String) :
    ∃ before after, source.toList = before ++ ((trimmed source).toList ++ after) ∧
      (∀ character ∈ before, isBlank character = true) ∧
      ∀ character ∈ after, isBlank character = true := by
  obtain ⟨after, parts, blanks⟩ := toList_eq_leading_trimmed source
  exact ⟨_, after, parts, isBlank_of_mem_takeWhile, blanks⟩

/-- The blanks at the ends of a text make no difference to its tokens. -/
theorem Scans.untrimmed {source : String} (scans : Scans (trimmed source).toList kinds) :
    Scans source.toList kinds := by
  obtain ⟨before, after, parts, blanksBefore, blanksAfter⟩ := toList_eq_blanks_trimmed source
  have nothing := scans_nil.afterBlanks blanksAfter
  rw [List.append_nil] at nothing
  have scanned := scans.append (standsApart_blanks blanksAfter) nothing
  rw [List.append_nil] at scanned
  rw [parts]
  exact scanned.afterBlanks blanksBefore

/-- A text with no blank at either end stays as it is. -/
theorem trimmed_eq_self {source : String} {first last : Char} {middle : List Char}
    (parts : source.toList = first :: (middle ++ [last])) (firstNotBlank : isBlank first = false)
    (lastNotBlank : isBlank last = false) : trimmed source = source := by
  unfold trimmed trimBlanks
  rw [parts, List.dropWhile_cons_of_neg (Bool.eq_false_iff.mp firstNotBlank), ← List.cons_append,
    List.reverse_append, List.reverse_singleton, List.singleton_append,
    List.dropWhile_cons_of_neg (Bool.eq_false_iff.mp lastNotBlank), List.reverse_cons,
    List.reverse_reverse, List.cons_append, ← parts, String.ofList_toList]

end Reckon
