/-
This file shows that the reading of a text loses nothing. The tokens that are
read, up to the end of the text or to the first place where none can be read,
stand one after the other, each with exactly the characters of its place, and
whatever stands between them is blank.

A token begins with the character at its place and takes no more of the
characters after it than there are, in each of its classes. So the reading of
the characters from a place on leaves a tiling of them, and the rest follows
from the tiling alone.
-/

import Reckon.Proofs.Token.Words

namespace Reckon

/-! ### How far a token reaches -/

theorem length_quotedContent? {quote : Char} {characters content : List Char} {length : Nat}
    (read : quotedContent? quote characters = some (content, length)) :
    length ≤ characters.length := by
  fun_induction quotedContent? quote characters generalizing content length with
  | case1 => cases read
  | case2 escaped rest inductionHypothesis =>
    obtain ⟨⟨content, length⟩, within, same⟩ := Option.map_eq_some_iff.mp read
    cases same
    exact Nat.add_le_add_right (inductionHypothesis within) 2
  | case3 rest notEscaped =>
    cases read
    exact Nat.le_add_left 1 rest.length
  | case4 rest notQuote notEscaped => cases read
  | case5 character rest notEscaped notQuote notBackslash inductionHypothesis =>
    obtain ⟨⟨content, length⟩, within, same⟩ := Option.map_eq_some_iff.mp read
    cases same
    exact Nat.add_le_add_right (inductionHypothesis within) 1

/-- The characters of a number literal stand at the front of the characters it is read from. -/
theorem numberLexeme_begins (characters : List Char) :
    numberLexeme (numberDigits characters).1 (numberDigits characters).2 <+: characters := by
  have parts := @List.takeWhile_append_dropWhile _ Char.isDigit characters
  unfold numberDigits
  dsimp only
  split
  next rest dropped =>
    unfold numberLexeme
    split
    · refine ⟨rest.dropWhile Char.isDigit, ?_⟩
      rw [List.append_assoc, List.cons_append, List.takeWhile_append_dropWhile, ← dropped, parts]
    · exact List.takeWhile_prefix _
  · exact List.takeWhile_prefix _

theorem length_symbol? {first : Char} {rest : List Char} {kind : TokenKind} {length : Nat}
    (read : symbol? first rest = some (kind, length)) : length ≤ rest.length := by
  unfold symbol? at read
  split at read <;> cases read <;> simp

/-- A token that is recognised takes no more characters than there are. -/
theorem length_recognise {position length : Nat} {first : Char} {rest : List Char}
    {kind : TokenKind} (read : recognise position first rest = .ok (kind, length)) :
    length ≤ rest.length := by
  unfold recognise at read
  split at read
  · split at read <;> cases read
    next quoted => exact length_quotedContent? quoted
  · split at read
    · dsimp only at read
      split at read <;> cases read
      have within := (numberLexeme_begins (first :: rest)).length_le
      rw [List.length_cons] at within
      omega
    · split at read
      · cases read
        exact (nameLength_take rest).2
      · split at read <;> cases read
        next symbol => exact length_symbol? symbol

/-- A token that cannot be read is reported at its first character. -/
theorem position_recognise {position : Nat} {first : Char} {rest : List Char}
    {failure : LexicalError} (read : recognise position first rest = .error failure) :
    failure.position = position := by
  unfold recognise at read
  split at read
  · split at read <;> cases read
    rfl
  · split at read
    · dsimp only at read
      split at read <;> cases read
      rfl
    · split at read
      · cases read
      · split at read <;> cases read
        rfl

/-! ### Tilings -/

/-- The characters of a source before, between and after tokens, from one place to another. -/
def gaps (source : List Char) (reach : Nat) : Nat → List Token → List (List Char)
  | start, [] => [source.extract start reach]
  | start, token :: rest =>
    source.extract start token.position :: gaps source reach token.stop rest

/-- Gaps and the characters of tokens in turn. -/
def weave : List (List Char) → List Token → List Char
  | gap :: gaps, token :: rest => gap ++ (token.lexeme.toList ++ weave gaps rest)
  | gaps, _ => gaps.flatten

/-- Tokens tile a source from one place to another: they stand one after the other, each has the
characters of its place, what stands between them is blank, and together with it they make up the
source. -/
structure Tiling (source : List Char) (start reach : Nat) (tokens : List Token) : Prop where
  reaches : reach ≤ source.length
  increasing : (tokens.map Token.position).Pairwise (· < ·)
  within : ∀ token ∈ tokens, start ≤ token.position ∧ token.stop ≤ reach
  fewer : start + tokens.length ≤ reach
  lexemes : ∀ token ∈ tokens, token.lexeme.toList = source.extract token.position token.stop
  blanks : ∀ gap ∈ gaps source reach start tokens, ∀ character ∈ gap, isBlank character = true
  woven : weave (gaps source reach start tokens) tokens = source.extract start reach

theorem extract_self (source : List Char) (place : Nat) : source.extract place place = [] := by
  rw [List.extract_eq_take_drop, Nat.sub_self, List.take_zero]

/-- Characters up to a place and those from there on are the characters of both. -/
theorem extract_append_extract (source : List Char) {start middle stop : Nat}
    (before : start ≤ middle) (after : middle ≤ stop) :
    source.extract start middle ++ source.extract middle stop = source.extract start stop := by
  obtain ⟨first, rfl⟩ := Nat.exists_eq_add_of_le before
  obtain ⟨second, rfl⟩ := Nat.exists_eq_add_of_le after
  rw [Nat.add_assoc]
  simp only [List.extract_eq_take_drop, Nat.add_sub_cancel_left, Nat.add_sub_add_left,
    List.take_add, List.drop_drop]

variable {source : List Char} {start reach : Nat} {tokens : List Token}

/-- No tokens tile no characters. -/
theorem tiling_nil (within : start ≤ source.length) : Tiling source start start [] where
  reaches := within
  increasing := .nil
  within := nofun
  fewer := Nat.le_refl start
  lexemes := nofun
  blanks gap member := by
    obtain rfl := List.mem_singleton.mp member
    rw [extract_self]
    exact nofun
  woven := List.append_nil _

/-- A blank before a tiling belongs to its first gap. -/
theorem Tiling.blank (tiling : Tiling source (start + 1) reach tokens) {blank : Char}
    (here : source.extract start (start + 1) = [blank]) (white : isBlank blank = true) :
    Tiling source start reach tokens := by
  have fewer := tiling.fewer
  have front : ∀ {stop}, start + 1 ≤ stop →
      source.extract start stop = blank :: source.extract (start + 1) stop := by
    intro stop later
    rw [← extract_append_extract source (Nat.le_succ start) later, here]
    rfl
  obtain ⟨gap, others, split, split'⟩ : ∃ gap others,
      gaps source reach (start + 1) tokens = gap :: others ∧
        gaps source reach start tokens = (blank :: gap) :: others := by
    cases tokens with
    | nil => exact ⟨_, _, rfl, congrArg (· :: []) (front (by omega))⟩
    | cons token rest =>
      have later := (tiling.within token List.mem_cons_self).1
      exact ⟨_, _, rfl, congrArg (· :: gaps source reach token.stop rest) (front later)⟩
  have blanks := tiling.blanks
  have woven := tiling.woven
  rw [split] at blanks woven
  obtain ⟨gapBlank, othersBlank⟩ := List.forall_mem_cons.mp blanks
  refine ⟨tiling.reaches, tiling.increasing, fun token member => ?_, by omega, tiling.lexemes, ?_,
    ?_⟩
  · obtain ⟨later, stops⟩ := tiling.within token member
    exact ⟨Nat.le_of_succ_le later, stops⟩
  · rw [split']
    exact List.forall_mem_cons.mpr ⟨List.forall_mem_cons.mpr ⟨white, gapBlank⟩, othersBlank⟩
  · rw [split', front (by omega), ← woven]
    cases tokens <;> rfl

/-- A token before a tiling that begins where the token ends has no gap before it. -/
theorem Tiling.token {token : Token} (tiling : Tiling source token.stop reach tokens)
    (nonempty : token.position < token.stop)
    (lexeme : token.lexeme.toList = source.extract token.position token.stop) :
    Tiling source token.position reach (token :: tokens) where
  reaches := tiling.reaches
  increasing := by
    refine List.Pairwise.cons (fun place member => ?_) tiling.increasing
    obtain ⟨later, inRest, rfl⟩ := List.mem_map.mp member
    exact Nat.lt_of_lt_of_le nonempty (tiling.within later inRest).1
  within := by
    have fewer := tiling.fewer
    refine List.forall_mem_cons.mpr ⟨⟨Nat.le_refl _, by omega⟩, fun later member => ?_⟩
    obtain ⟨starts, stops⟩ := tiling.within later member
    exact ⟨by omega, stops⟩
  fewer := by
    have fewer := tiling.fewer
    rw [List.length_cons]
    omega
  lexemes := List.forall_mem_cons.mpr ⟨lexeme, tiling.lexemes⟩
  blanks := by
    refine List.forall_mem_cons.mpr ⟨?_, tiling.blanks⟩
    rw [extract_self]
    exact nofun
  woven := by
    have fewer := tiling.fewer
    show source.extract token.position token.position ++
      (token.lexeme.toList ++ weave (gaps source reach token.stop tokens) tokens) = _
    rw [extract_self, tiling.woven, lexeme, List.nil_append]
    exact extract_append_extract source (Nat.le_of_lt nonempty) (by omega)

/-! ### The reading of a text -/

/-- What a reading from a place of a source on leaves: tokens that tile the source from there up
to its end, or up to the place of the first failure. -/
def Scan.Covers (scan : Scan) (source : List Char) (start : Nat) : Prop :=
  ∃ body reach, Tiling source start reach body ∧
    (scan = ⟨body ++ [.endAt source.length], none⟩ ∧ reach = source.length ∨
      ∃ failure, scan = ⟨body, some failure⟩ ∧ reach = failure.position ∧ reach < source.length)

/-- The reading of the characters from a place on, some of which belong to the token before, covers
the others. -/
theorem scanFrom_covers {position covered : Nat} {characters : List Char}
    (here : source.drop position = characters) (inside : position ≤ source.length)
    (enough : covered ≤ characters.length) :
    (scanFrom position covered characters).Covers source (position + covered) := by
  have length : characters.length = source.length - position := by rw [← here, List.length_drop]
  induction characters generalizing position covered with
  | nil =>
    obtain rfl : covered = 0 := Nat.le_zero.mp enough
    obtain rfl : position = source.length := by
      rw [List.length_nil] at length
      omega
    exact ⟨[], source.length, tiling_nil (Nat.le_refl _), .inl ⟨rfl, rfl⟩⟩
  | cons first rest inductionHypothesis =>
    rw [List.length_cons] at length
    have there : source.drop (position + 1) = rest := by
      rw [← List.drop_drop, here]
      rfl
    have later : ∀ {covered}, covered ≤ rest.length →
        (scanFrom (position + 1) covered rest).Covers source (position + 1 + covered) :=
      fun enough => inductionHypothesis there (by omega) enough (by omega)
    unfold scanFrom
    cases covered with
    | succ covered =>
      have covers := later (Nat.le_of_succ_le_succ enough)
      rw [Nat.add_right_comm] at covers
      exact covers
    | zero =>
      dsimp only
      split
      next white =>
        obtain ⟨body, reach, tiling, outcome⟩ := later (Nat.zero_le _)
        refine ⟨body, reach, tiling.blank ?_ white, outcome⟩
        rw [List.extract_eq_take_drop, here, Nat.add_sub_cancel_left]
        rfl
      next notBlank =>
        cases recognised : recognise position first rest with
        | error failure =>
          refine ⟨[], position, tiling_nil inside, .inr ⟨failure, rfl, ?_, by omega⟩⟩
          exact (position_recognise recognised).symm
        | ok token =>
          obtain ⟨kind, length⟩ := token
          have within := length_recognise recognised
          obtain ⟨body, reach, tiling, outcome⟩ := later within
          let lexeme := String.ofList (first :: rest.take length)
          let token : Token := ⟨kind, lexeme, position⟩
          have stop : token.stop = position + 1 + length := by
            show position + lexeme.length = _
            rw [String.length_ofList, List.length_cons, List.length_take, Nat.min_eq_left within]
            omega
          refine ⟨token :: body, reach, Tiling.token (by rwa [stop]) ?_ ?_, ?_⟩
          · show position < token.stop
            omega
          · show lexeme.toList = source.extract position token.stop
            rw [String.toList_ofList, List.extract_eq_take_drop, here, stop, Nat.add_assoc,
              Nat.add_sub_cancel_left, Nat.add_comm 1]
            rfl
          · rcases outcome with ⟨scanned, reached⟩ | ⟨failure, scanned, reached⟩
            · exact .inl ⟨by dsimp only; rw [scanned]; rfl, reached⟩
            · exact .inr ⟨failure, by dsimp only; rw [scanned], reached⟩

/-- The reading of a text loses nothing. The tokens before the end of the text, or before the first
place where none can be read, tile the text up to there; woven with the blanks between them, those
of a text that can be read make up the text. -/
theorem scan_covers (source : String) :
    ∃ body reach, Tiling source.toList 0 reach body ∧
      ((scan source).tokens = body ++ [.endAt source.length] ∧
          tokenize source = .ok (body ++ [.endAt source.length]) ∧ reach = source.length ∧
          String.ofList (weave (gaps source.toList reach 0 body) body) = source ∨
        ∃ failure, (scan source).tokens = body ∧ tokenize source = .error failure ∧
          reach = failure.position ∧ reach < source.length) := by
  obtain ⟨body, reach, tiling, outcome⟩ : (scan source).Covers source.toList 0 :=
    scanFrom_covers rfl (Nat.zero_le _) (Nat.zero_le _)
  refine ⟨body, reach, tiling, ?_⟩
  unfold tokenize
  rcases outcome with ⟨scanned, reached⟩ | ⟨failure, scanned, reached, short⟩
  · refine .inl ?_
    dsimp only
    rw [scanned, String.length_toList]
    refine ⟨rfl, rfl, reached, ?_⟩
    rw [tiling.woven, reached, List.extract_eq_take_drop, List.drop_zero, Nat.sub_zero,
      List.take_length, String.ofList_toList]
  · refine .inr ⟨failure, ?_⟩
    dsimp only
    rw [scanned]
    exact ⟨rfl, rfl, reached, short⟩

end Reckon
