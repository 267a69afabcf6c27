/-
This file shows that the parser minds the places of tokens in one respect only:
it names the place of the token at which it finds a fault. With its tokens at
other places it reads the same tree, or finds the same fault at the other
place.

So a text is read as what is left of it without the blanks at its ends, and a
fault in it is the same one, moved.
-/

import Reckon.Proofs.Grammar.Completeness
import Reckon.Proofs.Grammar.Congruence
import Reckon.Proofs.Token.Places

namespace Reckon

/-- A fault moved to another place. What is wrong with the characters of a text names the place
too. -/
def SyntaxError.placed (places : Nat → Nat) (fault : SyntaxError) : SyntaxError where
  problem :=
    match fault.problem with
    | .lexical cause => .lexical (cause.placed places)
    | other => other
  position := places fault.position

@[simp]
theorem SyntaxError.position_placed (places : Nat → Nat) (fault : SyntaxError) :
    (fault.placed places).position = places fault.position := rfl

theorem SyntaxError.placed_ofLexical (places : Nat → Nat) (cause : LexicalError) :
    (SyntaxError.ofLexical cause).placed places = .ofLexical (cause.placed places) :=
  congrArg (SyntaxError.mk _) (cause.position_placed places).symm

theorem SyntaxError.placed_of_isGrammatical (places : Nat → Nat) {problem : SyntaxProblem}
    (grammatical : problem.IsGrammatical) (position : Nat) :
    (SyntaxError.mk problem position).placed places = ⟨problem, places position⟩ := by
  cases problem with
  | lexical cause => exact absurd rfl (grammatical cause)
  | _ => rfl

/-- Tokens to be read, moved to other places. -/
def TokenStream.placed (places : Nat → Nat) (stream : TokenStream) : TokenStream :=
  ⟨stream.tokens.map (Token.placed places), places stream.stop⟩

theorem TokenStream.next_placed (places : Nat → Nat) (stream : TokenStream) :
    (stream.placed places).next = stream.next.placed places := by
  obtain ⟨_ | ⟨token, rest⟩, stop⟩ := stream <;> rfl

namespace Parser

variable {Result Final : Type} {places : Nat → Nat} {stream : TokenStream}

/-! ### Parsers at other places -/

/-- A parser reads the tokens of a stream as another reads them at other places, or the two find
the same fault at places of each other. -/
inductive SameAt (places : Nat → Nat) (parser parser' : Parser Result) (stream : TokenStream) :
    Prop where
  | read {result : Result} {later : TokenStream} : parser stream = .ok (result, later) →
      parser' (stream.placed places) = .ok (result, later.placed places) →
      SameAt places parser parser' stream
  | fault {problem : SyntaxProblem} {position : Nat} : problem.IsGrammatical →
      parser stream = .error ⟨problem, position⟩ →
      parser' (stream.placed places) = .error ⟨problem, places position⟩ →
      SameAt places parser parser' stream

theorem SameAt.bind {parser parser' : Parser Result} {following following' : Result → Parser Final}
    (first : SameAt places parser parser' stream)
    (second : ∀ result stream, SameAt places (following result) (following' result) stream) :
    SameAt places (parser >>= following) (parser' >>= following') stream := by
  cases first with
  | @read result later here there =>
    cases second result later with
    | read hereNext thereNext =>
      exact .read ((bind_of_reads here).trans hereNext) ((bind_of_reads there).trans thereNext)
    | fault grammatical hereNext thereNext =>
      exact .fault grammatical ((bind_of_reads here).trans hereNext)
        ((bind_of_reads there).trans thereNext)
  | fault grammatical here there =>
    exact .fault grammatical (bind_of_fault here) (bind_of_fault there)

/-- No type hint comes next at one place where none does at another. -/
theorem sameAt_acceptHint (places : Nat → Nat) (stream : TokenStream) :
    SameAt places acceptHint acceptHint stream := by
  obtain ⟨_ | ⟨⟨first, _, _⟩, rest⟩, stop⟩ := stream
  · exact .read rfl rfl
  cases first with
  | less =>
    obtain _ | ⟨⟨second, _, _⟩, rest⟩ := rest
    · exact .read rfl rfl
    cases second with
    | name hint =>
      obtain _ | ⟨⟨third, _, _⟩, rest⟩ := rest
      · exact .read rfl rfl
      cases third with
      | greater =>
        obtain _ | ⟨⟨fourth, _, _⟩, rest⟩ := rest
        · exact .read rfl rfl
        · cases fourth <;> exact .read rfl rfl
      | _ => exact .read rfl rfl
    | _ => exact .read rfl rfl
  | _ => exact .read rfl rfl

/-- Parsers put together in the same way read the same at other places if their parts do. -/
theorem isCongruence_sameAt (places : Nat → Nat) :
    IsCongruence fun parser parser' => ∀ stream, SameAt places parser parser' stream where
  pure result stream := .read rfl rfl
  bind first second stream := (first stream).bind second
  next := by
    intro Final following following' same stream
    have there : (next >>= following') (stream.placed places) =
        following' (stream.next.placed places) (stream.placed places) := by
      rw [← TokenStream.next_placed]
      rfl
    cases same stream.next (stream.next.placed places) rfl rfl stream with
    | read here thereNext => exact .read here (there.trans thereNext)
    | fault grammatical here thereNext => exact .fault grammatical here (there.trans thereNext)
  tokensLeft stream := by
    refine .read rfl ?_
    unfold tokensLeft TokenStream.placed
    rw [List.length_map]
  advance stream := by
    refine .read rfl ?_
    unfold advance TokenStream.placed
    rw [List.map_drop]
  acceptHint := sameAt_acceptHint places
  fail grammatical stream := by
    refine .fault grammatical rfl ?_
    unfold Parser.fail
    rw [TokenStream.next_placed]
    rfl

end Parser

namespace Expression

open Grammar

variable {source : String} {body : List Token} {stop : Nat} {fault : SyntaxError}

/-! ### Tokens at other places -/

/-- Tokens at other places spell the same tree, or there is the same fault in them at the other
place. -/
theorem ofTokens_placed (noEnd : ∀ token ∈ body, token.kind ≠ .endOfInput)
    (places : Nat → Nat) (stop : Nat) :
    ofTokens ((body ++ [Token.endAt stop]).map (Token.placed places)) =
      (ofTokens (body ++ [.endAt stop])).mapError (SyntaxError.placed places) := by
  have noEnd' : ∀ token ∈ body.map (Token.placed places), token.kind ≠ .endOfInput := by
    intro token member
    obtain ⟨other, inBody, rfl⟩ := List.mem_map.mp member
    exact noEnd other inBody
  have streams : TokenStream.ofTokens ((body ++ [Token.endAt stop]).map (Token.placed places)) =
      TokenStream.placed places ⟨body, stop⟩ := by
    rw [List.map_append]
    exact ofTokens_append_end noEnd'
  unfold ofTokens
  rw [streams, ofTokens_append_end noEnd]
  cases (Parser.isCongruence_sameAt places).complete ⟨body, stop⟩ with
  | read here there =>
    rw [here, there]
    rfl
  | fault grammatical here there =>
    rw [here, there]
    exact congrArg Except.error (SyntaxError.placed_of_isGrammatical places grammatical _).symm

/-- What is wrong with tokens is not wrong with the characters they are made of. -/
theorem isGrammatical_of_ofTokens (noEnd : ∀ token ∈ body, token.kind ≠ .endOfInput)
    (read : ofTokens (body ++ [.endAt stop]) = .error fault) : fault.problem.IsGrammatical := by
  unfold ofTokens at read
  rw [ofTokens_append_end noEnd] at read
  cases (Parser.isCongruence_sameAt id).complete ⟨body, stop⟩ with
  | read here _ =>
    rw [here] at read
    cases read
  | fault grammatical here _ =>
    rw [here] at read
    cases read
    exact grammatical

/-- The blanks at the ends of a text move the faults in it and do nothing else. -/
theorem parse_eq_placed (source : String) :
    parse source = (parse (trimmed source)).mapError (SyntaxError.placed (placeAround source)) := by
  unfold parse
  rw [tokenize_eq_placed]
  cases lexed : tokenize (trimmed source) with
  | error cause => exact congrArg Except.error (SyntaxError.placed_ofLexical _ cause).symm
  | ok tokens =>
    obtain ⟨body, stop, rfl, noEnd⟩ :=
      tokenize_tokens (fun _ recognised => recognise_ne_endOfInput recognised) lexed
    exact ofTokens_placed noEnd _ _

/-! ### The places of faults -/

/-- A fault lies within its text or at its end. -/
theorem position_le_of_parse (read : parse source = .error fault) :
    fault.position ≤ source.length := by
  obtain ⟨body, reach, tiling, ⟨-, lexed, rfl, -⟩ | ⟨cause, -, lexed, reached, short⟩⟩ :=
    scan_covers source
  · rw [parse_of_lexed lexed] at read
    obtain ⟨body', stop, parts, noEnd⟩ :=
      tokenize_tokens (fun _ recognised => recognise_ne_endOfInput recognised) lexed
    obtain ⟨rfl, -⟩ := List.append_inj' parts rfl
    -- No place lies beyond the end, so the tokens stay where they are when such places are moved.
    let places (place : Nat) := min place source.length
    have unmoved : (body ++ [Token.endAt source.length]).map (Token.placed places) =
        body ++ [.endAt source.length] := by
      refine (List.map_congr_left fun token member => ?_).trans (List.map_id _)
      have within : token.position ≤ source.length := by
        rcases List.mem_append.mp member with inBody | isLast
        · have stops := (tiling.within token inBody).2
          unfold Token.stop at stops
          omega
        · rw [List.mem_singleton.mp isLast]
          exact Nat.le_refl _
      exact congrArg (Token.mk token.kind token.lexeme) (Nat.min_eq_left within)
    have same := ofTokens_placed noEnd places source.length
    rw [unmoved, read] at same
    have moved : fault.position = min fault.position source.length :=
      congrArg SyntaxError.position (Except.error.inj same)
    omega
  · unfold parse at read
    rw [lexed] at read
    cases read
    exact Nat.le_of_lt (show cause.position < source.length by rwa [← reached])

/-- A fault is the same at another place if that place is the same. -/
theorem placed_eq_self_iff (read : parse source = .error fault) (places : Nat → Nat) :
    fault.placed places = fault ↔ places fault.position = fault.position := by
  refine ⟨congrArg SyntaxError.position, fun same => ?_⟩
  unfold parse at read
  cases lexed : tokenize source with
  | error cause =>
    rw [lexed] at read
    obtain rfl := Except.error.inj read
    rw [SyntaxError.placed_ofLexical, ← cause.placed_position,
      show places cause.position = cause.position from same]
    cases cause <;> rfl
  | ok tokens =>
    rw [lexed] at read
    obtain ⟨body, stop, rfl, noEnd⟩ :=
      tokenize_tokens (fun _ recognised => recognise_ne_endOfInput recognised) lexed
    have grammatical := isGrammatical_of_ofTokens noEnd read
    exact (SyntaxError.placed_of_isGrammatical places grammatical _).trans
      (congrArg (SyntaxError.mk fault.problem) same)

end Expression

end Reckon
