/-
This file shows where faults in the tokens of a text are reported. Whatever
tokens the recognizer of the grammar takes, up to the end of the input, spell an
expression, and it takes all that do. So a fault is reported at the first token
that no expression could go on with: some tokens complete those before it, and
none complete those up to it.
-/

import Reckon.Proofs.Grammar.TrackedRules

namespace Reckon

open Reckon.Parser

namespace Grammar

/-- Tokens spell an expression, before the end of the input, however deeply its parts nest. -/
def Accepted (kinds : List TokenKind) : Prop :=
  ∃ input levels tree, kinds = input ++ [.endOfInput] ∧
    Spells levels (.expression tree) input []

theorem exists_stream (input : List TokenKind) : ∃ stream : TokenStream, stream.kinds = input := by
  refine ⟨⟨input.map fun kind => ⟨kind, "", 0⟩, 0⟩, ?_⟩
  show (input.map fun kind => (⟨kind, "", 0⟩ : Token)).map Token.kind = input
  rw [List.map_map]
  exact List.map_id input

/-- The tokens that are left, with the end of the input after them, begin with the next one. -/
theorem exists_next (stream : TokenStream) :
    ∃ after : List Token, stream.tokens ++ [.endAt stream.stop] = stream.next :: after := by
  rcases stream with ⟨_ | ⟨token, tokens⟩, stop⟩
  · exact ⟨[], rfl⟩
  · exact ⟨tokens ++ [.endAt stop], rfl⟩

/-- A fault that is not about nesting lies between tokens that can be taken and one that cannot. -/
theorem Sticks.at_token {budget : Nat} {state : Recognizer} {stream : TokenStream}
    {error : SyntaxError} (sticks : Sticks budget state stream error)
    (shallow : error.problem = .nestedTooDeeply → stream.tokens.length < budget) :
    ∃ (before : List Token) (token : Token) (after : List Token) (stuck : Recognizer),
      stream.tokens ++ [.endAt stream.stop] = before ++ token :: after ∧
      error.position = token.position ∧
      state.run (before.map Token.kind) = some stuck ∧ stuck.step token.kind = none := by
  obtain ⟨taken, later, tokens, stop, position, ⟨tooDeep, bound⟩ | ⟨stuck, ran, dead⟩⟩ := sticks
  · have enough := shallow tooDeep
    rw [tokens, List.length_append] at enough
    omega
  · obtain ⟨after, left⟩ := exists_next later
    refine ⟨taken, later.next, after, stuck, ?_, position, ran, dead⟩
    rw [tokens, stop, List.append_assoc, left]

/-- The recognizer takes no tokens but those of an expression. -/
theorem accepted_of_run {kinds : List TokenKind} {final : Recognizer}
    (ran : Recognizer.start.run kinds = some final) (finished : final.control = .finished) :
    Accepted kinds := by
  obtain ⟨input, rfl, noEnd⟩ := Recognizer.eq_append_of_run_finished ran finished nofun
  obtain ⟨stream, rfl⟩ := exists_stream input
  -- With more levels than tokens, nothing nests too deeply.
  let levels := stream.tokens.length + 1
  rcases reads_or_faults (completeWithin levels) stream with ⟨tree, later, read⟩ | ⟨error, fault⟩
  · exact ⟨stream.kinds, levels, tree, rfl, spells_of_reads noEnd read⟩
  · have sticks := (tracks_completeWithin levels stream).faults fault
    obtain ⟨before, token, after, stuck, tokens, -, live, dead⟩ :=
      sticks.at_token fun _ => Nat.lt_succ_self _
    have kinds := congrArg (List.map Token.kind) tokens
    rw [List.map_append, List.map_append] at kinds
    rw [show stream.kinds ++ [.endOfInput] = _ from kinds, List.map_cons,
      Recognizer.run_append_cons_of_step _ live dead] at ran
    cases ran

/-- The recognizer takes all tokens of an expression. -/
theorem Accepted.run {kinds : List TokenKind} (accepted : Accepted kinds) :
    Recognizer.start.run kinds ≠ none := by
  obtain ⟨input, levels, tree, rfl, spelled⟩ := accepted
  obtain ⟨stream, rfl⟩ := exists_stream input
  obtain ⟨later, atEnd, read⟩ := spelled.readsTo stream rfl
  obtain ⟨state, ⟨taken, tokens, -, ran⟩, ⟨lookback, rfl, -⟩, -⟩ :=
    (tracks_completeWithin levels stream).reads read
  have whole : stream.kinds = taken.map Token.kind := by
    unfold TokenStream.kinds at atEnd ⊢
    rw [tokens, List.map_append, atEnd, List.append_nil]
  rw [whole, Recognizer.run_append, ran]
  exact nofun

/-- A fault in the tokens of a text, unless they nest too deeply, is reported at the first token
with which they are no longer the beginning of an expression. -/
theorem parse_error_at_first_fault {source : String} {tokens : List Token} {error : SyntaxError}
    (lexed : tokenize source = .ok tokens) (failed : Expression.parse source = .error error)
    (shallow : error.message ≠ "Expression nested too deeply.") :
    ∃ before token after, tokens = before ++ token :: after ∧
      error.position = token.position ∧
      (∃ more, Accepted (before.map Token.kind ++ more)) ∧
      ∀ more, ¬ Accepted (before.map Token.kind ++ token.kind :: more) := by
  obtain ⟨body, stop, rfl, noEnd⟩ := tokenize_tokens (fun _ => recognise_ne_endOfInput) lexed
  rw [Expression.parse_of_lexed lexed] at failed
  unfold Expression.ofTokens at failed
  rw [ofTokens_append_end noEnd] at failed
  rcases reads_or_faults complete ⟨body, stop⟩ with ⟨tree, later, read⟩ | ⟨error', fault⟩
  · rw [show complete ⟨body, stop⟩ = _ from read] at failed
    cases failed
  · rw [fault] at failed
    cases failed
    have sticks := (tracks_completeWithin nestingLimit ⟨body, stop⟩).faults fault
    obtain ⟨before, token, after, stuck, tokens, position, live, dead⟩ :=
      sticks.at_token fun tooDeep => absurd (congrArg SyntaxProblem.message tooDeep) shallow
    refine ⟨before, token, after, tokens, position, ?_, fun more accepted => ?_⟩
    · obtain ⟨more, final, ran, finished⟩ := stuck.isLive
      refine ⟨more, accepted_of_run ?_ finished⟩
      rw [Recognizer.run_append, live]
      exact ran
    · exact accepted.run (Recognizer.run_append_cons_of_step more live dead)

theorem parse_error_at_first_fault_closing :
    tokenize "1 + )" =
        .ok [⟨.integer 1, "1", 0⟩, ⟨.plus, "+", 2⟩, ⟨.rightParen, ")", 4⟩, .endAt 5] ∧
      Expression.parse "1 + )" = .error ⟨.expressionExpected, 4⟩ ∧
      ∃ before token after,
        [⟨.integer 1, "1", 0⟩, ⟨.plus, "+", 2⟩, ⟨.rightParen, ")", 4⟩, .endAt 5] =
            before ++ token :: after ∧
          (4 : Nat) = token.position ∧
          (∃ more, Accepted (before.map Token.kind ++ more)) ∧
          ∀ more, ¬ Accepted (before.map Token.kind ++ token.kind :: more) := by
  have lexed : tokenize "1 + )" =
      .ok [⟨.integer 1, "1", 0⟩, ⟨.plus, "+", 2⟩, ⟨.rightParen, ")", 4⟩, .endAt 5] := rfl
  have failed : Expression.parse "1 + )" = .error ⟨.expressionExpected, 4⟩ :=
    (Expression.parse_of_lexed lexed).trans rfl
  exact ⟨lexed, failed, parse_error_at_first_fault lexed failed (by decide)⟩

end Grammar

end Reckon
