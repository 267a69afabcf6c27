/-
This file shows that the parser is safe. A walk over the tokens of a text, with
the end of the input put behind them, comes to what the parser comes to, however
many of the last tokens are missing. It does not break down on the way: there is
always a token under the cursor, no count goes below zero, every number fits its
machine word, and neither activations nor rounds run out.
-/

import Reckon.Proofs.Grammar.WalkedRules

namespace Reckon

open Grammar

namespace Walk

/-- Tokens without the end of the input are a stream of their own, which ends where the end is
put. -/
theorem withEnd_eq {body : List Token} (noEnd : ∀ token ∈ body, token.kind ≠ .endOfInput) :
    ∃ stop, TokenStream.ofTokens body = ⟨body, stop⟩ ∧
      Token.withEnd body = body ++ [.endAt stop] := by
  rcases List.eq_nil_or_concat body with rfl | ⟨init, last, rfl⟩
  · exact ⟨0, rfl, rfl⟩
  · rw [List.concat_eq_append] at noEnd ⊢
    obtain ⟨before, lastNot⟩ := List.forall_mem_append.mp noEnd
    have notEnd : last.isEnd = false := beq_false_of_ne (lastNot last List.mem_cons_self)
    have single : TokenStream.ofTokens [last] = ⟨[last], last.stop⟩ := by
      show (if last.isEnd then _ else _ : TokenStream) = _
      rw [notEnd]
      rfl
    refine ⟨last.stop, ?_, ?_⟩
    · rw [ofTokens_concat last before, single]
    · unfold Token.withEnd
      rw [List.getLast?_concat]
      show (if last.isEnd then _ else _ : List Token) = _
      rw [notEnd]
      rfl

theorem sits_start {body : List Token} {stop : Nat}
    (readable : ∀ token ∈ body, Readable token.kind ∧ token.kind ≠ .endOfInput) :
    Sits (body ++ [.endAt stop]) 0 .start ⟨body, stop⟩ where
  depth_eq := rfl
  rest := rfl
  readable := readable
  within := by
    refine List.forall_mem_singleton.mpr ⟨?_, Nat.zero_le _⟩
    rw [List.length_append]
    exact Nat.succ_pos _

/-- A walk over the tokens of a text, or all but the last of them, sits where their stream
begins. -/
theorem sits_withEnd {source : String} {tokens : List Token} (lexed : tokenize source = .ok tokens)
    (dropped : Nat) :
    Sits (Token.withEnd (tokens.take (tokens.length - dropped))) 0 .start
      (.ofTokens (tokens.take (tokens.length - dropped))) := by
  obtain ⟨body, stop, rfl, all⟩ :=
    @tokenize_tokens (fun kind => Readable kind ∧ kind ≠ .endOfInput)
      (fun notBlank recognised =>
        ⟨readable_recognise notBlank recognised, recognise_ne_endOfInput recognised⟩)
      source _ lexed
  cases dropped with
  | zero =>
    have noEnd : ∀ token ∈ body, token.kind ≠ .endOfInput :=
      fun token member => (all token member).2
    have ended : Token.withEnd (body ++ [.endAt stop]) = body ++ [.endAt stop] := by
      unfold Token.withEnd
      rw [List.getLast?_concat]
      rfl
    rw [Nat.sub_zero, List.take_length, ofTokens_append_end noEnd, ended]
    exact sits_start all
  | succ dropped =>
    rw [List.length_append, List.length_singleton, Nat.add_sub_add_right,
      List.take_append_of_le_length (Nat.sub_le _ _)]
    have left : ∀ token ∈ body.take (body.length - dropped),
        Readable token.kind ∧ token.kind ≠ .endOfInput :=
      fun token member => all token (List.mem_of_mem_take member)
    obtain ⟨stop', tokens, ended⟩ := withEnd_eq fun token member => (left token member).2
    rw [tokens, ended]
    exact sits_start left

theorem head?_toList_append {first rest : String} {character : Char}
    (begins : first.toList.head? = some character) :
    (first ++ rest).toList.head? = some character := by
  rw [String.toList_append, List.head?_append, begins]
  rfl

theorem notMem_hintMessages {message : String} {character : Char} (other : character ≠ 'E')
    (begins : message.toList.head? = some character) : message ∉ hintMessages := by
  intro member
  simp only [hintMessages, List.mem_cons, List.not_mem_nil, or_false] at member
  rcases member with rfl | rfl | rfl <;> exact other (Option.some.inj begins).symm

/-- No fault that a parser finds is in a type hint after a name. -/
theorem message_notMem_hintMessages (problem : SyntaxProblem) :
    problem.message ∉ hintMessages := by
  cases problem with
  -- The faults with a piece of the text in them begin with other letters.
  | lexical cause =>
    unfold SyntaxProblem.message LexicalError.message
    cases cause with
    | unterminatedText =>
      exact notMem_hintMessages (show 'U' ≠ 'E' by decide) (head?_toList_append rfl)
    | unexpectedCharacter =>
      exact notMem_hintMessages (show 'U' ≠ 'E' by decide)
        (head?_toList_append (head?_toList_append (head?_toList_append rfl)))
    | invalidNumber =>
      exact notMem_hintMessages (show 'I' ≠ 'E' by decide)
        (head?_toList_append (head?_toList_append (head?_toList_append rfl)))
  | tokenAfterEnd =>
    unfold SyntaxProblem.message
    exact notMem_hintMessages (show 'U' ≠ 'E' by decide)
      (head?_toList_append (head?_toList_append rfl))
  | _ => decide

end Walk

/-- A walk over the tokens of a text, without any number of the last ones of them, does not break
down: with more activations than parts may nest, and a round for each token, or any number more,
it comes to what the parser comes to. Its cursor stays at the tokens, it never has more parts
open than may nest, and in the end it has closed all of them. It never complains of a type hint
after a name. -/
theorem Walk.complete_eq_ofTokens {source : String} {tokens : List Token}
    (lexed : tokenize source = .ok tokens) (dropped moreRounds moreActivations : Nat) :
    let given := tokens.take (tokens.length - dropped)
    let ended := Token.withEnd given
    ∃ answer trail,
      Walk.complete ended (ended.length + moreRounds) (nestingLimit + 1 + moreActivations)
          .start = .ok (answer, trail) ∧
        answer = (Expression.ofTokens given).mapError .ofError ∧
        trail.here.depth = Trail.start.here.depth ∧
        (∀ cursor ∈ trail.cursors, cursor.index < ended.length ∧ cursor.depth ≤ nestingLimit) ∧
        ∀ complaint, answer = .error complaint →
          complaint.message ∉ Walk.hintMessages := by
  intro given ended
  have agrees := Walk.follows_complete (Nat.le_add_right ended.length moreRounds)
    (show nestingLimit < nestingLimit + 1 + moreActivations by omega) .start
    (.ofTokens given) (Walk.sits_withEnd lexed dropped)
  unfold Expression.ofTokens
  generalize Walk.complete ended (ended.length + moreRounds) (nestingLimit + 1 + moreActivations)
    .start = walked at agrees ⊢
  generalize Parser.complete (.ofTokens given) = read at agrees ⊢
  cases agrees with
  | reads sits _ => exact ⟨_, _, rfl, rfl, sits.depth_eq, sits.within, nofun⟩
  | @faults error trail depth_eq within =>
    refine ⟨_, trail, rfl, rfl, depth_eq, within, ?_⟩
    rintro _ ⟨⟩
    exact Walk.message_notMem_hintMessages error.problem

/-- Of `f<T>(1)` the last four tokens are missing: what could have been a type hint is a comparison
without its right side. -/
theorem Walk.complete_eq_ofTokens_cutHint :
    tokenize "f<T>(1)" = .ok [⟨.name "f", "f", 0⟩, ⟨.less, "<", 1⟩, ⟨.name "T", "T", 2⟩,
        ⟨.greater, ">", 3⟩, ⟨.leftParen, "(", 4⟩, ⟨.integer 1, "1", 5⟩, ⟨.rightParen, ")", 6⟩,
        .endAt 7] ∧
      ∃ answer trail,
        Walk.complete [⟨.name "f", "f", 0⟩, ⟨.less, "<", 1⟩, ⟨.name "T", "T", 2⟩,
            ⟨.greater, ">", 3⟩, .endAt 4] 5 129 .start = .ok (answer, trail) ∧
          answer = .error ⟨"Expect expression.", 4⟩ ∧ trail.here.depth = 0 ∧
          (∀ cursor ∈ trail.cursors, cursor.index < 5 ∧ cursor.depth ≤ 128) ∧
          ∀ complaint, answer = .error complaint → complaint.message ∉ Walk.hintMessages := by
  have lexed : tokenize "f<T>(1)" = .ok [⟨.name "f", "f", 0⟩, ⟨.less, "<", 1⟩,
      ⟨.name "T", "T", 2⟩, ⟨.greater, ">", 3⟩, ⟨.leftParen, "(", 4⟩, ⟨.integer 1, "1", 5⟩,
      ⟨.rightParen, ")", 6⟩, .endAt 7] := rfl
  have read : Expression.ofTokens [⟨.name "f", "f", 0⟩, ⟨.less, "<", 1⟩, ⟨.name "T", "T", 2⟩,
      ⟨.greater, ">", 3⟩] = .error ⟨.expressionExpected, 4⟩ := rfl
  obtain ⟨answer, trail, walked, same, closed, within, noHint⟩ :=
    Walk.complete_eq_ofTokens lexed 4 0 0
  refine ⟨lexed, answer, trail, walked, same.trans ?_, closed, within, noHint⟩
  exact congrArg (Except.mapError Complaint.ofError) read

end Reckon
