/-
This file shows what the tokens of a text have in common: what can be said of
every token that is recognised holds of all of them but the last, and the last
is the end of the input.
-/

import Reckon.Token.Lexer

namespace Reckon

theorem TokenKind.ofWord_ne_endOfInput (word : String) :
    TokenKind.ofWord word ≠ .endOfInput := by
  unfold TokenKind.ofWord
  split <;> exact nofun

theorem numberKind?_ne_endOfInput {whole fraction : List Char} {kind : TokenKind}
    (read : numberKind? whole fraction = some kind) : kind ≠ .endOfInput := by
  unfold numberKind? at read
  by_cases point : fraction ≠ []
  · rw [if_pos point] at read
    cases read
    exact nofun
  · rw [if_neg point] at read
    by_cases fits : fitsInt64 (digitsValue whole : Int) = true
    · rw [if_pos fits] at read
      cases read
      exact nofun
    · rw [if_neg fits] at read
      cases read

theorem symbol?_ne_endOfInput {first : Char} {rest : List Char} {kind : TokenKind} {length : Nat}
    (read : symbol? first rest = some (kind, length)) : kind ≠ .endOfInput := by
  unfold symbol? at read
  split at read <;> cases read <;> exact nofun

theorem recognise_ne_endOfInput {position length : Nat} {first : Char} {rest : List Char}
    {kind : TokenKind} (read : recognise position first rest = .ok (kind, length)) :
    kind ≠ .endOfInput := by
  unfold recognise at read
  split at read
  · split at read <;> cases read
    exact nofun
  · split at read
    · dsimp only at read
      split at read <;> cases read
      next digits => exact numberKind?_ne_endOfInput digits
    · split at read
      · cases read
        exact TokenKind.ofWord_ne_endOfInput _
      · split at read <;> cases read
        next symbol => exact symbol?_ne_endOfInput symbol

/-- If a text can be read, its tokens are tokens that were recognised and the end. -/
theorem scanFrom_recognised {holds : Token → Prop}
    (recognised : ∀ {position length first rest kind}, isBlank first = false →
      recognise position first rest = .ok (kind, length) →
        holds ⟨kind, String.ofList (first :: rest.take length), position⟩)
    {characters : List Char} {position covered : Nat}
    (read : (scanFrom position covered characters).failure = none) :
    ∃ body stop, (scanFrom position covered characters).tokens = body ++ [.endAt stop] ∧
      ∀ token ∈ body, holds token := by
  induction characters generalizing position covered with
  | nil => exact ⟨[], position, rfl, nofun⟩
  | cons first rest inductionHypothesis =>
    unfold scanFrom at read ⊢
    cases covered with
    | succ covered => exact inductionHypothesis read
    | zero =>
      dsimp only at read ⊢
      by_cases blank : isBlank first = true
      · rw [if_pos blank] at read ⊢
        exact inductionHypothesis read
      · rw [if_neg blank] at read ⊢
        cases recognisedFirst : recognise position first rest with
        | error failure =>
          rw [recognisedFirst] at read
          cases read
        | ok token =>
          rw [recognisedFirst] at read
          obtain ⟨body, stop, same, all⟩ := inductionHypothesis read
          refine ⟨⟨token.1, String.ofList (first :: rest.take token.2), position⟩ :: body, stop,
            congrArg _ same, List.forall_mem_cons.mpr ⟨?_, all⟩⟩
          exact recognised (Bool.eq_false_iff.mpr blank) recognisedFirst

theorem scanFrom_tokens {holds : TokenKind → Prop}
    (recognised : ∀ {position length first rest kind}, isBlank first = false →
      recognise position first rest = .ok (kind, length) → holds kind)
    {characters : List Char} {position covered : Nat}
    (read : (scanFrom position covered characters).failure = none) :
    ∃ body stop, (scanFrom position covered characters).tokens = body ++ [.endAt stop] ∧
      ∀ token ∈ body, holds token.kind :=
  @scanFrom_recognised (fun token => holds token.kind) recognised _ _ _ read

/-- The tokens of a text end with the end of the input, and with nothing else. -/
theorem tokenize_tokens {holds : TokenKind → Prop}
    (recognised : ∀ {position length first rest kind}, isBlank first = false →
      recognise position first rest = .ok (kind, length) → holds kind)
    {source : String} {tokens : List Token} (read : tokenize source = .ok tokens) :
    ∃ body stop, tokens = body ++ [.endAt stop] ∧ ∀ token ∈ body, holds token.kind := by
  unfold tokenize at read
  dsimp only at read
  split at read
  · cases read
  next none =>
    cases read
    exact scanFrom_tokens recognised none

end Reckon
