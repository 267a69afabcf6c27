/-
This file shows what the limit on nesting does to the parser. With more levels
to open it reads the same, unless it ran out of them before. So tokens that are
spelled with any number of nested parts open at once are read as the tree that
they spell, or found to be nested too deeply; no other fault is found in them.
-/

import Reckon.Proofs.Grammar.Completeness
import Reckon.Proofs.Grammar.Congruence

namespace Reckon

namespace Parser

variable {Result Final : Type}

/-! ### Parsers that agree unless one of them runs out of levels -/

/-- A parser does the same as another, or it finds that its input is nested too deeply. -/
def Approximates (parser deeper : Parser Result) : Prop :=
  ∀ stream, parser stream = deeper stream ∨
    ∃ position, parser stream = .error ⟨.nestedTooDeeply, position⟩

theorem Approximates.refl (parser : Parser Result) : Approximates parser parser :=
  fun _ => .inl rfl

theorem approximates_tooDeep (deeper : Parser Result) :
    Approximates (fail .nestedTooDeeply) deeper :=
  fun stream => .inr ⟨stream.next.position, rfl⟩

theorem Approximates.bind {parser deeper : Parser Result}
    {following further : Result → Parser Final} (first : Approximates parser deeper)
    (second : ∀ result, Approximates (following result) (further result)) :
    Approximates (parser >>= following) (deeper >>= further) := by
  intro stream
  change Except.bind (parser stream) (fun read => following read.1 read.2) =
      Except.bind (deeper stream) (fun read => further read.1 read.2) ∨
    ∃ position, Except.bind (parser stream) (fun read => following read.1 read.2) = _
  rcases first stream with same | ⟨position, tooDeep⟩
  · rw [same]
    cases deeper stream with
    | error problem => exact .inl rfl
    | ok read => exact second read.1 read.2
  · rw [tooDeep]
    exact .inr ⟨position, rfl⟩

/-- Parsers put together in the same way agree as their parts do. -/
theorem isCongruence_approximates : IsCongruence @Approximates where
  pure _ := .refl _
  bind := Approximates.bind
  next same := (Approximates.refl next).bind fun token => same token token rfl rfl
  tokensLeft := .refl _
  advance := .refl _
  acceptHint := .refl _
  fail _ := .refl _

/-- With more levels to open the parser reads the same, unless it ran out of them before. -/
theorem approximates_nestedWithin (levels more : Nat) :
    (nestedWithin levels).Related Approximates (nestedWithin (levels + more)) := by
  induction levels with
  | zero => exact ⟨approximates_tooDeep _, approximates_tooDeep _, approximates_tooDeep _⟩
  | succ levels inductionHypothesis =>
    rw [Nat.add_right_comm]
    exact isCongruence_approximates.deeper inductionHypothesis

end Parser

namespace Grammar

open Reckon.Parser

variable {levels : Nat} {input rest : List TokenKind} {tree : Expression}

/-! ### Tokens that are spelled with any number of levels -/

/-- One more nested part may be open than was needed. -/
theorem Spells.oneMore {phrase : Phrase} (spelled : Spells levels phrase input rest) :
    Spells (levels + 1) phrase input rest := by
  induction spelled with
  | binding _ limited _ value body => exact .binding value limited body
  | conditional _ _ _ _ condition result further otherwise =>
    exact .conditional condition result further otherwise
  | ternary _ _ _ condition whenTrue whenFalse => exact .ternary condition whenTrue whenFalse
  | alone _ operand => exact .alone operand
  | noFurther => exact .noFurther
  | further _ _ _ condition result further => exact .further condition result further
  | operand rule _ operand => exact .operand rule operand
  | join joins _ _ left right => exact .join joins left right
  | base _ operand => exact .base operand
  | raise _ _ base exponent => exact .raise base exponent
  | negate _ operand => exact .negate operand
  | not _ operand => exact .not operand
  | primary _ operand => exact .primary operand
  | integer => exact .integer
  | float => exact .float
  | text => exact .text
  | boolean => exact .boolean
  | null => exact .null
  | grouping _ inner => exact .grouping inner
  | cast _ inner => exact .cast inner
  | «variable» noCall => exact .variable noCall
  | emptyCall opens => exact .emptyCall opens
  | call opens _ arguments => exact .call opens arguments
  | lastArgument _ argument => exact .lastArgument argument
  | arguments _ _ argument arguments => exact .arguments argument arguments

theorem Spells.mono {phrase : Phrase} {greater : Nat} (spelled : Spells levels phrase input rest)
    (le : levels ≤ greater) : Spells greater phrase input rest := by
  induction le with
  | refl => exact spelled
  | step _ inductionHypothesis => exact inductionHypothesis.oneMore

/-- Tokens that are spelled with any number of nested parts open at once are read as the tree
they spell, or they are nested too deeply. -/
theorem Spells.ofTokens {body : List Token} {stop : Nat}
    (spelled : Spells levels (.expression tree) (body.map Token.kind) [])
    (noEnd : ∀ token ∈ body, token.kind ≠ .endOfInput) :
    Expression.ofTokens (body ++ [.endAt stop]) = .ok tree ∨
      ∃ position, Expression.ofTokens (body ++ [.endAt stop]) =
        .error ⟨.nestedTooDeeply, position⟩ := by
  -- Enough levels for the derivation and for the parser, which then do the same.
  have approximates : Approximates complete (completeWithin (nestingLimit + levels)) :=
    (approximates_nestedWithin nestingLimit levels).expression.bind fun _ => .refl _
  obtain ⟨later, -, read⟩ :=
    (spelled.mono (Nat.le_add_left levels nestingLimit)).readsTo ⟨body, stop⟩ rfl
  unfold Expression.ofTokens
  rw [ofTokens_append_end noEnd]
  rcases approximates ⟨body, stop⟩ with same | ⟨position, tooDeep⟩
  · rw [same, show completeWithin _ _ = _ from read]
    exact .inl rfl
  · rw [tooDeep]
    exact .inr ⟨position, rfl⟩

end Grammar

end Reckon
