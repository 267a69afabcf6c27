/-
This file says which literals with a point are written as literals with a point
again. A number that was read from such a literal has no sign. If it is whole
and `10 ^ 15` or more, it is written as digits alone, which are an integer or no
token at all; if its digits went beyond all finite numbers, it is written as a
word. Every other number is read back as it was.
-/

import Reckon.Proofs.Token.Words

namespace Reckon

/-- A text is a single literal with a point, which stands for a number. -/
def IsFloatLiteral (source : String) (number : Binary64) : Prop :=
  ∃ lexeme position stop,
    tokenize source = .ok [⟨.float number, lexeme, position⟩, .endAt stop]

/-! ### The numbers that literals stand for -/

namespace Binary64

/-- A number is finite or infinite and has no sign. -/
def IsUnsigned (number : Binary64) : Prop :=
  (∃ rank, number = .finite false rank) ∨ number = .infinite false

theorem isUnsigned_ofRank (rank : Nat) : (ofRank false rank).IsUnsigned := by
  unfold ofRank
  split
  · exact .inl ⟨_, rfl⟩
  · exact .inr rfl

theorem isUnsigned_ofDecimal (significand : Nat) (exponent : Int) :
    (ofDecimal false significand exponent).IsUnsigned := by
  unfold ofDecimal
  split
  · exact isUnsigned_ofRank 0
  · split
    · exact .inr rfl
    · split
      · exact isUnsigned_ofRank 0
      · split <;> exact isUnsigned_ofRank _

end Binary64

/-- A token that is a number with a point is made of digits and stands for what they denote. -/
theorem float_of_recognise {position length : Nat} {first : Char} {rest : List Char}
    {number : Binary64} (read : recognise position first rest = .ok (.float number, length)) :
    first.isDigit = true ∧ (numberDigits (first :: rest)).2 ≠ [] ∧ number.IsUnsigned := by
  unfold recognise at read
  split at read
  · split at read <;> cases read
  · split at read
    next digit =>
      dsimp only at read
      split at read <;> cases read
      next value =>
        unfold numberKind? at value
        split at value
        next fraction =>
          cases value
          exact ⟨digit, fraction, Binary64.isUnsigned_ofDecimal _ _⟩
        next =>
          dsimp only at value
          split at value <;> cases value
    next =>
      split at read
      · injection read with same
        have word := (Prod.mk.inj same).1
        unfold TokenKind.ofWord at word
        split at word <;> cases word
      · split at read <;> cases read
        next symbol =>
          unfold symbol? at symbol
          split at symbol <;> cases symbol

theorem IsFloatLiteral.isUnsigned {source : String} {number : Binary64}
    (literal : IsFloatLiteral source number) : number.IsUnsigned := by
  obtain ⟨lexeme, position, stop, read⟩ := literal
  obtain ⟨body, stop', same, all⟩ :=
    @tokenize_tokens (fun kind => ∀ number, kind = .float number → number.IsUnsigned)
      (fun _ recognised number same => (float_of_recognise (same ▸ recognised)).2.2)
      source _ read
  obtain rfl : [⟨.float number, lexeme, position⟩] = body := List.append_inj_left' same rfl
  exact all _ List.mem_cons_self number rfl

/-! ### Texts that are and are not literals with a point -/

/-- The first token of a text that begins with no blank is the one recognised there. -/
theorem recognise_of_tokenize {source : String} {first : Char} {rest : List Char} {token : Token}
    {tokens : List Token} (characters : source.toList = first :: rest)
    (notBlank : isBlank first = false) (read : tokenize source = .ok (token :: tokens)) :
    ∃ length, recognise 0 first rest = .ok (token.kind, length) := by
  unfold tokenize scan at read
  rw [characters] at read
  unfold scanFrom at read
  dsimp only at read
  rw [if_neg (Bool.eq_false_iff.mp notBlank)] at read
  cases recognised : recognise 0 first rest with
  | error failure =>
    rw [recognised] at read
    cases read
  | ok found =>
    rw [recognised] at read
    dsimp only at read
    split at read <;> cases read
    exact ⟨found.2, rfl⟩

/-- Digits alone are no literal with a point. -/
theorem not_isFloatLiteral_digits {source : String} {number : Binary64}
    (nonempty : source.toList ≠ [])
    (digits : ∀ character ∈ source.toList, character.isDigit = true) :
    ¬ IsFloatLiteral source number := by
  rintro ⟨lexeme, position, stop, read⟩
  obtain ⟨first, rest, characters⟩ := List.exists_cons_of_ne_nil nonempty
  rw [characters] at digits
  have notBlank := isBlank_of_isDigit (digits first List.mem_cons_self)
  obtain ⟨length, recognised⟩ := recognise_of_tokenize characters notBlank read
  have whole : numberDigits (first :: rest ++ []) = (first :: rest, []) :=
    numberDigits_whole digits trivial
  rw [List.append_nil] at whole
  exact (float_of_recognise recognised).2.1 (congrArg Prod.snd whole)

/-- Digits with a point between them are a literal with a point. -/
theorem isFloatLiteral_of_isDecimalText {source : String} {whole fraction : List Char}
    (text : IsDecimalText source.toList whole fraction) :
    IsFloatLiteral source (.ofDecimalText false ⟨whole, fraction, 0⟩) := by
  have scans := scans_nil.float (show Ends [] from trivial) text
  rw [List.append_nil] at scans
  obtain ⟨body, stop, read, kinds, -⟩ := scans.tokenize
  obtain ⟨token, rfl, kind⟩ := List.map_eq_singleton_iff.mp kinds
  obtain ⟨_, lexeme, position⟩ := token
  obtain rfl : _ = TokenKind.float _ := kind
  exact ⟨lexeme, position, stop, read⟩

theorem not_isFloatLiteral_infinite (number : Binary64) :
    ¬ IsFloatLiteral (Binary64.literalText (.infinite false)) number := by
  rintro ⟨lexeme, position, stop, read⟩
  have word : tokenize "inf" = .ok [⟨.name "inf", "inf", 0⟩, .endAt 3] := rfl
  cases word.symm.trans read

/-- A number that was read from a literal with a point is written as one that is read as the same
number exactly if it is finite and, should it be whole, below `10 ^ 15`. -/
theorem isFloatLiteral_literalText {source : String} {number : Binary64}
    (literal : IsFloatLiteral source number) :
    IsFloatLiteral number.literalText number ↔
      number.isFinite = true ∧
        (number.isWhole = true → number.less (.ofNat (Nat.pow 10 15)) = true) := by
  rcases literal.isUnsigned with ⟨rank, rfl⟩ | rfl
  · constructor
    · intro again
      refine ⟨rfl, fun whole => (Binary64.isShortWhole_iff_less whole).mp ?_⟩
      refine Decidable.byContradiction fun long => ?_
      obtain ⟨nonempty, digits⟩ := Binary64.literalText_of_long whole long
      exact not_isFloatLiteral_digits nonempty digits again
    · rintro ⟨-, bounded⟩
      obtain ⟨whole, fraction, text, value⟩ := Binary64.literalText_reads_of_short fun whole =>
        (Binary64.isShortWhole_iff_less whole).mpr (bounded whole)
      have read := isFloatLiteral_of_isDecimalText text
      rwa [value] at read
  · exact ⟨fun again => absurd again (not_isFloatLiteral_infinite _),
      fun finite => nomatch finite.1⟩

/-- The number that lies half above `10 ^ 15`. -/
def halfAboveLimit : Binary64 :=
  .ofDecimalText false ⟨"1000000000000000".toList, "50".toList, 0⟩

theorem isFloatLiteral_literalText_halfAboveLimit :
    IsFloatLiteral "1000000000000000.50" halfAboveLimit ∧
      IsFloatLiteral halfAboveLimit.literalText halfAboveLimit := by
  have literal : IsFloatLiteral "1000000000000000.50" halfAboveLimit :=
    ⟨"1000000000000000.50", 0, 19, rfl⟩
  exact ⟨literal, (isFloatLiteral_literalText literal).mpr (by decide +kernel)⟩

/-- A literal for `10 ^ 15` with a point is written without one, and that is an integer. -/
theorem not_isFloatLiteral_literalText_limit :
    IsFloatLiteral "1000000000000000.0" (.ofNat (Nat.pow 10 15)) ∧
      (Binary64.ofNat (Nat.pow 10 15)).literalText = "1000000000000000" ∧
      tokenize "1000000000000000" =
        .ok [⟨.integer 1000000000000000, "1000000000000000", 0⟩, .endAt 16] ∧
      ¬ IsFloatLiteral (Binary64.ofNat (Nat.pow 10 15)).literalText (.ofNat (Nat.pow 10 15)) := by
  have value : Binary64.ofDecimalText false ⟨"1000000000000000".toList, ['0'], 0⟩ =
      .ofNat (Nat.pow 10 15) := by decide +kernel
  have literal : IsFloatLiteral "1000000000000000.0"
      (.ofDecimalText false ⟨"1000000000000000".toList, ['0'], 0⟩) :=
    ⟨"1000000000000000.0", 0, 18, rfl⟩
  have text : (Binary64.ofNat (Nat.pow 10 15)).literalText = "1000000000000000" := by
    decide +kernel
  refine ⟨value ▸ literal, text, rfl, ?_⟩
  rw [text]
  exact not_isFloatLiteral_digits (by decide) (List.all_eq_true.mp rfl)

end Reckon
