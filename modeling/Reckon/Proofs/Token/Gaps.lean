/-
This file compares texts that differ in their gaps: they have the same
characters in the same order, but where one has blanks the other may have other
blanks, more of them or fewer. Nothing is asked of what stands between the gaps;
it need not be made of tokens. Only a gap must not begin or end within quotes,
so a quoted text is taken as a whole.

Such texts are read as the same tokens, or neither can be read. The part of a
text that a token can reach is the same in both, since no token goes on with a
blank or with a quote.
-/

import Reckon.Proofs.Grammar.Completeness
import Reckon.Proofs.Token.Respacing

namespace Reckon

/-- Whether a character may begin a quoted text. -/
def IsQuote (character : Char) : Prop :=
  character = '"' ∨ character = '\''

instance (character : Char) : Decidable (IsQuote character) :=
  inferInstanceAs (Decidable (_ ∨ _))

/-- Characters differ in their gaps only. -/
inductive DifferInGaps : List Char → List Char → Prop where
  | nil : DifferInGaps [] []
  | character {first : Char} {rest rest' : List Char} : ¬IsQuote first → DifferInGaps rest rest' →
      DifferInGaps (first :: rest) (first :: rest')
  | text (content : String) {rest rest' : List Char} : DifferInGaps rest rest' →
      DifferInGaps ((quoted content).toList ++ rest) ((quoted content).toList ++ rest')
  | gap {space space' rest rest' : List Char} : space ≠ [] → space' ≠ [] →
      (∀ character ∈ space, isBlank character = true) →
      (∀ character ∈ space', isBlank character = true) → DifferInGaps rest rest' →
      DifferInGaps (space ++ rest) (space' ++ rest')

variable {first : Char} {rest tail tail' characters characters' : List Char} {kind : TokenKind}

/-! ### Tokens before characters that end them -/

/-- A symbol takes no character of what follows a text and ends every token. -/
theorem symbol?_of_followed (apart : StandsApart tail) {token : TokenKind × Nat}
    (read : symbol? first (rest ++ tail) = some token) : symbol? first rest = some token := by
  unfold symbol? at read
  split at read <;> cases read
  case h_14.refl other | h_16.refl other | h_18.refl other | h_20.refl other =>
    rw [symbol?]
    exact fun more same => other (more ++ tail) (congrArg (· ++ tail) same)
  case h_13.refl same | h_15.refl same | h_17.refl same | h_19.refl same | h_21.refl same
    | h_22.refl same =>
    cases rest with
    | nil =>
      rw [List.nil_append] at same
      rw [same] at apart
      cases apart
    | cons second rest =>
      obtain ⟨rfl, -⟩ := List.cons.inj same
      rfl
  all_goals rfl

/-- What is recognised at a character other than a quote does not depend on what follows and ends
every token, nor is an error there one for what follows. -/
theorem recognise_of_followed (apart : StandsApart tail) (notQuote : ¬IsQuote first)
    {place length : Nat} (read : recognise place first (rest ++ tail) = .ok (kind, length)) :
    recognise place first rest = .ok (kind, length) := by
  have notQuote : ¬(first = '"' ∨ first = '\'') := notQuote
  unfold recognise at read ⊢
  rw [if_neg notQuote] at read ⊢
  by_cases digit : first.isDigit = true
  · rw [if_pos digit] at read ⊢
    rw [← List.cons_append, numberDigits_followed apart] at read
    exact read
  · rw [if_neg digit] at read ⊢
    by_cases start : isNameStart first = true
    · rw [if_pos start] at read ⊢
      have within := (nameLength_take rest).2
      dsimp only at read ⊢
      rw [nameLength_followed apart, List.take_append_of_le_length within] at read
      exact read
    · rw [if_neg start] at read ⊢
      cases symbol : symbol? first (rest ++ tail) with
      | none =>
        rw [symbol] at read
        cases read
      | some token =>
        rw [symbol] at read
        rw [symbol?_of_followed apart symbol]
        exact read

/-! ### Characters up to the next gap -/

namespace DifferInGaps

/-- The same characters without a quote may stand before texts that differ in their gaps. -/
theorem after {run : List Char} (differ : DifferInGaps tail tail')
    (noQuote : ∀ character ∈ run, ¬IsQuote character) :
    DifferInGaps (run ++ tail) (run ++ tail') := by
  induction run with
  | nil => exact differ
  | cons first run inductionHypothesis =>
    obtain ⟨here, later⟩ := List.forall_mem_cons.mp noQuote
    exact .character here (inductionHypothesis later)

theorem standsApart_gap {space : List Char} (nonempty : space ≠ [])
    (blank : ∀ character ∈ space, isBlank character = true) (rest : List Char) :
    StandsApart (space ++ rest) := by
  obtain ⟨first, others, rfl⟩ := List.exists_cons_of_ne_nil nonempty
  exact endsToken_of_isBlank (blank first List.mem_cons_self)

/-- Texts that differ in their gaps begin with the same characters, up to one that ends every
token. -/
theorem run (differ : DifferInGaps characters characters') :
    ∃ run tail tail', characters = run ++ tail ∧ characters' = run ++ tail' ∧
      (∀ character ∈ run, ¬IsQuote character) ∧ StandsApart tail ∧ StandsApart tail' ∧
      DifferInGaps tail tail' := by
  have none : ∀ {tail tail'}, StandsApart tail → StandsApart tail' → DifferInGaps tail tail' →
      ∃ run left left', tail = run ++ left ∧ tail' = run ++ left' ∧
        (∀ character ∈ run, ¬IsQuote character) ∧ StandsApart left ∧ StandsApart left' ∧
        DifferInGaps left left' :=
    fun apart apart' differ => ⟨[], _, _, rfl, rfl, nofun, apart, apart', differ⟩
  induction differ with
  | nil => exact none trivial trivial .nil
  | @character first rest rest' notQuote differ inductionHypothesis =>
    obtain ⟨run, tail, tail', rfl, rfl, noQuote, others⟩ := inductionHypothesis
    exact ⟨first :: run, tail, tail', rfl, rfl, List.forall_mem_cons.mpr ⟨notQuote, noQuote⟩,
      others⟩
  | text content differ =>
    refine none ?_ ?_ (.text content differ)
    all_goals
      unfold quoted
      rw [String.toList_ofList]
      exact (by decide : endsToken '"' = true)
  | gap nonempty nonempty' blank blank' differ =>
    exact none (standsApart_gap nonempty blank _) (standsApart_gap nonempty' blank' _)
      (.gap nonempty nonempty' blank blank' differ)

end DifferInGaps

/-! ### The same tokens -/

/-- Two readings of texts agree: both come to the end or both fail, and the tokens up to there are
of the same kinds and lexemes. -/
def Scan.Agrees (scan scan' : Scan) : Prop :=
  (scan.failure = none ↔ scan'.failure = none) ∧
    scan.tokens.map Token.unplaced = scan'.tokens.map Token.unplaced

theorem scanFrom_blanks {blanks : List Char} (place : Nat)
    (all : ∀ character ∈ blanks, isBlank character = true) :
    scanFrom place 0 (blanks ++ tail) = scanFrom (place + blanks.length) 0 tail := by
  induction blanks generalizing place with
  | nil => rfl
  | cons first rest inductionHypothesis =>
    obtain ⟨blank, blanks⟩ := List.forall_mem_cons.mp all
    rw [List.cons_append, scanFrom_blank place blank, inductionHypothesis _ blanks,
      List.length_cons, Nat.add_assoc, Nat.add_comm 1]

/-- The same token before readings that agree. -/
theorem agrees_token {place place' : Nat} (notBlank : isBlank first = false)
    (recognised : recognise place first (rest ++ tail) = .ok (kind, rest.length))
    (recognised' : recognise place' first (rest ++ tail') = .ok (kind, rest.length))
    (agrees : (scanFrom (place + 1 + rest.length) 0 tail).Agrees
      (scanFrom (place' + 1 + rest.length) 0 tail')) :
    (scanFrom place 0 (first :: rest ++ tail)).Agrees
      (scanFrom place' 0 (first :: rest ++ tail')) := by
  rw [scanFrom_token notBlank recognised, scanFrom_token notBlank recognised']
  exact ⟨agrees.1, congrArg ((kind, String.ofList (first :: rest)) :: ·) agrees.2⟩

theorem scanFrom_of_error {place : Nat} {failure : LexicalError} (notBlank : isBlank first = false)
    (failed : recognise place first rest = .error failure) :
    scanFrom place 0 (first :: rest) = ⟨[], some failure⟩ := by
  rw [scanFrom, if_neg (Bool.eq_false_iff.mp notBlank), failed]

/-- Texts that differ in their gaps are read as the same tokens, or neither can be read to its
end. -/
theorem DifferInGaps.agrees_scanFrom (differ : DifferInGaps characters characters')
    (place place' : Nat) :
    (scanFrom place 0 characters).Agrees (scanFrom place' 0 characters') := by
  generalize size : characters.length = length
  induction length using Nat.strongRecOn generalizing characters characters' place place' with
  | ind length inductionHypothesis =>
    subst size
    cases differ with
    | nil => exact ⟨Iff.rfl, rfl⟩
    | gap nonempty nonempty' blank blank' differ =>
      rw [scanFrom_blanks place blank, scanFrom_blanks place' blank']
      refine inductionHypothesis _ ?_ differ _ _ rfl
      have filled := List.length_pos_iff.mpr nonempty
      rw [List.length_append]
      omega
    | @text content rest rest' differ =>
      unfold quoted at inductionHypothesis ⊢
      rw [String.toList_ofList] at inductionHypothesis ⊢
      refine agrees_token (by decide) (recognise_quoted place content rest)
        (recognise_quoted place' content rest') (inductionHypothesis _ ?_ differ _ _ rfl)
      rw [List.length_append, List.length_cons]
      omega
    | @character first rest rest' notQuote differ =>
      by_cases blank : isBlank first = true
      · rw [scanFrom_blank place blank, scanFrom_blank place' blank]
        exact inductionHypothesis _ (Nat.lt_succ_self _) differ _ _ rfl
      · have notBlank := Bool.eq_false_iff.mpr blank
        obtain ⟨run, tail, tail', rfl, rfl, noQuote, apart, apart', after⟩ := differ.run
        cases recognised : recognise place first (run ++ tail) with
        | ok token =>
          obtain ⟨kind, length⟩ := token
          have inRun := recognise_of_followed apart notQuote recognised
          -- The token lies within the run, and the rest of the run stays before the tails.
          have within := length_recognise inRun
          obtain ⟨taken, left, rfl, rfl⟩ : ∃ taken left, run = taken ++ left ∧
              length = taken.length :=
            ⟨List.take length run, List.drop length run, (List.take_append_drop length run).symm,
              by rw [List.length_take, Nat.min_eq_left within]⟩
          have recognised' := recognise_followed apart' inRun place'
          have notInLeft : ∀ character ∈ left, ¬IsQuote character :=
            fun character member => noQuote character (List.mem_append_right taken member)
          rw [List.append_assoc] at recognised recognised' ⊢
          rw [List.append_assoc taken left tail']
          refine agrees_token notBlank recognised recognised'
            (inductionHypothesis _ ?_ (after.after notInLeft) _ _ rfl)
          rw [List.length_cons, List.append_assoc, @List.length_append _ taken]
          omega
        | error failure =>
          cases recognised' : recognise place' first (run ++ tail') with
          | ok token =>
            have inRun := recognise_of_followed apart' notQuote recognised'
            rw [recognise_followed apart inRun place] at recognised
            cases recognised
          | error failure' =>
            rw [scanFrom_of_error notBlank recognised, scanFrom_of_error notBlank recognised']
            exact ⟨⟨nofun, nofun⟩, rfl⟩

/-! ### Whole texts -/

variable {source source' : String}

/-- Texts that differ in their gaps have the same tokens, or neither has. -/
theorem DifferInGaps.tokenize (differ : DifferInGaps source.toList source'.toList) :
    (tokenize source).toOption.map (List.map Token.unplaced) =
      (tokenize source').toOption.map (List.map Token.unplaced) := by
  obtain ⟨ends, same⟩ : (scan source).Agrees (scan source') := differ.agrees_scanFrom 0 0
  unfold Reckon.tokenize
  dsimp only
  cases failure : (scan source).failure with
  | none =>
    rw [ends.mp failure]
    exact congrArg some same
  | some cause =>
    cases failure' : (scan source').failure with
    | none =>
      rw [ends.mpr failure'] at failure
      cases failure
    | some cause' => rfl

theorem toOption_eq_some_iff {α β : Type} {answer : Except α β} {value : β} :
    answer.toOption = some value ↔ answer = .ok value := by
  cases answer with
  | error failure => exact ⟨nofun, nofun⟩
  | ok value' => exact ⟨fun same => congrArg Except.ok (Option.some.inj same),
      fun same => congrArg some (Except.ok.inj same)⟩

/-- What tokens are read as depends on their kinds only. -/
theorem Grammar.toOption_ofTokens {body body' : List Token} {stop stop' : Nat}
    (noEnd : ∀ token ∈ body, token.kind ≠ .endOfInput)
    (noEnd' : ∀ token ∈ body', token.kind ≠ .endOfInput)
    (same : body.map Token.kind = body'.map Token.kind) :
    (Expression.ofTokens (body ++ [.endAt stop])).toOption =
      (Expression.ofTokens (body' ++ [.endAt stop'])).toOption := by
  ext tree
  rw [toOption_eq_some_iff, toOption_eq_some_iff, Grammar.ofTokens_eq_ok_iff noEnd,
    Grammar.ofTokens_eq_ok_iff noEnd', same]

/-- Texts that differ in their gaps are the same expression, or neither is one. -/
theorem DifferInGaps.parse (differ : DifferInGaps source.toList source'.toList) :
    (Expression.parse source).toOption = (Expression.parse source').toOption := by
  have tokens := differ.tokenize
  unfold Expression.parse
  cases read : Reckon.tokenize source with
  | error failure =>
    rw [read] at tokens
    cases read' : Reckon.tokenize source' with
    | error failure' => rfl
    | ok others =>
      rw [read'] at tokens
      cases tokens
  | ok body =>
    rw [read] at tokens
    cases read' : Reckon.tokenize source' with
    | error failure' =>
      rw [read'] at tokens
      cases tokens
    | ok body' =>
      rw [read'] at tokens
      obtain ⟨body, stop, rfl, noEnd⟩ := tokenize_tokens (fun _ => recognise_ne_endOfInput) read
      obtain ⟨body', stop', rfl, noEnd'⟩ :=
        tokenize_tokens (fun _ => recognise_ne_endOfInput) read'
      have same := congrArg (List.map Prod.fst) (Option.some.inj tokens)
      rw [List.map_map, List.map_map, List.map_append, List.map_append] at same
      exact Grammar.toOption_ofTokens noEnd noEnd' (List.append_inj_left' same rfl)

end Reckon
