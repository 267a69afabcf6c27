/-
This file lets the walk of each rule follow the parser of the rule. The rules
are taken over whatever walks and parsers stand for the parts that nest, and
these follow each other as long as the levels that may still be opened are fewer
than the activations that are left. A loop goes on only over a token, so it has
enough rounds if it has more of them than there are tokens.
-/

import Reckon.Proofs.Grammar.Completeness
import Reckon.Proofs.Grammar.Following

namespace Reckon

open Grammar

namespace Walk

variable {tokens : List Token} {rounds depth : Nat} {trail trail' : Trail}
  {stream later : TokenStream} {kind : TokenKind}

/-! ### Chains of operators -/

section Chains

variable {operator? : TokenKind → Option BinaryOperator} {operand : Walk Expression}
  {parser : Parser Expression}

/-- Each round takes an operator, so there are enough if there are more than tokens left. -/
theorem agrees_chainFrom (follows : Follows tokens depth operand parser)
    (noEnd : operator? .endOfInput = none) {rounds : Nat} :
    ∀ {steps : Nat} {left : Expression} {trail : Trail} {stream : TokenStream},
      Sits tokens depth trail stream → stream.tokens.length ≤ steps →
      stream.tokens.length < rounds →
      Agrees tokens depth stream (chainFrom tokens operator? operand rounds left trail)
        (Parser.chainFrom operator? parser steps left stream) := by
  induction rounds with
  | zero => exact fun _ _ enough => absurd enough (Nat.not_lt_zero _)
  | succ rounds inductionHypothesis =>
    intro steps left trail stream sits bound enough
    cases steps with
    | zero =>
      have ends := TokenStream.next_kind_of_ends (TokenStream.kinds_eq_nil bound)
      unfold chainFrom
      rw [bind_of_ok sits.peek, ends, noEnd]
      exact .reads sits (Nat.le_refl _)
    | succ steps =>
      refine agrees_peek_bind sits ?_
      cases found : operator? stream.next.kind with
      | none => exact .reads sits (Nat.le_refl _)
      | some operator =>
        have notEnd : stream.next.kind ≠ .endOfInput := by
          intro ends
          rw [ends, noEnd] at found
          cases found
        obtain ⟨later, takes⟩ := TokenStream.takes_of_next_kind rfl notEnd
        refine agrees_advance_bind sits takes fun {trail} sits => ?_
        refine (follows trail later sits).bind fun sits length_le => ?_
        have shorter := takes.length_eq
        exact inductionHypothesis sits (by omega) (by omega)

theorem follows_chain (enough : tokens.length ≤ rounds) (noEnd : operator? .endOfInput = none)
    (follows : Follows tokens depth operand parser) :
    Follows tokens depth (chain tokens rounds operator? operand)
      (Parser.chain operator? parser) := by
  refine follows.bind fun left trail stream sits => ?_
  have length := sits.length_eq
  exact agrees_chainFrom follows noEnd sits (Nat.le_refl _) (by omega)

end Chains

/-! ### Type hints after names -/

/-- A type hint that is taken stands there token by token. -/
theorem takes_of_acceptHint {hint : String}
    (read : Parser.Reads Parser.acceptHint stream (some hint) later) :
    ∃ first second third : TokenStream, stream.Takes .less first ∧
      first.Takes (.name hint) second ∧ second.Takes .greater third ∧
      third.Takes .leftParen later := by
  unfold Parser.Reads Parser.acceptHint at read
  split at read
  next shape =>
    cases read
    rcases stream with ⟨tokens, stop⟩
    obtain rfl := shape
    exact ⟨⟨_, stop⟩, ⟨_, stop⟩, ⟨_, stop⟩, ⟨_, _, rfl⟩, ⟨_, _, rfl⟩, ⟨_, _, rfl⟩, ⟨_, _, rfl⟩⟩
  next => cases read

theorem Sits.kindAt?_eq (sits : Sits tokens depth trail stream) (offset : Nat) :
    kindAt? tokens trail.here offset = (stream.kinds ++ [.endOfInput])[offset]? := by
  unfold kindAt? TokenStream.kinds
  rw [sits.getElem?, ← List.getElem?_map, List.map_append]
  rfl

theorem Sits.hintAt_iff (sits : Sits tokens depth trail stream) :
    hintAt tokens trail.here = true ↔ ∃ hint after, Opens stream.kinds (some hint) after := by
  unfold hintAt
  rw [sits.kindAt?_eq, sits.kindAt?_eq, sits.kindAt?_eq, sits.kindAt?_eq]
  generalize stream.kinds = input
  constructor
  · intro hinted
    split at hinted
    next less name greater opening =>
      rcases input with _ | ⟨_, _ | ⟨_, _ | ⟨_, _ | ⟨_, rest⟩⟩⟩⟩ <;>
        cases less <;> cases name <;> cases greater <;> cases opening
      exact ⟨_, _, .hint _ _⟩
    next => cases hinted
  · rintro ⟨hint, after, opens⟩
    cases opens
    rfl

/-! ### Tokens that begin no operand -/

/-- A token that begins no operand is passed and given back. -/
theorem agrees_giveBack (sits : Sits tokens depth trail stream) :
    Agrees tokens depth stream ((advance tokens >>= fun _ => giveBack tokens stream.next) trail)
      (Parser.fail .expressionExpected stream) := by
  unfold giveBack
  by_cases atEnd : stream.next.isEnd = true
  · rw [bind_of_ok (sits.advance_of_end atEnd), if_pos atEnd]
    exact follows_complain .expressionExpected trail stream sits
  · obtain ⟨later, takes⟩ :=
      TokenStream.takes_of_next_kind rfl fun ends => atEnd (beq_iff_eq.mpr ends)
    obtain ⟨trail', passed, sits'⟩ := sits.advance takes
    obtain ⟨trail'', back, sits''⟩ := sits.stepBack takes sits'
    rw [bind_of_ok passed, if_neg atEnd, bind_of_ok back]
    exact follows_complain .expressionExpected trail'' stream sits''

/-! ### Use limits -/

/-- A count in a text has no sign, so that it can be given one. -/
theorem signed_of_nonneg (trail : Trail) (negative : Bool) {number : Int64}
    (nonneg : 0 ≤ number.toInt) :
    ∃ count : Int64, signed negative number trail = .ok (.ok count, trail) ∧
      count.toInt = if negative then -number.toInt else number.toInt := by
  cases negative with
  | false => exact ⟨number, rfl, rfl⟩
  | true =>
    have notLeast : number ≠ Int64.minValue := by
      rintro rfl
      exact absurd nonneg (by decide)
    have less := number.toInt_lt
    refine ⟨-number, ?_, ?_⟩
    · show (if number = Int64.minValue then _ else _ : Walk Int64) trail = _
      rw [if_neg notLeast]
      rfl
    · rw [if_pos rfl, Int64.toInt_neg, Int.bmod_eq_of_le] <;> omega

theorem follows_useLimit : Follows tokens depth (useLimit tokens) Parser.useLimit := by
  refine (follows_accept .asWord).bind fun limited => ?_
  cases limited with
  | false => exact follows_pure _
  | true =>
    refine (follows_accept .minus).bind fun negative trail stream sits => ?_
    refine agrees_peek_bind sits ?_
    have readable := sits.readable_next
    cases kind : stream.next.kind with
    | integer number =>
      rw [kind] at readable
      obtain ⟨later, takes⟩ := TokenStream.takes_of_next_kind kind nofun
      obtain ⟨trail', passed, sits'⟩ := sits.advance takes
      obtain ⟨count, walked, value⟩ := signed_of_nonneg trail' negative readable
      dsimp only
      rw [bind_of_ok passed, bind_of_ok walked, value]
      cases UseLimit.ofCount? (if negative then -number.toInt else number.toInt) with
      | some uses =>
        dsimp only
        rw [Parser.bind_of_reads (Parser.reads_advance takes)]
        exact .reads sits' (Nat.le_of_lt takes.length_lt)
      | none =>
        -- The complaint is about the count, which has been passed.
        have agrees : Agrees tokens depth stream
            (.ok (.error (.ofError ⟨.useCountZero, stream.next.position⟩), trail'))
            (Parser.fail .useCountZero stream : Except SyntaxError (UseLimit × TokenStream)) :=
          .faults sits'.depth_eq sits'.within
        exact agrees
    | _ => exact follows_complain .useCountExpected trail stream sits

/-! ### The rules of the grammar -/

/-- The walks over the parts that nest follow the parsers of these parts. -/
structure FollowsNested (tokens : List Token) (depth : Nat) (walks : Nested)
    (parsers : Parser.Nested) : Prop where
  expression : Follows tokens depth walks.expression parsers.expression
  power : Follows tokens depth walks.power parsers.power
  unary : Follows tokens depth walks.unary parsers.unary

variable {walks : Nested} {parsers : Parser.Nested}
  (follows : FollowsNested tokens depth walks parsers) (enough : tokens.length ≤ rounds)

include follows

theorem follows_afterOut :
    Follows tokens depth (afterOut tokens walks) (Parser.afterOut parsers) := by
  refine (follows_expect .less .castTypeOpenExpected).bind fun _ => ?_
  refine (follows_expectName .castTypeNameExpected).bind fun typeName => ?_
  refine (follows_expect .greater .castTypeCloseExpected).bind fun _ => ?_
  refine (follows_expect .leftParen .castOpenExpected).bind fun _ => ?_
  refine follows.expression.bind fun inner => ?_
  exact (follows_expect .rightParen .castCloseExpected).bind fun _ => follows_pure _

theorem agrees_argumentsFrom {rounds : Nat} :
    ∀ {steps : Nat} {trail : Trail} {stream : TokenStream},
      Sits tokens depth trail stream → stream.tokens.length < steps →
      stream.tokens.length < rounds →
      Agrees tokens depth stream (argumentsFrom tokens walks rounds trail)
        (Parser.argumentsFrom parsers steps stream) := by
  induction rounds with
  | zero => exact fun _ _ enough => absurd enough (Nat.not_lt_zero _)
  | succ rounds inductionHypothesis =>
    intro steps trail stream sits bound enough
    cases steps with
    | zero => exact absurd bound (Nat.not_lt_zero _)
    | succ steps =>
      refine (follows.expression trail stream sits).bind fun sits length_le => ?_
      refine agrees_accept_bind (by decide) sits (fun takes sits => ?_) fun _ sits => ?_
      · have shorter := takes.length_eq
        exact (inductionHypothesis sits (by omega) (by omega)).bind
          fun sits _ => .reads sits (Nat.le_refl _)
      · exact .reads sits (Nat.le_refl _)

include enough

theorem follows_callArguments :
    Follows tokens depth (callArguments tokens rounds walks) (Parser.callArguments parsers) := by
  intro trail stream sits
  by_cases closing : stream.next.kind = .rightParen
  · obtain ⟨later, takes⟩ := TokenStream.takes_of_next_kind closing nofun
    have noArguments : arguments tokens rounds walks trail = .ok (.ok [], trail) := by
      unfold arguments
      rw [bind_of_ok sits.peek, if_pos closing]
      rfl
    obtain ⟨trail', walked, sits⟩ :=
      sits.expect takes "Expect ')' after function arguments."
    unfold callArguments Parser.callArguments
    rw [bind_of_ok noArguments, bind_of_ok walked,
      Parser.bind_of_reads (Parser.accept_of_takes takes)]
    exact .reads sits (Nat.le_of_lt takes.length_lt)
  · have someArguments :
        arguments tokens rounds walks trail = argumentsFrom tokens walks rounds trail := by
      unfold arguments
      rw [bind_of_ok sits.peek, if_neg closing]
    have length := sits.length_eq
    unfold callArguments Parser.callArguments
    rw [bind_congr someArguments, Parser.bind_of_reads (Parser.accept_of_ne closing),
      if_neg Bool.false_ne_true, Parser.bind_of_reads (Parser.reads_tokensLeft stream)]
    have read := agrees_argumentsFrom follows sits (Nat.lt_succ_self stream.tokens.length)
      (show stream.tokens.length < rounds by omega)
    refine read.bind fun {arguments trail later} sits _ => ?_
    exact ((follows_expect .rightParen .callCloseExpected).bind
      fun _ => follows_pure arguments) trail later sits

theorem follows_call (name : String) (hint : Option String) :
    Follows tokens depth
      (do return Expression.call name hint (← callArguments tokens rounds walks))
      (do return Expression.call name hint (← Parser.callArguments parsers)) :=
  (follows_callArguments follows enough).bind fun _ => follows_pure _

theorem follows_afterName (name : String) :
    Follows tokens depth (afterName tokens rounds walks name)
      (Parser.afterName parsers name) := by
  intro trail stream sits
  refine agrees_accept_bind (by decide) sits
    (fun _ sits => follows_call follows enough name none _ _ sits) fun {trail} _ sits => ?_
  have cursor : here trail = .ok (.ok trail.here, trail) := rfl
  obtain ⟨hint, later, read⟩ := reads_acceptHint stream
  rw [if_neg Bool.false_ne_true, if_neg Bool.false_ne_true, bind_of_ok cursor,
    Parser.bind_of_reads read]
  rcases acceptHint_sound read with ⟨type, rfl, opens⟩ | ⟨rfl, rfl, noHint⟩
  · -- The walk has looked ahead, so none of the four tokens can be missing.
    obtain ⟨first, second, third, less, named, greater, opening⟩ := takes_of_acceptHint read
    obtain ⟨_, lessWalked, sits'⟩ := sits.advance less
    obtain ⟨_, namedWalked, sits'⟩ := sits'.expectName named "Expect type name after '<'."
    obtain ⟨_, greaterWalked, sits'⟩ := sits'.expect greater "Expect '>' after generic type."
    obtain ⟨_, openingWalked, sits'⟩ := sits'.expect opening "Expect '(' after generic type."
    have lengths := Nat.lt_trans (Nat.lt_trans (Nat.lt_trans opening.length_lt greater.length_lt)
      named.length_lt) less.length_lt
    rw [if_pos (sits.hintAt_iff.mpr ⟨_, _, opens⟩), bind_of_ok lessWalked,
      bind_of_ok namedWalked, bind_of_ok greaterWalked, bind_of_ok openingWalked]
    have called := follows_call follows enough name (some type) _ later sits'
    exact called.mono (Nat.le_of_lt lengths)
  · have noHintAt : ¬ hintAt tokens trail.here = true := by
      intro hinted
      obtain ⟨hint, after, opens⟩ := sits.hintAt_iff.mp hinted
      exact noHint hint after opens
    rw [if_neg noHintAt]
    exact .reads sits (Nat.le_refl _)

theorem follows_primary :
    Follows tokens depth (primary tokens rounds walks) (Parser.primary parsers) := by
  intro trail stream sits
  refine agrees_peek_bind sits ?_
  have given := agrees_giveBack sits
  generalize stream.next.kind = kind at given ⊢
  cases kind with
  | integer | float | text | boolean | null =>
    exact (follows_advance.bind fun _ => follows_pure _) trail stream sits
  | leftParen =>
    exact (follows_advance.bind fun _ => follows.expression.bind fun inner =>
      (follows_expect .rightParen .groupCloseExpected).bind fun _ => follows_pure _)
        trail stream sits
  | outWord =>
    exact (follows_advance.bind fun _ => follows_afterOut follows) trail stream sits
  | name name =>
    exact (follows_advance.bind fun _ => follows_afterName follows enough name) trail stream sits
  | _ => exact given

theorem follows_unary :
    Follows tokens depth (unary tokens rounds walks) (Parser.unary parsers) := by
  refine follows_peek_bind fun token => ?_
  cases token.kind with
  | minus => exact follows_advance.bind fun _ => follows.unary.bind fun _ => follows_pure _
  | not => exact follows_advance.bind fun _ => follows.unary.bind fun _ => follows_pure _
  | _ => exact follows_primary follows enough

theorem follows_power :
    Follows tokens depth (power tokens rounds walks) (Parser.power parsers) := by
  refine (follows_unary follows enough).bind fun base => ?_
  refine (follows_accept .caret).bind fun raised => ?_
  cases raised with
  | true => exact follows.power.bind fun _ => follows_pure _
  | false => exact follows_pure _

theorem follows_disjunction :
    Follows tokens depth (disjunction tokens rounds walks) (Parser.disjunction parsers) :=
  follows_chain enough rfl <| follows_chain enough rfl <| follows_chain enough rfl <|
    follows_chain enough rfl <| follows_chain enough rfl <| follows_chain enough rfl <|
      follows_power follows enough

theorem follows_afterLet :
    Follows tokens depth (afterLet tokens rounds walks) (Parser.afterLet parsers) := by
  refine (follows_expectName .variableNameExpected).bind fun name => ?_
  refine (follows_expect .assign .assignExpected).bind fun _ => ?_
  refine (follows_disjunction follows enough).bind fun value => ?_
  refine follows_useLimit.bind fun uses => ?_
  refine (follows_expect .semicolon .semicolonExpected).bind fun _ => ?_
  exact follows.expression.bind fun body => follows_pure _

theorem follows_branch :
    Follows tokens depth (branch tokens rounds walks) (Parser.branch parsers) := by
  refine (follows_disjunction follows enough).bind fun condition => ?_
  refine (follows_expect .colon .branchColonExpected).bind fun _ => ?_
  exact follows.expression.bind fun result => follows_pure _

theorem agrees_branchesFrom {more : Nat} :
    ∀ {steps : Nat} {trail : Trail} {stream : TokenStream},
      Sits tokens depth trail stream → stream.tokens.length ≤ steps →
      stream.tokens.length < more →
      Agrees tokens depth stream (branchesFrom tokens rounds walks more trail)
        (Parser.branchesFrom parsers steps stream) := by
  induction more with
  | zero => exact fun _ _ enough => absurd enough (Nat.not_lt_zero _)
  | succ more inductionHypothesis =>
    intro steps trail stream sits bound enoughRounds
    cases steps with
    | zero =>
      have ends := TokenStream.next_kind_of_ends (TokenStream.kinds_eq_nil bound)
      have noElif : stream.next.kind ≠ .elifWord := ends ▸ nofun
      obtain ⟨trail', walked, sits⟩ :=
        (follows_accept .elifWord).walks sits (Parser.accept_of_ne noElif)
      unfold branchesFrom
      rw [bind_of_ok walked]
      exact .reads sits (Nat.le_refl _)
    | succ steps =>
      refine agrees_accept_bind (by decide) sits (fun {trail later} takes sits => ?_)
        fun _ sits => .reads sits (Nat.le_refl _)
      refine (follows_branch follows enough trail later sits).bind fun sits length_le => ?_
      have shorter := takes.length_eq
      exact (inductionHypothesis sits (by omega) (by omega)).bind
        fun sits _ => .reads sits (Nat.le_refl _)

theorem follows_afterIf :
    Follows tokens depth (afterIf tokens rounds walks) (Parser.afterIf parsers) := by
  refine (follows_branch follows enough).bind fun first trail stream sits => ?_
  have length := sits.length_eq
  rw [Parser.bind_of_reads (Parser.reads_tokensLeft stream)]
  have read := agrees_branchesFrom follows enough sits (Nat.le_refl stream.tokens.length)
    (show stream.tokens.length < rounds by omega)
  refine read.bind fun {further trail later} sits _ => ?_
  refine ((follows_expect .elseWord .elseExpected).bind fun _ => ?_) trail later sits
  refine (follows_expect .colon .elseColonExpected).bind fun _ => ?_
  exact follows.expression.bind fun otherwise => follows_pure _

theorem follows_ternary :
    Follows tokens depth (ternary tokens rounds walks) (Parser.ternary parsers) := by
  refine (follows_disjunction follows enough).bind fun condition => ?_
  refine (follows_accept .question).bind fun chosen => ?_
  cases chosen with
  | true =>
    refine follows.expression.bind fun whenTrue => ?_
    refine (follows_expect .colon .ternaryColonExpected).bind fun _ => ?_
    exact follows.expression.bind fun whenFalse => follows_pure _
  | false => exact follows_pure _

theorem follows_expression :
    Follows tokens depth (expression tokens rounds walks) (Parser.expression parsers) := by
  refine follows_peek_bind fun token => ?_
  cases token.kind with
  | letWord => exact follows_advance.bind fun _ => follows_afterLet follows enough
  | ifWord => exact follows_advance.bind fun _ => follows_afterIf follows enough
  | _ => exact follows_ternary follows enough

omit follows in
/-- With more activations than parts may still nest, there is always one left. -/
theorem follows_nestedWithin {budget activations : Nat} (more : budget < activations) :
    ∀ {depth : Nat}, depth + budget = nestingLimit →
      FollowsNested tokens depth (nestedWithin tokens rounds activations)
        (Parser.nestedWithin budget) := by
  induction budget generalizing activations with
  | zero =>
    rintro depth rfl
    obtain ⟨left, rfl⟩ := Nat.exists_eq_succ_of_ne_zero (Nat.ne_of_gt more)
    exact ⟨follows_deeper_tooDeep, follows_deeper_tooDeep, follows_deeper_tooDeep⟩
  | succ budget inductionHypothesis =>
    intro depth levels
    obtain ⟨left, rfl⟩ := Nat.exists_eq_succ_of_ne_zero (Nat.ne_zero_of_lt more)
    have below : depth < nestingLimit := by omega
    have parts := inductionHypothesis (Nat.lt_of_succ_lt_succ more)
      (show depth + 1 + budget = nestingLimit by omega)
    exact ⟨follows_deeper (follows_expression parts enough) below,
      follows_deeper (follows_power parts enough) below,
      follows_deeper (follows_unary parts enough) below⟩

omit follows in
theorem follows_complete {activations : Nat} (more : nestingLimit < activations) :
    Follows tokens 0 (complete tokens rounds activations) Parser.complete := by
  have whole := (follows_nestedWithin enough more (Nat.zero_add nestingLimit)).expression
  refine whole.bind fun result => follows_peek_bind fun token => ?_
  by_cases atEnd : token.isEnd = true
  · rw [if_pos atEnd, if_pos atEnd]
    exact follows_pure result
  · rw [if_neg atEnd, if_neg atEnd]
    exact follows_complain (.tokenAfterEnd token.shown)

end Walk

end Reckon
