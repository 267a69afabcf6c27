/-
This file tracks the rules of the grammar: the parser of each reads what the
recognizer takes, up to where the rule ends, and finds its faults where the
recognizer sticks.
-/

import Reckon.Proofs.Grammar.Tracking

namespace Reckon

open Reckon.Parser

namespace Grammar

open Recognizer

variable {budget : Nat} {state : Recognizer} {stream later : TokenStream} {kind : TokenKind}
  {stack : List Frame}

/-! ### Chains of operators -/

theorem ne_name_of_strength (binds : 2 ≤ strength kind) (name : String) : kind ≠ .name name := by
  rintro rfl
  cases binds

/-- A token that binds no more tightly than a rule, and is no operator of it, binds less. -/
theorem Rule.strength_lt {rule : Rule} (loose : Grammar.strength kind < rule.strength + 1)
    (none : rule.operator? kind = none) : Grammar.strength kind < rule.strength := by
  refine Nat.lt_of_le_of_ne (Nat.le_of_lt_succ loose) fun same => ?_
  cases rule <;> cases kind <;> first | (cases none; done) | cases same

variable {nested : Nested}

theorem tracks_chainFrom {rule : Rule}
    (operand : TracksOperand budget (rule.strength + 1) (rule.operandParser nested)) :
    ∀ {steps : Nat} {left : Expression} {state : Recognizer} {stream : TokenStream},
      stream.tokens.length ≤ steps → Stands (rule.strength + 1) stack state stream →
      Tracks budget (chainFrom rule.operator? (rule.operandParser nested) steps left) state stream
        fun _ => Stands rule.strength stack := by
  intro steps
  induction steps with
  | zero =>
    intro left state stream enough stands
    obtain ⟨lookback, same, clear, -⟩ := stands
    refine tracks_pure ⟨lookback, same, clear, ?_⟩
    rw [TokenStream.kinds_eq_nil enough]
    trivial
  | succ steps inductionHypothesis =>
    intro left state stream enough stands
    unfold chainFrom
    have next : Reads next stream stream.next stream := rfl
    refine Tracks.after ?_ next (.refl state stream) (Nat.le_refl _)
    cases joined : rule.operator? stream.next.kind with
    | none =>
      have loose := Rule.strength_lt stands.strength_lt joined
      obtain ⟨lookback, same, clear, -⟩ := stands
      exact tracks_pure ⟨lookback, same, clear, loose_of_next loose⟩
    | some operator =>
      have joins := Rule.operator?_eq_some.mp joined
      obtain ⟨after, takes⟩ := TokenStream.takes_of_next_kind rfl joins.ne_endOfInput
      obtain ⟨lookback, rfl, clear, -⟩ := stands
      have binds := joins.two_le_strength
      have clear := clear.take takes (ne_name_of_strength binds)
      refine Tracks.take ?_ (Nat.le_succ budget) (reads_advance takes) takes
        (step_after_operator binds)
      refine (operand stack _ after clear).bind fun moves stands => ?_
      refine inductionHypothesis ?_ stands
      have shorter := moves.length_le
      have length := takes.length_eq
      omega

theorem tracks_chain (rule : Rule)
    (operand : TracksOperand budget (rule.strength + 1) (rule.operandParser nested)) :
    TracksOperand budget rule.strength (chain rule.operator? (rule.operandParser nested)) := by
  intro stack lookback stream clear
  refine (operand stack lookback stream clear).bind fun {_ state later} _ stands => ?_
  have left : Reads tokensLeft later later.tokens.length later := rfl
  refine Tracks.after ?_ left (.refl state later) (Nat.le_refl _)
  exact tracks_chainFrom operand (Nat.le_refl _) stands

/-! ### The rules -/

/-- The parsers of the nesting parts take what the recognizer does. -/
structure TracksWithin (budget : Nat) (nested : Nested) : Prop where
  expression : TracksExpression budget nested.expression
  power : TracksOperand budget 8 nested.power
  unary : TracksOperand budget 9 nested.unary

variable (within : TracksWithin budget nested)

include within

theorem tracks_argumentsFrom (stack : List Frame) :
    ∀ {steps : Nat} {lookback : Lookback} {stream : TokenStream}, stream.tokens.length < steps →
      Clear lookback stream →
      Tracks budget (argumentsFrom nested steps) ⟨.expression, lookback, .call :: stack⟩ stream
        fun _ state later => Stands 1 (.call :: stack) state later ∧ later.next.kind ≠ .comma := by
  intro steps
  induction steps with
  | zero => exact fun enough => absurd enough (Nat.not_lt_zero _)
  | succ steps inductionHypothesis =>
    intro lookback stream enough clear
    refine (within.expression _ lookback stream rfl clear).bind fun {_ _ between} moves stands =>
      tracks_accept_bind (by decide) (Nat.le_succ budget) (fun {later} takes => ?_) fun absent => ?_
    · obtain ⟨lookback, rfl, clear, -⟩ := stands
      refine ⟨_, rfl, ?_⟩
      have shorter := moves.length_le
      have length := takes.length_eq
      refine (inductionHypothesis (by omega) (clear.take takes nofun)).bind fun _ stands => ?_
      exact tracks_pure stands
    · exact tracks_pure ⟨stands, absent⟩

theorem tracks_callArguments {lookback : Lookback} (clear : Clear lookback stream) :
    Tracks budget (callArguments nested) ⟨.arguments, lookback, .call :: stack⟩ stream
      fun _ => Stands 9 stack := by
  refine tracks_accept_bind (by decide) (Nat.le_succ budget) (fun {later} takes => ?_)
    fun notClosing => ?_
  · exact ⟨_, rfl, tracks_pure ⟨_, rfl, clear.take takes nofun, loose_of_next (strength_lt_nine _)⟩⟩
  · have left : Reads tokensLeft stream stream.tokens.length stream := rfl
    refine Tracks.after ?_ left (.refl _ stream) (Nat.le_refl _)
    have arguments := (tracks_argumentsFrom within stack (Nat.lt_succ_self _) clear).of_sameStep
      (step_arguments notClosing) fun _ ⟨⟨_, same, _⟩, _⟩ => nomatch same
    refine arguments.bind fun _ ⟨stands, notComma⟩ => ?_
    refine tracks_expect_bind (by decide) (Nat.le_succ budget) (fun {later} takes => ?_)
      fun notClosing => stands.step_eq_none (close_eq_none
        (List.forall_mem_cons.mpr ⟨notClosing, List.forall_mem_singleton.mpr notComma⟩))
    obtain ⟨lookback, rfl, clear, -⟩ := stands
    refine ⟨_, rfl, tracks_pure ?_⟩
    exact ⟨_, rfl, clear.take takes nofun, loose_of_next (strength_lt_nine _)⟩

omit within in
/-- A type hint takes four tokens, the opening parenthesis the last of them. -/
theorem moves_acceptHint {lookback : Lookback} {hint : String} (named : lookback.isName = true)
    (read : Reads acceptHint stream (some hint) later) :
    Moves ⟨.after, lookback, stack⟩ stream ⟨.arguments, .none, .call :: stack⟩ later ∧
      later.tokens.length < stream.tokens.length := by
  unfold Reads acceptHint at read
  split at read
  next shape =>
    cases read
    refine ⟨⟨[⟨.less, _, _⟩, ⟨.name hint, _, _⟩, ⟨.greater, _, _⟩, ⟨.leftParen, _, _⟩], shape, rfl,
      ?_⟩, ?_⟩
    · cases lookback <;> cases named <;> rfl
    · rw [shape]
      simp only [List.length_cons]
      omega
  next => cases read

/-- What follows a name is tracked, if nothing was clear of calls before but the name itself. -/
theorem tracks_afterName {name : String} {lookback : Lookback} (named : lookback.isName = true)
    (clear : opensArguments stream.kinds = false → Clear lookback stream) :
    Tracks (budget + 1) (afterName nested name) ⟨.after, lookback, stack⟩ stream
      fun _ => Stands 9 stack := by
  refine tracks_accept_bind (by decide) (Nat.le_refl _) (fun {later} takes => ?_)
    fun noParenthesis => ?_
  · refine ⟨_, step_after_leftParen named, ?_⟩
    exact (tracks_callArguments within (clear_next rfl)).bind
      fun _ stands => tracks_pure stands
  · obtain ⟨hint, later, read⟩ := reads_acceptHint stream
    rcases acceptHint_sound read with ⟨type, rfl, -⟩ | ⟨rfl, rfl, noHint⟩
    · obtain ⟨moves, shorter⟩ := moves_acceptHint named read
      refine Tracks.after ?_ read moves (show budget + 1 + _ ≤ budget + _ by omega)
      have clear : Clear .none later := rfl
      exact (tracks_callArguments within clear).bind fun _ stands => tracks_pure stands
    · refine Tracks.after ?_ read (.refl _ _) (Nat.le_refl _)
      have noCall := opensArguments_eq_false (not_opens noParenthesis noHint)
      exact tracks_pure ⟨lookback, rfl, clear noCall, loose_of_next (strength_lt_nine _)⟩

/-- What closes with a parenthesis is tracked from its first token on. -/
theorem tracks_group {lookback : Lookback} {problem : SyntaxProblem}
    {build : Expression → Expression} (clear : Clear lookback stream) :
    Tracks budget (do
      let inner ← nested.expression
      expect .rightParen problem
      return build inner) ⟨.expression, lookback, .group :: stack⟩ stream
      fun _ => Stands 9 stack := by
  refine (within.expression _ lookback stream rfl clear).bind fun _ stands => ?_
  refine tracks_expect_bind (by decide) (Nat.le_succ budget) (fun {later} takes => ?_)
    fun notClosing => stands.step_eq_none (close_eq_none (List.forall_mem_singleton.mpr notClosing))
  obtain ⟨lookback, rfl, clear, -⟩ := stands
  refine ⟨_, rfl, tracks_pure ?_⟩
  exact ⟨_, rfl, clear.take takes nofun, loose_of_next (strength_lt_nine _)⟩

theorem tracks_afterOut {lookback : Lookback} :
    Tracks (budget + 1) (afterOut nested) ⟨.castLess, lookback, stack⟩ stream
      fun _ => Stands 9 stack := by
  refine tracks_expect_bind (by decide) (Nat.le_succ _) (fun _ => ⟨_, rfl, ?_⟩)
    Awaits.castLess.step_eq_none
  refine tracks_expectName_bind (Nat.le_succ _) (fun _ => ⟨_, rfl, ?_⟩)
    (step_eq_none_of_ne_name (.inr rfl))
  refine tracks_expect_bind (by decide) (Nat.le_succ _) (fun _ => ⟨_, rfl, ?_⟩)
    Awaits.castGreater.step_eq_none
  refine tracks_expect_bind (by decide) (Nat.le_refl _) (fun {later} _ => ⟨_, rfl, ?_⟩)
    Awaits.castOpen.step_eq_none
  exact tracks_group within (clear_next rfl)

omit within in
/-- A parenthesis that does not end a type hint begins a group. -/
theorem step_operand_leftParen {lookback : Lookback} (clear : Clear lookback stream)
    (takes : stream.Takes .leftParen later) :
    step ⟨.operand, lookback, stack⟩ .leftParen =
      some ⟨.expression, lookback.next .leftParen, .group :: stack⟩ := by
  unfold Clear at clear
  rw [takes.kinds_eq] at clear
  cases lookback with
  | greater => cases clear
  | _ => rfl

theorem tracks_primary {lookback : Lookback} (clear : Clear lookback stream)
    (noMinus : stream.next.kind ≠ .minus) (noNot : stream.next.kind ≠ .not) :
    Tracks (budget + 1) (Parser.primary nested) ⟨.operand, lookback, stack⟩ stream
      fun _ => Stands 9 stack := by
  have next : Reads next stream stream.next stream := rfl
  unfold Parser.primary
  refine Tracks.after ?_ next (.refl _ stream) (Nat.le_refl _)
  rcases stream.ends_or_takes with atEnd | ⟨kind, after, takes⟩
  · rw [TokenStream.next_kind_of_ends atEnd]
    refine tracks_fail ?_
    rw [TokenStream.next_kind_of_ends atEnd]
    rfl
  · have literal : ∀ {tree : Expression} {kind : TokenKind}, stream.Takes kind after →
        (∀ name, kind ≠ .name name) →
        step ⟨.operand, lookback, stack⟩ kind = some ⟨.after, lookback.next kind, stack⟩ →
        Tracks (budget + 1) (do advance; return tree) ⟨.operand, lookback, stack⟩ stream
          fun _ => Stands 9 stack := by
      intro tree kind takes notName stepped
      refine Tracks.take ?_ (Nat.le_refl _) (reads_advance takes) takes stepped
      exact tracks_pure
        ⟨_, rfl, clear.take takes notName, loose_of_next (strength_lt_nine _)⟩
    have same := takes.next_kind
    rw [same]
    cases kind with
    | integer | float | text | boolean | null => exact literal takes nofun rfl
    | leftParen =>
      refine Tracks.take ?_ (Nat.le_refl _) (reads_advance takes) takes
        (step_operand_leftParen clear takes)
      exact tracks_group within (clear_next rfl)
    | outWord =>
      refine Tracks.take ?_ (Nat.le_succ _) (reads_advance takes) takes rfl
      exact tracks_afterOut within
    | name name =>
      refine Tracks.take ?_ (Nat.le_succ _) (reads_advance takes) takes rfl
      refine tracks_afterName within (lookback.isName_next_name name) fun noCall => ?_
      unfold Clear at clear
      rw [takes.kinds_eq] at clear
      exact Lookback.opens_next_name clear noCall
    | minus => exact absurd same noMinus
    | not => exact absurd same noNot
    | _ =>
      refine tracks_fail ?_
      rw [same]
      rfl

/-- An operand after a unary operator is tracked with the operator. -/
theorem tracks_prefixed {lookback : Lookback} {operator : UnaryOperator}
    (clear : Clear lookback stream) (next : stream.next.kind = kind)
    (isPrefix : kind = .minus ∨ kind = .not) :
    Tracks (budget + 1) (do advance; return Expression.unary operator (← nested.unary))
      ⟨.operand, lookback, stack⟩ stream fun _ => Stands 9 stack := by
  have notEnd : kind ≠ .endOfInput := by rcases isPrefix with rfl | rfl <;> exact nofun
  have notName : ∀ name, kind ≠ .name name := by rcases isPrefix with rfl | rfl <;> exact nofun
  have stepped : step ⟨.operand, lookback, stack⟩ kind =
      some ⟨.operand, lookback.next kind, stack⟩ := by
    rcases isPrefix with rfl | rfl <;> rfl
  obtain ⟨after, takes⟩ := TokenStream.takes_of_next_kind next notEnd
  refine Tracks.take ?_ (Nat.le_refl _) (reads_advance takes) takes stepped
  exact (within.unary stack _ after (clear.take takes notName)).bind
    fun _ stands => tracks_pure stands

theorem tracks_unary : TracksOperand (budget + 1) 9 (Parser.unary nested) := by
  intro stack lookback stream clear
  have next : Reads next stream stream.next stream := rfl
  unfold Parser.unary
  refine Tracks.after ?_ next (.refl _ stream) (Nat.le_refl _)
  split
  next minus => exact tracks_prefixed within clear minus (.inl rfl)
  next not => exact tracks_prefixed within clear not (.inr rfl)
  next noMinus noNot => exact tracks_primary within clear noMinus noNot

theorem tracks_power : TracksOperand (budget + 1) 8 (Parser.power nested) := by
  intro stack lookback stream clear
  refine (tracks_unary within stack lookback stream clear).bind fun {_ state between} _ stands => ?_
  refine tracks_accept_bind (by decide) (Nat.le_refl _) (fun {later} takes => ?_) fun absent => ?_
  · obtain ⟨lookback, rfl, clear, -⟩ := stands
    refine ⟨_, step_after_operator (by decide), ?_⟩
    exact (within.power stack _ later (clear.take takes nofun)).bind
      fun _ stands => tracks_pure stands
  · obtain ⟨lookback, same, clear, -⟩ := stands
    refine tracks_pure ⟨lookback, same, clear, loose_of_next ?_⟩
    have notCaret : strength between.next.kind ≠ 8 := fun same => absent (eq_caret_of_strength same)
    have := strength_lt_nine between.next.kind
    omega

theorem tracks_disjunction : TracksOperand (budget + 1) 2 (Parser.disjunction nested) := by
  have product := tracks_chain .product (tracks_power within)
  have sum := tracks_chain .sum product
  have comparison := tracks_chain .comparison sum
  have equality := tracks_chain .equality comparison
  have conjunction := tracks_chain .conjunction equality
  exact tracks_chain .disjunction conjunction

/-- A use limit has been taken, or none comes next after the value of a binding. -/
def Limited (stack : List Frame) (state : Recognizer) (stream : TokenStream) : Prop :=
  (∃ lookback, state = ⟨.limitEnd, lookback, stack⟩) ∨
    Stands 2 (.value :: stack) state stream ∧ stream.next.kind ≠ .asWord

omit within in
theorem tracks_count {negated : Bool} {lookback : Lookback}
    (noSign : negated = false → stream.next.kind ≠ .minus) :
    Tracks budget (do
      match (← next).kind with
      | .integer number =>
        match UseLimit.ofCount? (if negated then -number.toInt else number.toInt) with
        | some uses => do
          advance
          return uses
        | none => fail .useCountZero
      | _ => fail .useCountExpected) ⟨.count negated, lookback, stack⟩ stream
      fun _ => Limited stack := by
  have next : Reads next stream stream.next stream := rfl
  refine Tracks.after ?_ next (.refl _ stream) (Nat.le_refl _)
  split
  next number isNumber =>
    obtain ⟨after, takes⟩ := TokenStream.takes_of_next_kind isNumber nofun
    have stepped : step ⟨.count negated, lookback, stack⟩ (.integer number) = _ :=
      step_count negated lookback number
    split
    next uses counted =>
      rw [counted] at stepped
      refine Tracks.take ?_ (Nat.le_succ _) (reads_advance takes) takes stepped
      exact tracks_pure (.inl ⟨_, rfl⟩)
    next uncounted =>
      rw [uncounted] at stepped
      refine tracks_fail ?_
      rw [isNumber]
      exact stepped
  next notNumber => exact tracks_fail (step_count_eq_none notNumber noSign)

omit within in
theorem tracks_useLimit (stands : Stands 2 (.value :: stack) state stream) :
    Tracks budget useLimit state stream fun _ => Limited stack := by
  refine tracks_accept_bind (by decide) (Nat.le_succ _) (fun {later} takes => ?_) fun absent => ?_
  · obtain ⟨lookback, rfl, -, -⟩ := stands
    refine ⟨_, rfl, ?_⟩
    refine tracks_accept_bind (by decide) (Nat.le_succ _) (fun {later} takes => ?_)
      fun noSign => tracks_count fun _ => noSign
    exact ⟨_, rfl, tracks_count nofun⟩
  · exact tracks_pure (.inr ⟨stands, absent⟩)

omit within in
theorem Limited.step_semicolon (limited : Limited stack state stream) :
    ∃ lookback, state.step .semicolon = some ⟨.expression, lookback, stack⟩ ∧
      ∀ later, Clear lookback later := by
  rcases limited with ⟨lookback, rfl⟩ | ⟨⟨lookback, rfl, -⟩, -⟩
  · exact ⟨_, rfl, fun _ => clear_next rfl⟩
  · exact ⟨_, rfl, fun _ => clear_next rfl⟩

omit within in
theorem Limited.step_eq_none (limited : Limited stack state stream)
    (noSemicolon : stream.next.kind ≠ .semicolon) : state.step stream.next.kind = none := by
  rcases limited with ⟨lookback, rfl⟩ | ⟨stands, noLimit⟩
  · exact Awaits.limitEnd.step_eq_none noSemicolon
  · exact stands.step_eq_none_of_noChoice (fun _ => rfl) (close_eq_none
      (List.forall_mem_cons.mpr ⟨noLimit, List.forall_mem_singleton.mpr noSemicolon⟩))

theorem tracks_afterLet {lookback : Lookback} (admits : admitsChoice stack = true) :
    Tracks (budget + 1) (afterLet nested) ⟨.bindingName, lookback, stack⟩ stream
      fun _ => Stands 1 stack := by
  refine tracks_expectName_bind (Nat.le_succ _) (fun _ => ⟨_, rfl, ?_⟩)
    (step_eq_none_of_ne_name (.inl rfl))
  refine tracks_expect_bind (by decide) (Nat.le_succ _) (fun _ => ⟨_, rfl, ?_⟩)
    Awaits.assign.step_eq_none
  refine (tracks_disjunction within (.value :: stack) _ _ (clear_next rfl)).bind fun _ stands => ?_
  refine (tracks_useLimit stands).bind fun _ limited => ?_
  refine tracks_expect_bind (by decide) (Nat.le_refl _) (fun {later} _ => ?_) limited.step_eq_none
  obtain ⟨lookback, stepped, clear⟩ := limited.step_semicolon
  refine ⟨_, stepped, ?_⟩
  exact (within.expression stack lookback later admits (clear later)).bind
    fun _ stands => tracks_pure stands

theorem tracks_branch {lookback : Lookback} (clear : Clear lookback stream) :
    Tracks (budget + 1) (branch nested) ⟨.operand, lookback, .condition :: stack⟩ stream
      fun _ => Stands 1 (.result :: stack) := by
  refine (tracks_disjunction within _ lookback stream clear).bind fun _ stands => ?_
  refine tracks_expect_bind (by decide) (Nat.le_refl _) (fun {later} _ => ?_) fun noColon =>
    stands.step_eq_none_of_noChoice (fun _ => rfl) (close_eq_none
      (List.forall_mem_singleton.mpr noColon))
  obtain ⟨lookback, rfl, -⟩ := stands
  refine ⟨_, rfl, ?_⟩
  exact (within.expression _ _ later rfl (clear_next rfl)).bind fun _ stands => tracks_pure stands

theorem tracks_branchesFrom :
    ∀ {steps : Nat} {state : Recognizer} {stream : TokenStream}, stream.tokens.length ≤ steps →
      Stands 1 (.result :: stack) state stream →
      Tracks (budget + 1) (branchesFrom nested steps) state stream
        fun _ state later => Stands 1 (.result :: stack) state later ∧
          later.next.kind ≠ .elifWord := by
  intro steps
  induction steps with
  | zero =>
    intro state stream enough stands
    refine tracks_pure ⟨stands, ?_⟩
    rw [TokenStream.next_kind_of_ends (TokenStream.kinds_eq_nil enough)]
    exact nofun
  | succ steps inductionHypothesis =>
    intro state stream enough stands
    refine tracks_accept_bind (by decide) (Nat.le_succ _) (fun {later} takes => ?_)
      fun absent => tracks_pure ⟨stands, absent⟩
    obtain ⟨lookback, rfl, clear, -⟩ := stands
    refine ⟨_, rfl, ?_⟩
    refine (tracks_branch within (clear.take takes nofun)).bind fun moves stands => ?_
    have shorter := moves.length_le
    have length := takes.length_eq
    exact (inductionHypothesis (by omega) stands).bind fun _ stands => tracks_pure stands

theorem tracks_afterIf {lookback : Lookback} (admits : admitsChoice stack = true)
    (clear : Clear lookback stream) :
    Tracks (budget + 1) (afterIf nested) ⟨.operand, lookback, .condition :: stack⟩ stream
      fun _ => Stands 1 stack := by
  refine (tracks_branch within clear).bind fun {_ _ between} _ stands => ?_
  have left : Reads tokensLeft between between.tokens.length between := rfl
  refine Tracks.after ?_ left (.refl _ between) (Nat.le_refl _)
  refine (tracks_branchesFrom within (Nat.le_refl _) stands).bind fun _ ⟨stands, noElif⟩ => ?_
  refine tracks_expect_bind (by decide) (Nat.le_succ _) (fun _ => ?_) fun noElse =>
    stands.step_eq_none (close_eq_none
      (List.forall_mem_cons.mpr ⟨noElif, List.forall_mem_singleton.mpr noElse⟩))
  obtain ⟨lookback, rfl, -⟩ := stands
  refine ⟨_, rfl, ?_⟩
  refine tracks_expect_bind (by decide) (Nat.le_refl _) (fun {later} _ => ⟨_, rfl, ?_⟩)
    Awaits.elseColon.step_eq_none
  exact (within.expression stack _ later admits (clear_next rfl)).bind
    fun _ stands => tracks_pure stands

theorem tracks_ternary {lookback : Lookback} (admits : admitsChoice stack = true)
    (clear : Clear lookback stream) (noLet : stream.next.kind ≠ .letWord)
    (noIf : stream.next.kind ≠ .ifWord) :
    Tracks (budget + 1) (ternary nested) ⟨.expression, lookback, stack⟩ stream
      fun _ => Stands 1 stack := by
  have condition := (tracks_disjunction within stack lookback stream clear).of_sameStep
    (step_expression noLet noIf) fun _ ⟨_, same, _⟩ => nomatch same
  refine condition.bind fun {_ _ between} _ stands => ?_
  refine tracks_accept_bind (by decide) (Nat.le_refl _) (fun {later} _ => ?_) fun absent => ?_
  · obtain ⟨lookback, rfl, -⟩ := stands
    refine ⟨_, step_after_question admits, ?_⟩
    refine (within.expression _ _ later rfl (clear_next rfl)).bind fun _ stands => ?_
    refine tracks_expect_bind (by decide) (Nat.le_succ _) (fun {later} _ => ?_) fun noColon =>
      stands.step_eq_none (close_eq_none (List.forall_mem_singleton.mpr noColon))
    obtain ⟨lookback, rfl, -⟩ := stands
    refine ⟨_, rfl, ?_⟩
    exact (within.expression stack _ later admits (clear_next rfl)).bind
      fun _ stands => tracks_pure stands
  · have loose := stands.strength_lt
    have notQuestion : strength between.next.kind ≠ 1 :=
      fun same => absent (eq_question_of_strength same)
    obtain ⟨lookback, same, clear, -⟩ := stands
    exact tracks_pure ⟨lookback, same, clear, loose_of_next (by omega)⟩

theorem tracks_expression : TracksExpression (budget + 1) (Parser.expression nested) := by
  intro stack lookback stream admits clear
  have next : Reads next stream stream.next stream := rfl
  unfold Parser.expression
  refine Tracks.after ?_ next (.refl _ stream) (Nat.le_refl _)
  split
  next word =>
    obtain ⟨after, takes⟩ := TokenStream.takes_of_next_kind word nofun
    refine Tracks.take ?_ (Nat.le_succ _) (reads_advance takes) takes rfl
    exact tracks_afterLet within admits
  next word =>
    obtain ⟨after, takes⟩ := TokenStream.takes_of_next_kind word nofun
    refine Tracks.take ?_ (Nat.le_succ _) (reads_advance takes) takes rfl
    exact tracks_afterIf within admits (clear_next rfl)
  next noLet noIf => exact tracks_ternary within admits clear noLet noIf

omit within in
/-- The parsers with so many levels to open run out of them after so many tokens at the
earliest. -/
theorem tracks_nestedWithin (levels : Nat) : TracksWithin levels (nestedWithin levels) := by
  induction levels with
  | zero =>
    exact ⟨fun _ _ _ _ _ => tracks_tooDeep, fun _ _ _ _ => tracks_tooDeep,
      fun _ _ _ _ => tracks_tooDeep⟩
  | succ levels inductionHypothesis =>
    exact ⟨tracks_expression inductionHypothesis, tracks_power inductionHypothesis,
      tracks_unary inductionHypothesis⟩

omit within in
/-- A whole text is tracked, up to the end of the input. -/
theorem tracks_completeWithin (levels : Nat) (stream : TokenStream) :
    Tracks levels (completeWithin levels) start stream fun _ state later =>
      Stands 1 [] state later ∧ later.next.kind = .endOfInput := by
  have whole := (tracks_nestedWithin levels).expression [] .none stream rfl rfl
  refine whole.bind fun {_ _ between} _ stands => ?_
  have next : Reads next between between.next between := rfl
  refine Tracks.after ?_ next (.refl _ between) (Nat.le_refl _)
  split
  next atEnd => exact tracks_pure ⟨stands, beq_iff_eq.mp atEnd⟩
  next onward =>
    exact tracks_fail (stands.step_eq_none (close_nil fun same => onward (beq_iff_eq.mpr same)))

end Grammar

end Reckon
