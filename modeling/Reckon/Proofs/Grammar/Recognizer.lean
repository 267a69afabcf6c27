/-
This file reads the grammar one token at a time, without building a tree. All
that has to be remembered of the tokens before is what must come next, which
parts are still open, and how far the last tokens go towards opening the
arguments of a call: `<` after a name is a comparison until a parenthesis shows
that it began a type hint.

Whatever tokens have been taken so far, some tokens complete them.
-/

import Reckon.Proofs.Grammar.Rules

namespace Reckon

namespace Grammar

/-! ### What is remembered -/

/-- An open part of an expression, by what closes it. A cast is closed like a group, and the part
after the last colon or semicolon of an expression closes with the expression. -/
inductive Frame where
  | group
  | call
  | whenTrue
  | value
  | condition
  | result
  deriving DecidableEq

/-- The tokens that close an open part, or go on to the next part of the same expression. -/
def Frame.closers : Frame → List TokenKind
  | .group => [.rightParen]
  | .call => [.rightParen, .comma]
  | .whenTrue | .condition => [.colon]
  | .value => [.asWord, .semicolon]
  | .result => [.elifWord, .elseWord]

/-- What must come next. -/
inductive Control where
  | expression
  | arguments
  | operand
  | after
  | bindingName
  | assign
  | count (negated : Bool)
  | limitEnd
  | elseColon
  | castLess
  | castName
  | castGreater
  | castOpen
  | finished
  deriving DecidableEq

/-- The last tokens, as far as they can be the beginning of a call: a name, `<` after it, another
name, and `>` after that. The second name may be that of a function as well. -/
inductive Lookback where
  | none
  | name
  | less
  | type
  | greater
  deriving DecidableEq

/-- What is remembered of the tokens that have been taken. -/
structure Recognizer where
  control : Control
  lookback : Lookback
  stack : List Frame

namespace Lookback

/-- The last tokens after one more token. -/
def next : Lookback → TokenKind → Lookback
  | .less, .name _ => .type
  | _, .name _ => .name
  | .name, .less | .type, .less => .less
  | .type, .greater => .greater
  | _, _ => .none

/-- Whether the last token was a name. -/
def isName : Lookback → Bool
  | .name | .type => true
  | _ => false

/-- Whether the tokens that come next end a type hint and open arguments. -/
def endsHint : List TokenKind → Bool
  | .greater :: .leftParen :: _ => true
  | _ => false

/-- Whether the tokens that come next, after the last ones, open the arguments of a call. -/
def opens : Lookback → List TokenKind → Bool
  | .none, _ => false
  | .name, rest => opensArguments rest
  | .less, .name _ :: rest => endsHint rest
  | .less, _ => false
  | .type, rest => opensArguments rest || endsHint rest
  | .greater, rest => rest.head? == some .leftParen

theorem isName_next_name (lookback : Lookback) (name : String) :
    (lookback.next (.name name)).isName = true := by
  cases lookback <;> rfl

theorem eq_of_endsHint {rest : List TokenKind} (ends : endsHint rest = true) :
    ∃ more, rest = .greater :: .leftParen :: more := by
  unfold endsHint at ends
  split at ends
  · exact ⟨_, rfl⟩
  · cases ends

theorem opens_less {rest : List TokenKind} (closed : opensArguments (.less :: rest) = false) :
    opens .less rest = false := by
  cases rest with
  | nil => rfl
  | cons kind rest =>
    cases kind with
    | name name =>
      refine Bool.eq_false_iff.mpr fun ends => ?_
      obtain ⟨more, rfl⟩ := eq_of_endsHint ends
      cases closed
    | _ => rfl

theorem opens_greater {rest : List TokenKind} (closed : opens .type (.greater :: rest) = false) :
    opens .greater rest = false := by
  refine Bool.eq_false_iff.mpr fun parenthesis => ?_
  obtain ⟨more, rfl⟩ := List.head?_eq_some_iff.mp (beq_iff_eq.mp parenthesis)
  cases closed

/-- Whether a token can stand between a name and the arguments that it is called with. -/
def isWithinCall : TokenKind → Bool
  | .name _ | .less | .greater => true
  | _ => false

theorem next_eq_none {lookback : Lookback} {kind : TokenKind} (breaks : isWithinCall kind = false) :
    lookback.next kind = .none := by
  cases kind with
  | name | less | greater => cases breaks
  | _ => cases lookback <;> rfl

/-- Tokens that open no arguments still do not when the first of them has been taken, unless it is
a name. -/
theorem opens_next {lookback : Lookback} {kind : TokenKind} {rest : List TokenKind}
    (closed : lookback.opens (kind :: rest) = false) (notName : ∀ name, kind ≠ .name name) :
    (lookback.next kind).opens rest = false := by
  cases lookback with
  | none | less | greater =>
    cases kind with
    | name name => exact absurd rfl (notName name)
    | _ => rfl
  | name =>
    cases kind with
    | name name => exact absurd rfl (notName name)
    | less => exact opens_less closed
    | _ => rfl
  | type =>
    cases kind with
    | name name => exact absurd rfl (notName name)
    | less => exact opens_less (Bool.or_eq_false_iff.mp closed).1
    | greater => exact opens_greater closed
    | _ => rfl

/-- A name opens no arguments if it is not called and does not end a type hint. -/
theorem opens_next_name {lookback : Lookback} {name : String} {rest : List TokenKind}
    (closed : lookback.opens (.name name :: rest) = false)
    (noCall : opensArguments rest = false) : (lookback.next (.name name)).opens rest = false := by
  cases lookback with
  | none | name | type | greater => exact noCall
  | less => exact Bool.or_eq_false_iff.mpr ⟨noCall, closed⟩

end Lookback

namespace Recognizer

/-- Nothing has been taken, and a whole expression must come. -/
def start : Recognizer :=
  ⟨.expression, .none, []⟩

/-- Whether `?` may follow an operand in the innermost open part. -/
def admitsChoice : List Frame → Bool
  | .value :: _ | .condition :: _ => false
  | _ => true

/-- What must come after an opening parenthesis where an operand begins. -/
def openGroup (stack : List Frame) : Lookback → Control × List Frame
  | .greater => (.arguments, .call :: stack)
  | _ => (.expression, .group :: stack)

/-- Takes a token that begins an operand. -/
def beginOperand (lookback : Lookback) (stack : List Frame) :
    TokenKind → Option (Control × List Frame)
  | .integer _ | .float _ | .text _ | .boolean _ | .null | .name _ => some (.after, stack)
  | .leftParen => some (openGroup stack lookback)
  | .outWord => some (.castLess, stack)
  | .minus | .not => some (.operand, stack)
  | _ => none

/-- Takes a token that begins an expression. -/
def beginExpression (lookback : Lookback) (stack : List Frame) :
    TokenKind → Option (Control × List Frame)
  | .letWord => some (.bindingName, stack)
  | .ifWord => some (.operand, .condition :: stack)
  | kind => beginOperand lookback stack kind

/-- Takes a token that closes the innermost open part, or the whole. -/
def close : List Frame → TokenKind → Option (Control × List Frame)
  | [], .endOfInput => some (.finished, [])
  | .group :: stack, .rightParen => some (.after, stack)
  | .call :: stack, .rightParen => some (.after, stack)
  | .call :: stack, .comma => some (.expression, .call :: stack)
  | .whenTrue :: stack, .colon => some (.expression, stack)
  | .value :: stack, .asWord => some (.count false, stack)
  | .value :: stack, .semicolon => some (.expression, stack)
  | .condition :: stack, .colon => some (.expression, .result :: stack)
  | .result :: stack, .elifWord => some (.operand, .condition :: stack)
  | .result :: stack, .elseWord => some (.elseColon, stack)
  | _, _ => none

/-- Takes a token after an operand. -/
def resume (lookback : Lookback) (stack : List Frame) (kind : TokenKind) :
    Option (Control × List Frame) :=
  if 2 ≤ strength kind then some (.operand, stack)
  else if kind = .leftParen ∧ lookback.isName then some (.arguments, .call :: stack)
  else if kind = .question ∧ admitsChoice stack then some (.expression, .whenTrue :: stack)
  else close stack kind

/-- Takes the count of a use limit, or the sign before it. -/
def takeCount (negated : Bool) (stack : List Frame) : TokenKind → Option (Control × List Frame)
  | .minus => if negated then none else some (.count true, stack)
  | .integer number =>
    (UseLimit.ofCount? (if negated then -number.toInt else number.toInt)).map fun _ =>
      (.limitEnd, stack)
  | _ => none

/-- What must come after a token, and the parts that are open then, if the token may come. -/
def move : Control → Lookback → List Frame → TokenKind → Option (Control × List Frame)
  | .expression, lookback, stack, kind => beginExpression lookback stack kind
  | .arguments, _, stack, .rightParen => close stack .rightParen
  | .arguments, lookback, stack, kind => beginExpression lookback stack kind
  | .operand, lookback, stack, kind => beginOperand lookback stack kind
  | .after, lookback, stack, kind => resume lookback stack kind
  | .bindingName, _, stack, .name _ => some (.assign, stack)
  | .assign, _, stack, .assign => some (.operand, .value :: stack)
  | .count negated, _, stack, kind => takeCount negated stack kind
  | .limitEnd, _, stack, .semicolon => some (.expression, stack)
  | .elseColon, _, stack, .colon => some (.expression, stack)
  | .castLess, _, stack, .less => some (.castName, stack)
  | .castName, _, stack, .name _ => some (.castGreater, stack)
  | .castGreater, _, stack, .greater => some (.castOpen, stack)
  | .castOpen, _, stack, .leftParen => some (.expression, .group :: stack)
  | _, _, _, _ => none

/-- Takes one token, if it may come next. -/
def step (state : Recognizer) (kind : TokenKind) : Option Recognizer :=
  (move state.control state.lookback state.stack kind).map fun (control, stack) =>
    ⟨control, state.lookback.next kind, stack⟩

/-- Takes all tokens of a list, if each of them may come where it does. -/
def run (state : Recognizer) : List TokenKind → Option Recognizer
  | [] => some state
  | kind :: rest => (state.step kind).bind fun next => next.run rest

theorem run_append (state : Recognizer) (first second : List TokenKind) :
    state.run (first ++ second) = (state.run first).bind fun next => next.run second := by
  induction first generalizing state with
  | nil => rfl
  | cons kind first inductionHypothesis =>
    rw [List.cons_append, run, run]
    cases state.step kind with
    | none => rfl
    | some next => exact inductionHypothesis next

/-- No tokens can be taken after tokens that end with one that may not come. -/
theorem run_append_cons_of_step {state stuck : Recognizer} {before : List TokenKind}
    {kind : TokenKind} (after : List TokenKind) (live : state.run before = some stuck)
    (dead : stuck.step kind = none) : state.run (before ++ kind :: after) = none := by
  rw [run_append, live, Option.bind_some, run, dead]
  rfl

/-! ### The tokens that may come -/

variable {kind : TokenKind} {lookback : Lookback} {stack : List Frame}

theorem close_nil (onward : kind ≠ .endOfInput) : close [] kind = none := by
  cases kind <;> first | rfl | contradiction

theorem close_eq_none {frame : Frame} (other : ∀ closer ∈ frame.closers, kind ≠ closer) :
    close (frame :: stack) kind = none := by
  cases frame <;> cases kind <;> first | rfl | exact absurd rfl (other _ (by decide))

/-- After an operand an operator may come, and another operand after it. -/
theorem step_after_operator (binds : 2 ≤ strength kind) :
    step ⟨.after, lookback, stack⟩ kind = some ⟨.operand, lookback.next kind, stack⟩ := by
  unfold step move resume
  dsimp only
  rw [if_pos binds]
  rfl

theorem step_after_question (admits : admitsChoice stack = true) :
    step ⟨.after, lookback, stack⟩ .question =
      some ⟨.expression, lookback.next .question, .whenTrue :: stack⟩ := by
  unfold step move resume
  dsimp only
  rw [if_neg (by decide), if_neg (fun opens => nomatch opens.1), if_pos ⟨rfl, admits⟩]
  rfl

/-- After a name a parenthesis opens arguments. -/
theorem step_after_leftParen (named : lookback.isName = true) :
    step ⟨.after, lookback, stack⟩ .leftParen =
      some ⟨.arguments, lookback.next .leftParen, .call :: stack⟩ := by
  cases lookback <;> cases named <;> rfl

/-- An expression begins with a reserved word or as an operand does. -/
theorem step_expression (noLet : kind ≠ .letWord) (noIf : kind ≠ .ifWord) :
    step ⟨.expression, lookback, stack⟩ kind = step ⟨.operand, lookback, stack⟩ kind := by
  cases kind <;> first | rfl | contradiction

/-- Where no parenthesis closes the arguments of a call, they begin as any expression does. -/
theorem step_arguments (notClosing : kind ≠ .rightParen) :
    step ⟨.arguments, lookback, stack⟩ kind = step ⟨.expression, lookback, stack⟩ kind := by
  cases kind <;> first | rfl | contradiction

theorem step_count (negated : Bool) (lookback : Lookback) (number : Int64) :
    step ⟨.count negated, lookback, stack⟩ (.integer number) =
      (UseLimit.ofCount? (if negated then -number.toInt else number.toInt)).map fun _ =>
        ⟨.limitEnd, lookback.next (.integer number), stack⟩ := by
  show Option.map _ (Option.map _ _) = _
  rw [Option.map_map]
  rfl

theorem step_count_eq_none {negated : Bool} (notNumber : ∀ number, kind ≠ .integer number)
    (noSign : negated = false → kind ≠ .minus) :
    step ⟨.count negated, lookback, stack⟩ kind = none := by
  cases kind with
  | integer number => exact absurd rfl (notNumber number)
  | minus =>
    cases negated with
    | false => exact absurd rfl (noSign rfl)
    | true => rfl
  | _ => rfl

/-- No token but one may come. -/
inductive Awaits : Control → TokenKind → Prop
  | assign : Awaits .assign .assign
  | limitEnd : Awaits .limitEnd .semicolon
  | elseColon : Awaits .elseColon .colon
  | castLess : Awaits .castLess .less
  | castGreater : Awaits .castGreater .greater
  | castOpen : Awaits .castOpen .leftParen

theorem Awaits.step_eq_none {control : Control} {awaited : TokenKind}
    (awaits : Awaits control awaited) (other : kind ≠ awaited) :
    step ⟨control, lookback, stack⟩ kind = none := by
  cases awaits <;> cases kind <;> first | rfl | contradiction

/-- No token but a name may come. -/
theorem step_eq_none_of_ne_name {control : Control}
    (awaits : control = .bindingName ∨ control = .castName) (notName : ∀ name, kind ≠ .name name) :
    step ⟨control, lookback, stack⟩ kind = none := by
  rcases awaits with rfl | rfl <;> cases kind <;> first | rfl | exact absurd rfl (notName _)

/-! ### Every list of tokens that can be taken is completed by some tokens -/

/-- Some tokens that come next end the input. -/
def IsLive (state : Recognizer) : Prop :=
  ∃ kinds final, state.run kinds = some final ∧ final.control = .finished

theorem IsLive.of_step {state next : Recognizer} (live : next.IsLive)
    (stepped : state.step kind = some next) : state.IsLive := by
  obtain ⟨kinds, final, ran, finished⟩ := live
  refine ⟨kind :: kinds, final, ?_, finished⟩
  rw [run, stepped]
  exact ran

/-- An expression that must come may be `null`. -/
theorem isLive_expression (live : ∀ lookback, IsLive ⟨.after, lookback, stack⟩) :
    IsLive ⟨.expression, lookback, stack⟩ :=
  (live _).of_step (show step _ .null = _ from rfl)

/-- After an operand, closing the parts that are open ends the input. -/
theorem isLive_after (lookback : Lookback) (stack : List Frame) :
    IsLive ⟨.after, lookback, stack⟩ := by
  induction stack generalizing lookback with
  | nil => exact ⟨[.endOfInput], _, rfl, rfl⟩
  | cons frame stack inductionHypothesis =>
    have expression : ∀ lookback, IsLive ⟨.expression, lookback, stack⟩ :=
      fun _ => isLive_expression inductionHypothesis
    have afterResult : ∀ lookback, IsLive ⟨.after, lookback, .result :: stack⟩ := by
      intro lookback
      have elseColon : IsLive ⟨.elseColon, .none, stack⟩ :=
        (expression _).of_step (show step _ .colon = _ from rfl)
      exact elseColon.of_step (show step _ .elseWord = _ by cases lookback <;> rfl)
    cases frame with
    | group => exact (inductionHypothesis _).of_step (show step _ .rightParen = _ from rfl)
    | call => exact (inductionHypothesis _).of_step (show step _ .rightParen = _ from rfl)
    | whenTrue => exact (expression _).of_step (show step _ .colon = _ from rfl)
    | value => exact (expression _).of_step (show step _ .semicolon = _ from rfl)
    | condition =>
      exact (isLive_expression afterResult).of_step (show step _ .colon = _ from rfl)
    | result => exact afterResult lookback

/-- Whatever tokens have been taken, some tokens that come next end the input. -/
theorem isLive (state : Recognizer) : state.IsLive := by
  obtain ⟨control, lookback, stack⟩ := state
  have expression : ∀ lookback stack, IsLive ⟨.expression, lookback, stack⟩ :=
    fun _ stack => isLive_expression fun lookback => isLive_after lookback stack
  have castOpen : ∀ lookback, IsLive ⟨.castOpen, lookback, stack⟩ :=
    fun _ => (expression _ _).of_step (show step _ .leftParen = _ from rfl)
  have castGreater : ∀ lookback, IsLive ⟨.castGreater, lookback, stack⟩ :=
    fun _ => (castOpen _).of_step (show step _ .greater = _ from rfl)
  have castName : ∀ lookback, IsLive ⟨.castName, lookback, stack⟩ :=
    fun _ => (castGreater _).of_step (show step _ (.name "x") = _ from rfl)
  have limitEnd : ∀ lookback, IsLive ⟨.limitEnd, lookback, stack⟩ :=
    fun _ => (expression _ _).of_step (show step _ .semicolon = _ from rfl)
  have operand : ∀ lookback stack, IsLive ⟨.operand, lookback, stack⟩ :=
    fun _ stack => (isLive_after _ stack).of_step (show step _ .null = _ from rfl)
  have assign : ∀ lookback, IsLive ⟨.assign, lookback, stack⟩ :=
    fun _ => (operand _ _).of_step (show step _ .assign = _ from rfl)
  cases control with
  | expression => exact expression lookback stack
  | arguments => exact (isLive_after _ stack).of_step (show step _ .null = _ from rfl)
  | operand => exact operand lookback stack
  | after => exact isLive_after lookback stack
  | bindingName => exact (assign _).of_step (show step _ (.name "x") = _ from rfl)
  | assign => exact assign lookback
  | count negated =>
    cases negated <;> exact (limitEnd _).of_step (show step _ (.integer 1) = _ from rfl)
  | limitEnd => exact limitEnd lookback
  | elseColon => exact (expression _ _).of_step (show step _ .colon = _ from rfl)
  | castLess => exact (castName _).of_step (show step _ .less = _ from rfl)
  | castName => exact castName lookback
  | castGreater => exact castGreater lookback
  | castOpen => exact castOpen lookback
  | finished => exact ⟨[], _, rfl, rfl⟩

/-! ### The end of the input -/

variable {control control' : Control} {stack' : List Frame}

theorem beginOperand_finished
    (moved : beginOperand lookback stack kind = some (control, stack')) :
    control = .finished ↔ kind = .endOfInput := by
  cases kind with
  | leftParen => cases lookback <;> cases moved <;> exact ⟨nofun, nofun⟩
  | _ => cases moved <;> exact ⟨nofun, nofun⟩

theorem beginExpression_finished
    (moved : beginExpression lookback stack kind = some (control, stack')) :
    control = .finished ↔ kind = .endOfInput := by
  unfold beginExpression at moved
  split at moved
  · cases moved
    exact ⟨nofun, nofun⟩
  · cases moved
    exact ⟨nofun, nofun⟩
  · exact beginOperand_finished moved

theorem close_finished (moved : close stack kind = some (control, stack')) :
    control = .finished ↔ kind = .endOfInput := by
  unfold close at moved
  split at moved
  · cases moved
    exact ⟨fun _ => rfl, fun _ => rfl⟩
  all_goals cases moved
  all_goals exact ⟨nofun, nofun⟩

theorem resume_finished (moved : resume lookback stack kind = some (control, stack')) :
    control = .finished ↔ kind = .endOfInput := by
  unfold resume at moved
  split at moved
  next binds =>
    cases moved
    refine ⟨nofun, fun same => ?_⟩
    subst same
    cases binds
  · split at moved
    next opens =>
      cases moved
      exact ⟨nofun, fun same => nomatch opens.1.symm.trans same⟩
    · split at moved
      next chooses =>
        cases moved
        exact ⟨nofun, fun same => nomatch chooses.1.symm.trans same⟩
      · exact close_finished moved

theorem takeCount_finished {negated : Bool}
    (moved : takeCount negated stack kind = some (control, stack')) :
    control = .finished ↔ kind = .endOfInput := by
  unfold takeCount at moved
  split at moved
  · split at moved <;> cases moved
    exact ⟨nofun, nofun⟩
  · obtain ⟨_, -, same⟩ := Option.map_eq_some_iff.mp moved
    cases same
    exact ⟨nofun, nofun⟩
  · cases moved

/-- The end of the input finishes, and nothing else does. -/
theorem move_finished (moved : move control lookback stack kind = some (control', stack')) :
    control' = .finished ↔ kind = .endOfInput := by
  unfold move at moved
  split at moved
  · exact beginExpression_finished moved
  · exact close_finished moved
  · exact beginExpression_finished moved
  · exact beginOperand_finished moved
  · exact resume_finished moved
  · cases moved
    exact ⟨nofun, nofun⟩
  · cases moved
    exact ⟨nofun, nofun⟩
  · exact takeCount_finished moved
  all_goals cases moved
  all_goals exact ⟨nofun, nofun⟩

theorem step_finished {state next : Recognizer} (stepped : state.step kind = some next) :
    next.control = .finished ↔ kind = .endOfInput := by
  obtain ⟨⟨control, stack⟩, moved, rfl⟩ := Option.map_eq_some_iff.mp stepped
  exact move_finished moved

theorem step_of_finished {state : Recognizer} (finished : state.control = .finished)
    (kind : TokenKind) : state.step kind = none := by
  unfold step
  rw [finished]
  rfl

/-- Tokens that finish end with the end of the input, and it stands nowhere else among them. -/
theorem eq_append_of_run_finished {state final : Recognizer} {kinds : List TokenKind}
    (ran : state.run kinds = some final) (finished : final.control = .finished)
    (unfinished : state.control ≠ .finished) :
    ∃ input, kinds = input ++ [.endOfInput] ∧ .endOfInput ∉ input := by
  induction kinds generalizing state with
  | nil =>
    cases ran
    exact absurd finished unfinished
  | cons kind rest inductionHypothesis =>
    obtain ⟨next, stepped, ran⟩ := Option.bind_eq_some_iff.mp ran
    by_cases last : kind = .endOfInput
    · -- Nothing can be taken after the end of the input.
      have none := step_of_finished ((step_finished stepped).mpr last)
      cases rest with
      | nil => exact ⟨[], by rw [last]; rfl, List.not_mem_nil⟩
      | cons second rest =>
        rw [run, none second] at ran
        cases ran
    · obtain ⟨input, rfl, noEnd⟩ :=
        inductionHypothesis ran fun same => last ((step_finished stepped).mp same)
      exact ⟨kind :: input, rfl, List.not_mem_cons_of_ne_of_not_mem (Ne.symm last) noEnd⟩

end Recognizer

end Grammar

end Reckon
