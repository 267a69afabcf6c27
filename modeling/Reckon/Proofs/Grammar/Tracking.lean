/-
This file runs the parser beside the recognizer of the grammar. As long as the
parser reads, the recognizer takes the same tokens; where the parser finds a
fault, the recognizer cannot take the token that the fault is reported at. The
one fault that the recognizer does not know is that parts nest too deeply. That
takes as many tokens before it as there were levels to open.
-/

import Reckon.Proofs.Grammar.Completeness
import Reckon.Proofs.Grammar.Recognizer

namespace Reckon

open Reckon.Parser

namespace Grammar

open Recognizer

variable {Result Final : Type} {budget : Nat} {state state' state'' : Recognizer}
  {stream later final : TokenStream} {error : SyntaxError} {kind : TokenKind}

/-! ### Taking the tokens that a parser reads -/

/-- The recognizer takes the tokens that stand between two streams. -/
def Moves (state : Recognizer) (stream : TokenStream) (state' : Recognizer)
    (later : TokenStream) : Prop :=
  ∃ taken : List Token, stream.tokens = taken ++ later.tokens ∧ stream.stop = later.stop ∧
    state.run (taken.map Token.kind) = some state'

theorem Moves.refl (state : Recognizer) (stream : TokenStream) :
    Moves state stream state stream :=
  ⟨[], rfl, rfl, rfl⟩

theorem Moves.trans (first : Moves state stream state' later)
    (second : Moves state' later state'' final) : Moves state stream state'' final := by
  obtain ⟨taken, tokens, stop, ran⟩ := first
  obtain ⟨taken', tokens', stop', ran'⟩ := second
  refine ⟨taken ++ taken', ?_, stop.trans stop', ?_⟩
  · rw [tokens, tokens', List.append_assoc]
  · rw [List.map_append, run_append, ran]
    exact ran'

theorem moves_take (takes : stream.Takes kind later) (stepped : state.step kind = some state') :
    Moves state stream state' later := by
  obtain ⟨lexeme, position, rfl⟩ := takes
  refine ⟨[⟨kind, lexeme, position⟩], rfl, rfl, ?_⟩
  show (state.step kind).bind _ = _
  rw [stepped]
  rfl

theorem Moves.length_le (moves : Moves state stream state' later) :
    later.tokens.length ≤ stream.tokens.length := by
  obtain ⟨taken, tokens, -⟩ := moves
  rw [tokens, List.length_append]
  exact Nat.le_add_left _ _

/-! ### Faults -/

/-- A fault is reported at the first token that the recognizer cannot take, or parts nest too
deeply after so many tokens at least. -/
def Sticks (budget : Nat) (state : Recognizer) (stream : TokenStream) (error : SyntaxError) :
    Prop :=
  ∃ (taken : List Token) (later : TokenStream),
    stream.tokens = taken ++ later.tokens ∧ stream.stop = later.stop ∧
    error.position = later.next.position ∧
    (error.problem = .nestedTooDeeply ∧ budget ≤ taken.length ∨
      ∃ stuck, state.run (taken.map Token.kind) = some stuck ∧
        stuck.step later.next.kind = none)

/-- A fault that is found after some tokens have been taken lies behind them. -/
theorem Sticks.after {more : Nat} (sticks : Sticks more state' later error)
    (moves : Moves state stream state' later)
    (bound : budget + later.tokens.length ≤ more + stream.tokens.length) :
    Sticks budget state stream error := by
  obtain ⟨taken, tokens, stop, ran⟩ := moves
  obtain ⟨taken', final, tokens', stop', position, fault⟩ := sticks
  refine ⟨taken ++ taken', final, ?_, stop.trans stop', position, ?_⟩
  · rw [tokens, tokens', List.append_assoc]
  · rcases fault with ⟨tooDeep, within⟩ | ⟨stuck, ran', dead⟩
    · rw [tokens, List.length_append] at bound
      refine .inl ⟨tooDeep, ?_⟩
      rw [List.length_append]
      omega
    · refine .inr ⟨stuck, ?_, dead⟩
      rw [List.map_append, run_append, ran]
      exact ran'

/-! ### Parsers beside the recognizer -/

/-- The recognizer takes what a parser reads, and it sticks at a fault that the parser finds. -/
structure Tracks (budget : Nat) (parser : Parser Result) (state : Recognizer)
    (stream : TokenStream) (ends : Result → Recognizer → TokenStream → Prop) : Prop where
  reads : ∀ {result later}, Reads parser stream result later →
    ∃ state', Moves state stream state' later ∧ ends result state' later
  faults : ∀ {error}, parser stream = .error error → Sticks budget state stream error

variable {ends : Result → Recognizer → TokenStream → Prop}
  {ends' : Final → Recognizer → TokenStream → Prop}

theorem tracks_pure {result : Result} (stands : ends result state stream) :
    Tracks budget (pure result) state stream ends where
  reads read := by
    obtain ⟨rfl, rfl⟩ := reads_pure.mp read
    exact ⟨state, .refl state _, stands⟩
  faults := nofun

theorem tracks_fail {problem : SyntaxProblem} (dead : state.step stream.next.kind = none) :
    Tracks budget (fail problem) state stream ends where
  reads read := absurd read not_reads_fail
  faults := by
    rintro _ ⟨⟩
    exact ⟨[], stream, rfl, rfl, rfl, .inr ⟨state, rfl, dead⟩⟩

theorem tracks_tooDeep : Tracks 0 (fail .nestedTooDeeply) state stream ends where
  reads read := absurd read not_reads_fail
  faults := by
    rintro _ ⟨⟩
    exact ⟨[], stream, rfl, rfl, rfl, .inl ⟨rfl, Nat.le_refl 0⟩⟩

/-- What is read first leaves the rest of the tokens to what follows. -/
theorem Tracks.after {parser : Parser Result} {following : Result → Parser Final} {more : Nat}
    {result : Result} (tracks : Tracks more (following result) state' later ends')
    (read : Reads parser stream result later) (moves : Moves state stream state' later)
    (bound : budget + later.tokens.length ≤ more + stream.tokens.length) :
    Tracks budget (parser >>= following) state stream ends' where
  reads all := by
    obtain ⟨state'', moves', stands⟩ := tracks.reads ((bind_of_reads read).symm.trans all)
    exact ⟨state'', moves.trans moves', stands⟩
  faults fault := (tracks.faults ((bind_of_reads read).symm.trans fault)).after moves bound

theorem Tracks.bind {parser : Parser Result} {following : Result → Parser Final}
    (first : Tracks budget parser state stream ends)
    (second : ∀ {result state' later}, Moves state stream state' later →
      ends result state' later → Tracks budget (following result) state' later ends') :
    Tracks budget (parser >>= following) state stream ends' := by
  rcases reads_or_faults parser stream with ⟨result, later, read⟩ | ⟨error, fault⟩
  · obtain ⟨state', moves, stands⟩ := first.reads read
    exact (second moves stands).after read moves (Nat.add_le_add_left moves.length_le budget)
  · have same : (parser >>= following) stream = .error error := bind_of_fault fault
    refine ⟨fun read => ?_, fun fault' => ?_⟩
    · cases same.symm.trans read
    · cases same.symm.trans fault'
      exact first.faults fault

/-- A fault at the next token is found whatever follows. -/
theorem tracks_fault_bind {parser : Parser Result} {following : Result → Parser Final}
    {problem : SyntaxProblem} (fault : parser stream = fail problem stream)
    (dead : state.step stream.next.kind = none) :
    Tracks budget (parser >>= following) state stream ends' := by
  have first : Tracks budget (fail problem : Parser Result) state stream fun _ _ _ => True :=
    tracks_fail dead
  have same : (parser >>= following) stream = .error ⟨problem, stream.next.position⟩ :=
    bind_of_fault fault
  refine ⟨fun read => ?_, fun fault' => ?_⟩
  · cases same.symm.trans read
  · cases same.symm.trans fault'
    exact first.faults rfl

/-! ### Waiting for the same tokens -/

/-- Of two states that take the next token alike one goes where the other does, unless no token is
taken. -/
theorem run_of_sameStep {other : Recognizer} {taken : List Token}
    (tokens : stream.tokens = taken ++ later.tokens) (stop : stream.stop = later.stop)
    (same : state.step stream.next.kind = other.step stream.next.kind) :
    taken = [] ∧ later = stream ∨
      state.run (taken.map Token.kind) = other.run (taken.map Token.kind) := by
  cases taken with
  | nil => exact .inl ⟨rfl, TokenStream.ext tokens.symm stop.symm⟩
  | cons token taken =>
    have next : stream.next = token := by
      unfold TokenStream.next
      rw [tokens]
      rfl
    rw [next] at same
    refine .inr ?_
    show (state.step token.kind).bind _ = (other.step token.kind).bind _
    rw [same]

theorem Tracks.of_sameStep {parser : Parser Result} {other : Recognizer}
    (tracks : Tracks budget parser other stream ends)
    (same : state.step stream.next.kind = other.step stream.next.kind)
    (progress : ∀ result, ¬ ends result other stream) :
    Tracks budget parser state stream ends where
  reads read := by
    obtain ⟨state', ⟨taken, tokens, stop, ran⟩, stands⟩ := tracks.reads read
    rcases run_of_sameStep tokens stop same with ⟨rfl, rfl⟩ | sameRun
    · cases ran
      exact absurd stands (progress _)
    · exact ⟨state', ⟨taken, tokens, stop, sameRun.trans ran⟩, stands⟩
  faults fault := by
    obtain ⟨taken, later, tokens, stop, position, found⟩ := tracks.faults fault
    refine ⟨taken, later, tokens, stop, position, found.imp_right ?_⟩
    rintro ⟨stuck, ran, dead⟩
    rcases run_of_sameStep tokens stop same with ⟨rfl, rfl⟩ | sameRun
    · cases ran
      exact ⟨state, rfl, same.trans dead⟩
    · exact ⟨stuck, sameRun.trans ran, dead⟩

/-! ### Single tokens -/

variable {more : Nat}

/-- A token that is taken is one more before the parts that nest too deeply. -/
theorem Tracks.take {parser : Parser Result} {following : Result → Parser Final} {result : Result}
    (tracks : Tracks more (following result) state' later ends') (bound : budget ≤ more + 1)
    (read : Reads parser stream result later) (takes : stream.Takes kind later)
    (stepped : state.step kind = some state') :
    Tracks budget (parser >>= following) state stream ends' := by
  refine tracks.after read (moves_take takes stepped) ?_
  rw [takes.length_eq]
  omega

theorem tracks_accept_bind {following : Bool → Parser Final} (notEnd : kind ≠ .endOfInput)
    (bound : budget ≤ more + 1)
    (taken : ∀ {later}, stream.Takes kind later → ∃ state', state.step kind = some state' ∧
      Tracks more (following true) state' later ends')
    (absent : stream.next.kind ≠ kind → Tracks budget (following false) state stream ends') :
    Tracks budget (accept kind >>= following) state stream ends' := by
  by_cases next : stream.next.kind = kind
  · obtain ⟨later, takes⟩ := TokenStream.takes_of_next_kind next notEnd
    obtain ⟨state', stepped, tracks⟩ := taken takes
    exact tracks.take bound (accept_of_takes takes) takes stepped
  · exact (absent next).after (accept_of_ne next) (.refl state stream) (Nat.le_refl _)

theorem tracks_expect_bind {following : Unit → Parser Final} {problem : SyntaxProblem}
    (notEnd : kind ≠ .endOfInput) (bound : budget ≤ more + 1)
    (taken : ∀ {later}, stream.Takes kind later → ∃ state', state.step kind = some state' ∧
      Tracks more (following ()) state' later ends')
    (absent : stream.next.kind ≠ kind → state.step stream.next.kind = none) :
    Tracks budget (expect kind problem >>= following) state stream ends' := by
  by_cases next : stream.next.kind = kind
  · obtain ⟨later, takes⟩ := TokenStream.takes_of_next_kind next notEnd
    obtain ⟨state', stepped, tracks⟩ := taken takes
    exact tracks.take bound ((reads_expect notEnd).mpr takes) takes stepped
  · have fault : expect kind problem stream = fail problem stream := by
      show (if stream.next.kind = kind then advance else fail problem : Parser Unit) stream = _
      rw [if_neg next]
    exact tracks_fault_bind fault (absent next)

theorem tracks_expectName_bind {following : String → Parser Final} {problem : SyntaxProblem}
    (bound : budget ≤ more + 1)
    (taken : ∀ {name later}, stream.Takes (.name name) later →
      ∃ state', state.step (.name name) = some state' ∧
        Tracks more (following name) state' later ends')
    (absent : (∀ name, stream.next.kind ≠ .name name) → state.step stream.next.kind = none) :
    Tracks budget (expectName problem >>= following) state stream ends' := by
  by_cases next : ∃ name, stream.next.kind = .name name
  · obtain ⟨name, next⟩ := next
    obtain ⟨later, takes⟩ := TokenStream.takes_of_next_kind next nofun
    obtain ⟨state', stepped, tracks⟩ := taken takes
    refine tracks.take bound ?_ takes stepped
    obtain ⟨lexeme, position, rfl⟩ := takes
    rfl
  · have notName : ∀ name, stream.next.kind ≠ .name name := fun name same => next ⟨name, same⟩
    have fault : expectName problem stream = fail problem stream := by
      have peeked : Reads Parser.next stream stream.next stream := rfl
      unfold expectName
      rw [bind_of_reads peeked]
      generalize stream.next.kind = kind at notName ⊢
      cases kind with
      | name name => exact absurd rfl (notName name)
      | _ => rfl
    exact tracks_fault_bind fault (absent notName)

/-! ### Where an operand ends -/

/-- The tokens that come next do not open the arguments of a call after the last ones. -/
def Clear (lookback : Lookback) (stream : TokenStream) : Prop :=
  lookback.opens stream.kinds = false

theorem Clear.take {lookback : Lookback} (clear : Clear lookback stream)
    (takes : stream.Takes kind later) (notName : ∀ name, kind ≠ .name name) :
    Clear (lookback.next kind) later := by
  unfold Clear at clear
  rw [takes.kinds_eq] at clear
  exact Lookback.opens_next clear notName

theorem clear_next {lookback : Lookback} (breaks : Lookback.isWithinCall kind = false) :
    Clear (lookback.next kind) stream := by
  unfold Clear
  rw [Lookback.next_eq_none breaks]
  rfl

/-- An operand has been taken, and what comes next neither calls it nor binds it so tightly. -/
def Stands (bound : Nat) (stack : List Frame) (state : Recognizer) (stream : TokenStream) :
    Prop :=
  ∃ lookback, state = ⟨.after, lookback, stack⟩ ∧ Clear lookback stream ∧
    Loose bound stream.kinds

variable {bound : Nat} {stack : List Frame}

theorem Stands.mono {greater : Nat} (stands : Stands bound stack state stream)
    (le : bound ≤ greater) : Stands greater stack state stream := by
  obtain ⟨lookback, same, clear, loose⟩ := stands
  exact ⟨lookback, same, clear, loose.mono le⟩

theorem Stands.strength_lt (stands : Stands (bound + 1) stack state stream) :
    strength stream.next.kind < bound + 1 := by
  obtain ⟨lookback, -, -, loose⟩ := stands
  rw [TokenStream.next_kind]
  cases kinds : stream.kinds with
  | nil => exact Nat.succ_pos bound
  | cons kind rest =>
    rw [kinds] at loose
    exact loose

/-- What closes no open part cannot be taken after an operand, unless it continues the operand. -/
theorem Stands.step_eq_none_of_noChoice (stands : Stands 2 stack state stream)
    (noChoice : stream.next.kind = .question → admitsChoice stack = false)
    (stuck : close stack stream.next.kind = none) : state.step stream.next.kind = none := by
  have loose := stands.strength_lt
  obtain ⟨lookback, rfl, clear, -⟩ := stands
  have noCall : ¬ (stream.next.kind = .leftParen ∧ lookback.isName) := by
    rintro ⟨parenthesis, named⟩
    obtain ⟨later, takes⟩ := TokenStream.takes_of_next_kind parenthesis nofun
    unfold Clear at clear
    rw [takes.kinds_eq] at clear
    cases lookback <;> cases named <;> cases clear
  have noQuestion : ¬ (stream.next.kind = .question ∧ admitsChoice stack) := by
    rintro ⟨question, admits⟩
    cases admits.symm.trans (noChoice question)
  unfold step move resume
  dsimp only
  rw [if_neg (Nat.not_le_of_lt loose), if_neg noCall, if_neg noQuestion, stuck]
  rfl

theorem Stands.step_eq_none (stands : Stands 1 stack state stream)
    (stuck : close stack stream.next.kind = none) : state.step stream.next.kind = none := by
  refine (stands.mono (Nat.le_succ 1)).step_eq_none_of_noChoice (fun question => ?_) stuck
  have loose := stands.strength_lt
  rw [question] at loose
  exact absurd loose (by decide)

/-- A parser of operands takes what the recognizer does, up to where the operand ends. -/
def TracksOperand (budget bound : Nat) (parser : Parser Expression) : Prop :=
  ∀ stack lookback stream, Clear lookback stream →
    Tracks budget parser ⟨.operand, lookback, stack⟩ stream fun _ => Stands bound stack

/-- A parser of expressions takes what the recognizer does, up to where the expression ends. -/
def TracksExpression (budget : Nat) (parser : Parser Expression) : Prop :=
  ∀ stack lookback stream, admitsChoice stack = true → Clear lookback stream →
    Tracks budget parser ⟨.expression, lookback, stack⟩ stream fun _ => Stands 1 stack

theorem loose_of_next (tight : strength stream.next.kind < bound) : Loose bound stream.kinds := by
  rw [TokenStream.next_kind] at tight
  cases kinds : stream.kinds with
  | nil => trivial
  | cons kind rest =>
    rw [kinds] at tight
    exact tight

end Grammar

end Reckon
