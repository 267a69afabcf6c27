/-
This file lets a walk over a list of tokens follow a parser that takes tokens off
a stream. Where the cursor sits, the tokens from there on are those of the stream
and the end of the input. A walk follows a parser if it never breaks down, comes
to the same result or complains of the same fault, leaves as many parts open as
it found open, and keeps its cursor at the tokens and its nesting within the
limit on the way.
-/

import Reckon.Proofs.Grammar.Reading
import Reckon.Proofs.Grammar.Walk
import Reckon.Proofs.Token.Words

namespace Reckon

/-- A fault as it is reported. -/
def Complaint.ofError (error : SyntaxError) : Complaint :=
  ⟨error.message, error.position⟩

namespace Walk

variable {Result Final : Type} {tokens : List Token} {depth : Nat} {trail trail' : Trail}
  {stream later : TokenStream} {kind : TokenKind}

/-! ### Where a cursor sits -/

/-- A trail has come to where a stream begins, with so many parts open. The tokens of the stream
are some that a text can hold. -/
structure Sits (tokens : List Token) (depth : Nat) (trail : Trail) (stream : TokenStream) :
    Prop where
  depth_eq : trail.here.depth = depth
  rest : tokens.drop trail.here.index = stream.tokens ++ [.endAt stream.stop]
  readable : ∀ token ∈ stream.tokens, Readable token.kind ∧ token.kind ≠ .endOfInput
  within : trail.Within tokens

/-- The tokens from the cursor on, by their distance. -/
theorem Sits.getElem? (sits : Sits tokens depth trail stream) (offset : Nat) :
    tokens[trail.here.index + offset]? = (stream.tokens ++ [.endAt stream.stop])[offset]? := by
  rw [← sits.rest, List.getElem?_drop]

theorem Sits.length_eq (sits : Sits tokens depth trail stream) :
    tokens.length = trail.here.index + stream.tokens.length + 1 := by
  have here := (sits.within trail.here List.mem_cons_self).1
  have length := congrArg List.length sits.rest
  rw [List.length_drop, List.length_append, List.length_singleton] at length
  omega

theorem Sits.depth_le (sits : Sits tokens depth trail stream) : depth ≤ nestingLimit :=
  sits.depth_eq ▸ (sits.within trail.here List.mem_cons_self).2

theorem Sits.peek (sits : Sits tokens depth trail stream) :
    Walk.peek tokens trail = .ok (.ok stream.next, trail) := by
  have token : tokens[trail.here.index]? = some stream.next := by
    rw [← Nat.add_zero trail.here.index, sits.getElem?]
    rcases stream with ⟨_ | ⟨token, rest⟩, stop⟩ <;> rfl
  unfold Walk.peek
  rw [token]

/-- The next token is one that a text can hold. -/
theorem Sits.readable_next (sits : Sits tokens depth trail stream) :
    Readable stream.next.kind := by
  rcases stream with ⟨_ | ⟨token, rest⟩, stop⟩
  · trivial
  · exact (sits.readable token List.mem_cons_self).1

theorem within_goTo {cursor : Cursor} (within : trail.Within tokens)
    (index : cursor.index < tokens.length) (depth : cursor.depth ≤ nestingLimit) :
    (trail.goTo cursor).Within tokens :=
  List.forall_mem_cons.mpr ⟨⟨index, depth⟩, within⟩

/-- A cursor may go wherever a stream goes. -/
theorem Sits.goTo {index deeper : Nat} (sits : Sits tokens depth trail stream)
    (rest : tokens.drop index = later.tokens ++ [.endAt later.stop])
    (readable : ∀ token ∈ later.tokens, Readable token.kind ∧ token.kind ≠ .endOfInput)
    (le : deeper ≤ nestingLimit) : Sits tokens deeper (trail.goTo ⟨index, deeper⟩) later where
  depth_eq := rfl
  rest := rest
  readable := readable
  within := by
    have length := congrArg List.length rest
    rw [List.length_drop, List.length_append, List.length_singleton] at length
    exact within_goTo sits.within (show index < tokens.length by omega) le

/-! ### Following -/

/-- A walk has come to what a parser came to from a stream, and left so many parts open. -/
inductive Agrees (tokens : List Token) (depth : Nat) (stream : TokenStream) :
    Except Breakdown (Except Complaint Result × Trail) →
      Except SyntaxError (Result × TokenStream) → Prop where
  | reads {result : Result} {trail : Trail} {later : TokenStream}
      (sits : Sits tokens depth trail later)
      (length_le : later.tokens.length ≤ stream.tokens.length) :
      Agrees tokens depth stream (.ok (.ok result, trail)) (.ok (result, later))
  | faults {error : SyntaxError} {trail : Trail} (depth_eq : trail.here.depth = depth)
      (within : trail.Within tokens) :
      Agrees tokens depth stream (.ok (.error (.ofError error), trail)) (.error error)

/-- From wherever a walk and a parser begin together, they come to the same. -/
def Follows (tokens : List Token) (depth : Nat) (walk : Walk Result) (parser : Parser Result) :
    Prop :=
  ∀ trail stream, Sits tokens depth trail stream →
    Agrees tokens depth stream (walk trail) (parser stream)

variable {walk : Walk Result} {following : Result → Walk Final} {parser : Parser Result}
  {following' : Result → Parser Final} {walked : Except Breakdown (Except Complaint Result × Trail)}
  {read : Except SyntaxError (Result × TokenStream)}

theorem bind_of_ok {result : Result} (walked : walk trail = .ok (.ok result, trail')) :
    (walk >>= following) trail = following result trail' := by
  show Except.bind (walk trail) _ = _
  rw [walked]
  rfl

theorem bind_of_complaint {complaint : Complaint}
    (walked : walk trail = .ok (.error complaint, trail')) :
    (walk >>= following) trail = .ok (.error complaint, trail') := by
  show Except.bind (walk trail) _ = _
  rw [walked]
  rfl

theorem Agrees.mono (agrees : Agrees tokens depth later walked read)
    (le : later.tokens.length ≤ stream.tokens.length) :
    Agrees tokens depth stream walked read := by
  cases agrees with
  | reads sits length_le => exact .reads sits (Nat.le_trans length_le le)
  | faults depth_eq within => exact .faults depth_eq within

theorem bind_congr {other : Walk Result} (same : walk trail = other trail) :
    (walk >>= following) trail = (other >>= following) trail := by
  show Except.bind (walk trail) _ = Except.bind (other trail) _
  rw [same]

/-- What follows goes on from where the first part has come to. -/
theorem Agrees.bind (first : Agrees tokens depth stream (walk trail) (parser stream))
    (second : ∀ {result trail later}, Sits tokens depth trail later →
      later.tokens.length ≤ stream.tokens.length →
      Agrees tokens depth later (following result trail) (following' result later)) :
    Agrees tokens depth stream ((walk >>= following) trail) ((parser >>= following') stream) := by
  generalize walked : walk trail = came at first
  generalize read : parser stream = came' at first
  cases first with
  | reads sits length_le =>
    rw [bind_of_ok walked, Parser.bind_of_reads read]
    exact (second sits length_le).mono length_le
  | faults depth_eq within =>
    rw [bind_of_complaint walked, Parser.bind_of_fault read]
    exact .faults depth_eq within

theorem Follows.bind (first : Follows tokens depth walk parser)
    (second : ∀ result, Follows tokens depth (following result) (following' result)) :
    Follows tokens depth (walk >>= following) (parser >>= following') :=
  fun trail stream sits => (first trail stream sits).bind fun sits _ => second _ _ _ sits

theorem follows_pure (result : Result) : Follows tokens depth (pure result) (pure result) :=
  fun _ _ sits => .reads sits (Nat.le_refl _)

theorem Follows.walks {result : Result} (follows : Follows tokens depth walk parser)
    (sits : Sits tokens depth trail stream) (read : Parser.Reads parser stream result later) :
    ∃ trail', walk trail = .ok (.ok result, trail') ∧ Sits tokens depth trail' later := by
  have agrees := follows trail stream sits
  rw [show parser stream = .ok (result, later) from read] at agrees
  generalize walked : walk trail = came at agrees ⊢
  cases agrees with
  | reads sits _ => exact ⟨_, rfl, sits⟩

/-! ### Single tokens -/

theorem agrees_peek_bind {following : Token → Walk Final} {following' : Token → Parser Final}
    (sits : Sits tokens depth trail stream)
    (agrees : Agrees tokens depth stream (following stream.next trail)
      (following' stream.next stream)) :
    Agrees tokens depth stream ((peek tokens >>= following) trail)
      ((Parser.next >>= following') stream) := by
  rw [bind_of_ok sits.peek]
  exact agrees

theorem follows_peek_bind {following : Token → Walk Final} {following' : Token → Parser Final}
    (follows : ∀ token, Follows tokens depth (following token) (following' token)) :
    Follows tokens depth (peek tokens >>= following) (Parser.next >>= following') :=
  fun _ _ sits => agrees_peek_bind sits (follows _ _ _ sits)

/-- Nothing is passed at the end of the input. -/
theorem Sits.advance_of_end (sits : Sits tokens depth trail stream)
    (atEnd : stream.next.isEnd = true) : Walk.advance tokens trail = .ok (.ok (), trail) := by
  unfold Walk.advance
  rw [bind_of_ok sits.peek, if_pos atEnd]
  rfl

theorem follows_advance : Follows tokens depth (advance tokens) Parser.advance := by
  intro trail stream sits
  rcases stream with ⟨_ | ⟨token, rest⟩, stop⟩
  · rw [sits.advance_of_end rfl]
    exact .reads sits (Nat.le_refl _)
  · obtain ⟨here, readable⟩ := List.forall_mem_cons.mp sits.readable
    have onward : ¬ token.isEnd = true := fun atEnd => here.2 (beq_iff_eq.mp atEnd)
    have left : tokens.drop (trail.here.index + 1) = rest ++ [.endAt stop] := by
      rw [← List.drop_drop, sits.rest]
      rfl
    have moved : Sits tokens trail.here.depth
        (trail.goTo ⟨trail.here.index + 1, trail.here.depth⟩) ⟨rest, stop⟩ :=
      sits.goTo left readable (sits.within trail.here List.mem_cons_self).2
    unfold advance
    rw [bind_of_ok sits.peek]
    show Agrees _ _ _ ((if token.isEnd then _ else _ : Walk Unit) trail) _
    rw [if_neg onward]
    exact .reads (sits.depth_eq ▸ moved) (Nat.le_succ _)

theorem follows_complain (problem : SyntaxProblem) :
    Follows tokens depth (complain tokens problem.message : Walk Result)
      (Parser.fail problem) := by
  intro trail stream sits
  have agrees : Agrees tokens depth stream
      (.ok (.error (.ofError ⟨problem, stream.next.position⟩), trail))
      (Parser.fail problem stream : Except SyntaxError (Result × TokenStream)) :=
    .faults sits.depth_eq sits.within
  unfold complain
  rw [bind_of_ok sits.peek]
  exact agrees

theorem follows_accept (kind : TokenKind) :
    Follows tokens depth (accept tokens kind) (Parser.accept kind) := by
  refine follows_peek_bind fun token => ?_
  by_cases same : token.kind = kind
  · rw [if_pos same, if_pos same]
    exact follows_advance.bind fun _ => follows_pure true
  · rw [if_neg same, if_neg same]
    exact follows_pure false

theorem follows_expect (kind : TokenKind) (problem : SyntaxProblem) :
    Follows tokens depth (expect tokens kind problem.message) (Parser.expect kind problem) := by
  refine follows_peek_bind fun token => ?_
  by_cases same : token.kind = kind
  · rw [if_pos same, if_pos same]
    exact follows_advance
  · rw [if_neg same, if_neg same]
    exact follows_complain problem

theorem follows_expectName (problem : SyntaxProblem) :
    Follows tokens depth (expectName tokens problem.message) (Parser.expectName problem) := by
  refine follows_peek_bind fun token => ?_
  cases token.kind with
  | name name => exact follows_advance.bind fun _ => follows_pure name
  | _ => exact follows_complain problem

/-- A token that comes next can be passed. -/
theorem Sits.advance (sits : Sits tokens depth trail stream) (takes : stream.Takes kind later) :
    ∃ trail', Walk.advance tokens trail = .ok (.ok (), trail') ∧ Sits tokens depth trail' later :=
  follows_advance.walks sits (Parser.reads_advance takes)

theorem Sits.expect (sits : Sits tokens depth trail stream) (takes : stream.Takes kind later)
    (message : String) :
    ∃ trail', Walk.expect tokens kind message trail = .ok (.ok (), trail') ∧
      Sits tokens depth trail' later := by
  obtain ⟨trail', walked, sits'⟩ := sits.advance takes
  refine ⟨trail', ?_, sits'⟩
  unfold Walk.expect
  rw [bind_of_ok sits.peek, if_pos takes.next_kind, walked]

theorem Sits.expectName {name : String} (sits : Sits tokens depth trail stream)
    (takes : stream.Takes (.name name) later) (message : String) :
    ∃ trail', Walk.expectName tokens message trail = .ok (.ok name, trail') ∧
      Sits tokens depth trail' later := by
  obtain ⟨trail', walked, sits'⟩ := sits.advance takes
  refine ⟨trail', ?_, sits'⟩
  unfold Walk.expectName
  rw [bind_of_ok sits.peek, takes.next_kind]
  dsimp only
  rw [bind_of_ok walked]
  rfl

/-- The token that was passed last can be given back. -/
theorem Sits.stepBack (sits : Sits tokens depth trail stream) (takes : stream.Takes kind later)
    (passed : Sits tokens depth trail' later) :
    ∃ trail'', Walk.stepBack trail' = .ok (.ok (), trail'') ∧ Sits tokens depth trail'' stream := by
  have shorter := takes.length_eq
  have before := sits.length_eq
  have after := passed.length_eq
  have onward : trail'.here.index = trail.here.index + 1 := by omega
  have left : tokens.drop (trail'.here.index - 1) = stream.tokens ++ [.endAt stream.stop] := by
    rw [onward, Nat.add_sub_cancel, sits.rest]
  have back := passed.goTo left sits.readable passed.depth_le
  refine ⟨_, ?_, back⟩
  unfold Walk.stepBack
  show (if trail'.here.index = 0 then _ else _ : Walk Unit) trail' = _
  rw [if_neg (onward ▸ Nat.succ_ne_zero _)]
  obtain rfl := passed.depth_eq
  rfl

theorem agrees_advance_bind {following : Unit → Walk Final} {following' : Unit → Parser Final}
    (sits : Sits tokens depth trail stream) (takes : stream.Takes kind later)
    (agrees : ∀ {trail}, Sits tokens depth trail later →
      Agrees tokens depth later (following () trail) (following' () later)) :
    Agrees tokens depth stream ((advance tokens >>= following) trail)
      ((Parser.advance >>= following') stream) := by
  obtain ⟨trail', walked, sits⟩ := sits.advance takes
  rw [bind_of_ok walked, Parser.bind_of_reads (Parser.reads_advance takes)]
  exact (agrees sits).mono (Nat.le_of_lt takes.length_lt)

theorem agrees_accept_bind {following : Bool → Walk Final} {following' : Bool → Parser Final}
    (notEnd : kind ≠ .endOfInput) (sits : Sits tokens depth trail stream)
    (taken : ∀ {trail later}, stream.Takes kind later → Sits tokens depth trail later →
      Agrees tokens depth later (following true trail) (following' true later))
    (absent : ∀ {trail}, stream.next.kind ≠ kind → Sits tokens depth trail stream →
      Agrees tokens depth stream (following false trail) (following' false stream)) :
    Agrees tokens depth stream ((accept tokens kind >>= following) trail)
      ((Parser.accept kind >>= following') stream) := by
  by_cases next : stream.next.kind = kind
  · obtain ⟨later, takes⟩ := TokenStream.takes_of_next_kind next notEnd
    have read := Parser.accept_of_takes takes
    obtain ⟨trail', walked, sits⟩ := (follows_accept kind).walks sits read
    rw [bind_of_ok walked, Parser.bind_of_reads read]
    exact (taken takes sits).mono (Nat.le_of_lt takes.length_lt)
  · have read := Parser.accept_of_ne next
    obtain ⟨trail', walked, sits⟩ := (follows_accept kind).walks sits read
    rw [bind_of_ok walked, Parser.bind_of_reads read]
    exact absent next sits

/-! ### Parts that nest -/

/-- A part that nests is read one level deeper than what it stands in. -/
theorem follows_deeper (follows : Follows tokens (depth + 1) walk parser)
    (below : depth < nestingLimit) : Follows tokens depth (deeper tokens walk) parser := by
  intro trail stream sits
  obtain rfl := sits.depth_eq
  have opened : Sits tokens (trail.here.depth + 1)
      (trail.goTo ⟨trail.here.index, trail.here.depth + 1⟩) stream :=
    sits.goTo sits.rest sits.readable below
  have closes : ∀ (answer : Except Complaint Result) (later : Trail),
      later.here.depth = trail.here.depth + 1 →
      (if later.here.depth = 0 then .error .belowZero
        else .ok (answer, later.goTo ⟨later.here.index, later.here.depth - 1⟩)) =
      (.ok (answer, later.goTo ⟨later.here.index, trail.here.depth⟩) : Except Breakdown _) := by
    intro answer later depth_eq
    rw [depth_eq, if_neg (Nat.succ_ne_zero _), Nat.add_sub_cancel]
  have agrees := follows _ _ opened
  unfold deeper
  rw [if_neg (Nat.not_le.mpr below)]
  have within_le := Nat.le_of_lt below
  generalize walk (trail.goTo ⟨trail.here.index, trail.here.depth + 1⟩) = walked at agrees ⊢
  generalize parser stream = read at agrees ⊢
  cases agrees with
  | reads sits' length_le =>
    dsimp only
    rw [closes _ _ sits'.depth_eq]
    exact .reads (sits'.goTo sits'.rest sits'.readable within_le) length_le
  | faults depth_eq within =>
    dsimp only
    rw [closes _ _ depth_eq]
    exact .faults rfl (within_goTo within (within _ List.mem_cons_self).1 within_le)

theorem follows_deeper_tooDeep :
    Follows tokens nestingLimit (deeper tokens walk) (Parser.fail .nestedTooDeeply) := by
  intro trail stream sits
  unfold deeper
  rw [if_pos (Nat.le_of_eq sits.depth_eq.symm)]
  exact follows_complain .nestedTooDeeply trail stream sits

end Walk

end Reckon
