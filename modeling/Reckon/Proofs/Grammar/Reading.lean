/-
This file says what the readers of single tokens do, in terms of the kinds of
the tokens that are left. The readers of whole rules are taken apart with these
facts alone, both to find the derivation behind what was read and to read what
has a derivation.
-/

import Reckon.Expression.Parser

namespace Reckon

namespace TokenStream

/-- The kinds of the tokens still to be read. -/
def kinds (stream : TokenStream) : List TokenKind :=
  stream.tokens.map Token.kind

/-- A token of a kind comes next, and another stream holds what follows it. -/
def Takes (stream : TokenStream) (kind : TokenKind) (later : TokenStream) : Prop :=
  ∃ lexeme position, stream = ⟨⟨kind, lexeme, position⟩ :: later.tokens, later.stop⟩

variable {stream later : TokenStream} {kind : TokenKind}

theorem Takes.kinds_eq (takes : stream.Takes kind later) :
    stream.kinds = kind :: later.kinds := by
  obtain ⟨lexeme, position, rfl⟩ := takes
  rfl

theorem Takes.next_kind (takes : stream.Takes kind later) : stream.next.kind = kind := by
  obtain ⟨lexeme, position, rfl⟩ := takes
  rfl

theorem Takes.length_eq (takes : stream.Takes kind later) :
    stream.tokens.length = later.tokens.length + 1 := by
  obtain ⟨lexeme, position, rfl⟩ := takes
  rfl

theorem Takes.length_lt (takes : stream.Takes kind later) :
    later.tokens.length < stream.tokens.length :=
  takes.length_eq ▸ Nat.lt_succ_self _

theorem ext (tokens : stream.tokens = later.tokens) (stop : stream.stop = later.stop) :
    stream = later := by
  cases stream
  cases later
  cases tokens
  cases stop
  rfl

theorem length_kinds (stream : TokenStream) : stream.kinds.length = stream.tokens.length := by
  unfold kinds
  rw [List.length_map]

theorem kinds_eq_nil (noTokens : stream.tokens.length ≤ 0) : stream.kinds = [] :=
  List.map_eq_nil_iff.mpr (List.eq_nil_of_length_eq_zero (Nat.le_zero.mp noTokens))

theorem exists_takes {rest : List TokenKind} (kinds : stream.kinds = kind :: rest) :
    ∃ later, stream.Takes kind later ∧ later.kinds = rest := by
  rcases stream with ⟨_ | ⟨⟨first, lexeme, position⟩, tokens⟩, stop⟩
  · cases kinds
  · obtain ⟨rfl, rfl⟩ := List.cons.inj kinds
    exact ⟨⟨tokens, stop⟩, ⟨lexeme, position, rfl⟩, rfl⟩

theorem next_kind (stream : TokenStream) :
    stream.next.kind = stream.kinds.head?.getD .endOfInput := by
  rcases stream with ⟨_ | ⟨token, tokens⟩, stop⟩ <;> rfl

/-- A stream ends, or it has a token to take. -/
theorem ends_or_takes (stream : TokenStream) :
    stream.kinds = [] ∨ ∃ kind later, stream.Takes kind later := by
  rcases stream with ⟨_ | ⟨⟨kind, lexeme, position⟩, tokens⟩, stop⟩
  · exact .inl rfl
  · exact .inr ⟨kind, ⟨tokens, stop⟩, lexeme, position, rfl⟩

theorem next_kind_of_ends (ends : stream.kinds = []) : stream.next.kind = .endOfInput := by
  rw [next_kind, ends]
  rfl

/-- If a token other than the end is next, it can be taken. -/
theorem takes_of_next_kind (next : stream.next.kind = kind) (notEnd : kind ≠ .endOfInput) :
    ∃ later, stream.Takes kind later := by
  rcases stream.ends_or_takes with ends | ⟨first, later, takes⟩
  · exact absurd (next.symm.trans (next_kind_of_ends ends)) notEnd
  · obtain rfl := takes.next_kind.symm.trans next
    exact ⟨later, takes⟩

end TokenStream

namespace Parser

variable {Result Final : Type}

/-- A parser reads a result off a stream and leaves another stream. -/
def Reads (parser : Parser Result) (stream : TokenStream) (result : Result)
    (later : TokenStream) : Prop :=
  parser stream = .ok (result, later)

variable {stream later final : TokenStream} {result : Result} {kind : TokenKind}

theorem Reads.unique {parser : Parser Result} {other : Result} {rest : TokenStream}
    (first : Reads parser stream result later) (second : Reads parser stream other rest) :
    result = other ∧ later = rest := by
  have same := first.symm.trans second
  injection same with same
  exact Prod.mk.inj same

theorem reads_pure {value : Result} :
    Reads (pure value) stream result later ↔ result = value ∧ later = stream := by
  constructor
  · intro read
    cases read
    exact ⟨rfl, rfl⟩
  · rintro ⟨rfl, rfl⟩
    rfl

theorem not_reads_fail {problem : SyntaxProblem} : ¬ Reads (fail problem) stream result later :=
  fun read => nomatch read

theorem reads_bind {parser : Parser Result} {following : Result → Parser Final} {value : Final} :
    Reads (parser >>= following) stream value final ↔
      ∃ result later, Reads parser stream result later ∧
        Reads (following result) later value final := by
  unfold Reads
  change Except.bind (parser stream) (fun read => following read.1 read.2) = _ ↔ _
  cases parser stream with
  | error problem =>
    constructor
    · intro read
      cases read
    · rintro ⟨_, _, read, _⟩
      cases read
  | ok read =>
    constructor
    · intro rest
      exact ⟨read.1, read.2, rfl, rest⟩
    · rintro ⟨_, _, same, rest⟩
      cases same
      exact rest

theorem bind_of_reads {parser : Parser Result} {following : Result → Parser Final}
    (read : Reads parser stream result later) :
    (parser >>= following) stream = following result later := by
  change Except.bind (parser stream) (fun read => following read.1 read.2) = _
  rw [show parser stream = _ from read]
  rfl

theorem bind_of_fault {parser : Parser Result} {following : Result → Parser Final}
    {error : SyntaxError} (fault : parser stream = .error error) :
    (parser >>= following) stream = .error error := by
  change Except.bind (parser stream) (fun read => following read.1 read.2) = _
  rw [fault]
  rfl

/-- A parser reads something off a stream or finds a fault. -/
theorem reads_or_faults (parser : Parser Result) (stream : TokenStream) :
    (∃ result later, Reads parser stream result later) ∨ ∃ error, parser stream = .error error := by
  cases read : parser stream with
  | ok read' => exact .inl ⟨read'.1, read'.2, read⟩
  | error error => exact .inr ⟨error, rfl⟩

theorem reads_next_bind {following : Token → Parser Final} {value : Final} :
    Reads (next >>= following) stream value final ↔
      Reads (following stream.next) stream value final :=
  Iff.rfl

theorem reads_tokensLeft (stream : TokenStream) :
    Reads tokensLeft stream stream.tokens.length stream :=
  rfl

theorem reads_tokensLeft_bind {following : Nat → Parser Final} {value : Final} :
    Reads (tokensLeft >>= following) stream value final ↔
      Reads (following stream.tokens.length) stream value final :=
  Iff.rfl

theorem reads_advance_bind {following : Unit → Parser Final} {value : Final}
    (takes : stream.Takes kind later) :
    Reads (advance >>= following) stream value final ↔ Reads (following ()) later value final := by
  obtain ⟨lexeme, position, rfl⟩ := takes
  exact Iff.rfl

theorem reads_advance (takes : stream.Takes kind later) : Reads advance stream () later := by
  obtain ⟨lexeme, position, rfl⟩ := takes
  rfl

theorem reads_advance_pure {value : Result} (takes : stream.Takes kind later) :
    Reads (do advance; return value) stream result final ↔ result = value ∧ final = later := by
  rw [reads_advance_bind takes, reads_pure]

theorem accept_of_takes (takes : stream.Takes kind later) :
    Reads (accept kind) stream true later := by
  have same := takes.next_kind
  obtain ⟨lexeme, position, rfl⟩ := takes
  show (if kind = kind then _ else _ : Parser Bool) _ = _
  rw [if_pos rfl]
  rfl

theorem accept_of_ne (other : stream.next.kind ≠ kind) :
    Reads (accept kind) stream false stream := by
  show (if stream.next.kind = kind then _ else _ : Parser Bool) _ = _
  rw [if_neg other]
  rfl

/-- A token other than the end is accepted and taken if it comes next, and nothing is taken
otherwise. -/
theorem reads_accept {answer : Bool} (notEnd : kind ≠ .endOfInput) :
    Reads (accept kind) stream answer later ↔
      answer = true ∧ stream.Takes kind later ∨
        answer = false ∧ later = stream ∧ stream.next.kind ≠ kind := by
  by_cases same : stream.next.kind = kind
  · obtain ⟨between, takes⟩ := TokenStream.takes_of_next_kind same notEnd
    constructor
    · intro accepted
      obtain ⟨rfl, rfl⟩ := accepted.unique (accept_of_takes takes)
      exact .inl ⟨rfl, takes⟩
    · rintro (⟨rfl, takes⟩ | ⟨-, -, other⟩)
      · exact accept_of_takes takes
      · exact absurd same other
  · constructor
    · intro accepted
      obtain ⟨rfl, rfl⟩ := accepted.unique (accept_of_ne same)
      exact .inr ⟨rfl, rfl, same⟩
    · rintro (⟨-, takes⟩ | ⟨rfl, rfl, -⟩)
      · exact absurd takes.next_kind same
      · exact accept_of_ne same

theorem reads_accept_bind {following : Bool → Parser Final} {value : Final}
    (notEnd : kind ≠ .endOfInput) :
    Reads (accept kind >>= following) stream value final ↔
      (∃ later, stream.Takes kind later ∧ Reads (following true) later value final) ∨
        stream.next.kind ≠ kind ∧ Reads (following false) stream value final := by
  rw [reads_bind]
  constructor
  · rintro ⟨answer, later, accepted, rest⟩
    rcases (reads_accept notEnd).mp accepted with ⟨rfl, takes⟩ | ⟨rfl, rfl, other⟩
    · exact .inl ⟨later, takes, rest⟩
    · exact .inr ⟨other, rest⟩
  · rintro (⟨later, takes, rest⟩ | ⟨other, rest⟩)
    · exact ⟨true, later, accept_of_takes takes, rest⟩
    · exact ⟨false, stream, accept_of_ne other, rest⟩

theorem reads_expect {problem : SyntaxProblem} {value : Unit} (notEnd : kind ≠ .endOfInput) :
    Reads (expect kind problem) stream value later ↔ stream.Takes kind later := by
  change Reads (if stream.next.kind = kind then advance else fail problem) stream value later ↔ _
  by_cases same : stream.next.kind = kind
  · rw [if_pos same]
    obtain ⟨between, takes⟩ := TokenStream.takes_of_next_kind same notEnd
    constructor
    · intro read
      obtain ⟨-, rfl⟩ := read.unique (reads_advance takes)
      exact takes
    · exact reads_advance
  · rw [if_neg same]
    exact ⟨fun read => absurd read not_reads_fail, fun takes => absurd takes.next_kind same⟩

theorem reads_expect_bind {problem : SyntaxProblem} {following : Unit → Parser Final}
    {value : Final} (notEnd : kind ≠ .endOfInput) :
    Reads (expect kind problem >>= following) stream value final ↔
      ∃ later, stream.Takes kind later ∧ Reads (following ()) later value final := by
  rw [reads_bind]
  constructor
  · rintro ⟨_, later, expected, rest⟩
    exact ⟨later, (reads_expect notEnd).mp expected, rest⟩
  · rintro ⟨later, takes, rest⟩
    exact ⟨(), later, (reads_expect notEnd).mpr takes, rest⟩

theorem reads_expectName_bind {problem : SyntaxProblem} {following : String → Parser Final}
    {value : Final} :
    Reads (expectName problem >>= following) stream value final ↔
      ∃ name later, stream.Takes (.name name) later ∧
        Reads (following name) later value final := by
  rw [reads_bind]
  constructor
  · rintro ⟨name, later, expected, rest⟩
    rcases stream with ⟨_ | ⟨⟨kind, lexeme, position⟩, tokens⟩, stop⟩
    · cases expected
    · cases kind <;> cases expected
      exact ⟨_, _, ⟨_, _, rfl⟩, rest⟩
  · rintro ⟨name, later, ⟨lexeme, position, rfl⟩, rest⟩
    exact ⟨name, later, rfl, rest⟩

/-! ### Reading from tokens of given kinds -/

/-- A parser reads a result off every stream with tokens of these kinds and leaves a stream with
tokens of those. -/
def ReadsTo (parser : Parser Result) (input : List TokenKind) (result : Result)
    (rest : List TokenKind) : Prop :=
  ∀ stream : TokenStream, stream.kinds = input →
    ∃ later : TokenStream, later.kinds = rest ∧ Reads parser stream result later

variable {input between rest : List TokenKind} {value : Final}

theorem readsTo_pure : ReadsTo (pure result) input result input :=
  fun stream kinds => ⟨stream, kinds, rfl⟩

theorem ReadsTo.bind {parser : Parser Result} {following : Result → Parser Final}
    (first : ReadsTo parser input result between)
    (second : ReadsTo (following result) between value rest) :
    ReadsTo (parser >>= following) input value rest := by
  intro stream kinds
  obtain ⟨later, kinds, firstRead⟩ := first stream kinds
  obtain ⟨final, kinds, secondRead⟩ := second later kinds
  exact ⟨final, kinds, reads_bind.mpr ⟨result, later, firstRead, secondRead⟩⟩

theorem readsTo_next {following : Token → Parser Final}
    (reads : ∀ token : Token, token.kind = input.head?.getD .endOfInput →
      ReadsTo (following token) input value rest) :
    ReadsTo (next >>= following) input value rest := by
  intro stream kinds
  exact reads stream.next (kinds ▸ stream.next_kind) stream kinds

theorem readsTo_tokensLeft {following : Nat → Parser Final}
    (reads : ReadsTo (following input.length) input value rest) :
    ReadsTo (tokensLeft >>= following) input value rest := by
  intro stream kinds
  have same := reads stream kinds
  rw [← kinds, TokenStream.length_kinds] at same
  exact same

theorem readsTo_advance : ReadsTo advance (kind :: rest) () rest := by
  intro stream kinds
  obtain ⟨later, takes, kinds⟩ := TokenStream.exists_takes kinds
  exact ⟨later, kinds, reads_advance takes⟩

theorem readsTo_accept : ReadsTo (accept kind) (kind :: rest) true rest := by
  intro stream kinds
  obtain ⟨later, takes, kinds⟩ := TokenStream.exists_takes kinds
  exact ⟨later, kinds, accept_of_takes takes⟩

theorem readsTo_accept_false (other : input.head? ≠ some kind) (notEnd : kind ≠ .endOfInput) :
    ReadsTo (accept kind) input false input := by
  intro stream kinds
  refine ⟨stream, kinds, accept_of_ne fun same => ?_⟩
  obtain ⟨later, takes⟩ := TokenStream.takes_of_next_kind same notEnd
  rw [← kinds, takes.kinds_eq] at other
  exact other rfl

theorem readsTo_expect {problem : SyntaxProblem} (notEnd : kind ≠ .endOfInput) :
    ReadsTo (expect kind problem) (kind :: rest) () rest := by
  intro stream kinds
  obtain ⟨later, takes, kinds⟩ := TokenStream.exists_takes kinds
  exact ⟨later, kinds, (reads_expect notEnd).mpr takes⟩

theorem readsTo_expectName {problem : SyntaxProblem} {name : String} :
    ReadsTo (expectName problem) (.name name :: rest) name rest := by
  intro stream kinds
  obtain ⟨later, ⟨lexeme, position, rfl⟩, same⟩ := TokenStream.exists_takes kinds
  exact ⟨later, same, rfl⟩

end Parser

theorem Expression.parse_of_lexed {source : String} {tokens : List Token}
    (lexed : tokenize source = .ok tokens) :
    Expression.parse source = Expression.ofTokens tokens := by
  unfold Expression.parse
  rw [lexed]

end Reckon
