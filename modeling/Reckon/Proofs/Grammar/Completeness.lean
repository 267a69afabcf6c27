/-
This file shows that the parser reads all of the grammar: if a part of an
expression is spelled at the front of the tokens, and what follows could not
continue it, the rule of the parser for that part reads it and leaves the rest.

A chain of operators is read from its first operand on, but derived from its
last operator. So the induction says of a chain only that its first operand is
read, and that reading on from there comes to reading on after the last.
-/

import Reckon.Proofs.Grammar.Soundness
import Reckon.Proofs.Token.Scanning

namespace Reckon

open Reckon.Parser

namespace Grammar

/-! ### What may follow -/

/-- The tokens do not begin with one that binds what stands before it so tightly. -/
def Loose (bound : Nat) : List TokenKind → Prop
  | [] => True
  | kind :: _ => strength kind < bound

theorem Loose.mono {bound greater : Nat} {rest : List TokenKind} (loose : Loose bound rest)
    (le : bound ≤ greater) : Loose greater rest := by
  cases rest with
  | nil => trivial
  | cons kind rest => exact Nat.lt_of_lt_of_le loose le

theorem Loose.head_ne {bound : Nat} {rest : List TokenKind} {kind : TokenKind}
    (loose : Loose bound rest) (tight : bound ≤ strength kind) : rest.head? ≠ some kind := by
  intro same
  cases rest with
  | nil => cases same
  | cons first rest =>
    cases same
    exact absurd loose (Nat.not_lt_of_le tight)

/-- Nothing that follows a value before a semicolon continues it. -/
theorem Limits.loose {uses : UseLimit} {input rest : List TokenKind} {bound : Nat}
    (limited : Limits uses input (.semicolon :: rest)) : Loose (bound + 1) input := by
  cases limited <;> exact Nat.succ_pos _

/-- What follows a branch continues it no more than what follows all branches does. -/
theorem Spells.loose_further {levels : Nat} {branches : List (Expression × Expression)}
    {input rest : List TokenKind} (spelled : Spells levels (.further branches) input rest)
    (loose : Loose 1 rest) : Loose 1 input := by
  cases spelled with
  | noFurther => exact loose
  | further => exact Nat.succ_pos _

/-! ### Chains of operators -/

variable {levels : Nat} {nested : Nested} {input rest : List TokenKind} {tree : Expression}

/-- The first operand of a chain is read off the tokens, and reading on from there comes to
reading on after the last. -/
def ReadsChain (nested : Nested) (rule : Rule) (input : List TokenKind) (tree : Expression)
    (rest : List TokenKind) : Prop :=
  ∃ first between, ReadsTo (rule.operandParser nested) input first between ∧
    ∀ steps, between.length ≤ steps → ∃ steps', rest.length ≤ steps' ∧
      ∀ {result final},
        ReadsTo (chainFrom rule.operator? (rule.operandParser nested) steps' tree) rest result
          final →
        ReadsTo (chainFrom rule.operator? (rule.operandParser nested) steps first) between result
          final

theorem Rule.operator?_of_loose {rule : Rule} {kind : TokenKind}
    (loose : Grammar.strength kind < rule.strength) : rule.operator? kind = none := by
  cases joined : rule.operator? kind with
  | none => rfl
  | some operator =>
    have tight := (Rule.operator?_eq_some.mp joined).strength_eq
    omega

theorem chainFrom_stops {rule : Rule} {operand : Parser Expression} (steps : Nat)
    (loose : Loose rule.strength rest) :
    ReadsTo (chainFrom rule.operator? operand steps tree) rest tree rest := by
  cases steps with
  | zero => exact readsTo_pure
  | succ steps =>
    refine readsTo_next fun token kind => ?_
    have none : rule.operator? token.kind = none := by
      rw [kind]
      cases rest with
      | nil => exact Rule.operator?_of_loose (by cases rule <;> decide)
      | cons first rest => exact Rule.operator?_of_loose loose
    rw [none]
    exact readsTo_pure

theorem chainFrom_joins {rule : Rule} {kind : TokenKind} {operator : BinaryOperator}
    {operand : Parser Expression} {steps : Nat} {left right result : Expression}
    {after final : List TokenKind} (joins : Joins rule kind operator)
    (operandRead : ReadsTo operand after right rest)
    (later : ReadsTo (chainFrom rule.operator? operand steps (.binary operator left right)) rest
      result final) :
    ReadsTo (chainFrom rule.operator? operand (steps + 1) left) (kind :: after) result final := by
  refine readsTo_next fun token same => ?_
  rw [show rule.operator? token.kind = some operator from
    same ▸ Rule.operator?_eq_some.mpr joins]
  exact readsTo_advance.bind (operandRead.bind later)

theorem ReadsChain.finish {rule : Rule} (chained : ReadsChain nested rule input tree rest)
    (loose : Loose rule.strength rest) :
    ReadsTo (chain rule.operator? (rule.operandParser nested)) input tree rest := by
  obtain ⟨first, between, firstRead, later⟩ := chained
  obtain ⟨steps, -, later⟩ := later between.length (Nat.le_refl _)
  exact firstRead.bind (readsTo_tokensLeft (later (chainFrom_stops steps loose)))

theorem ReadsChain.single {rule : Rule}
    (read : ReadsTo (rule.operandParser nested) input tree rest) :
    ReadsChain nested rule input tree rest :=
  ⟨tree, rest, read, fun steps enough => ⟨steps, enough, id⟩⟩

theorem ReadsChain.join {rule : Rule} {kind : TokenKind} {operator : BinaryOperator}
    {left right : Expression} {after : List TokenKind} (joins : Joins rule kind operator)
    (chained : ReadsChain nested rule input left (kind :: after))
    (read : ReadsTo (rule.operandParser nested) after right rest)
    (shorter : rest.length ≤ after.length) :
    ReadsChain nested rule input (.binary operator left right) rest := by
  obtain ⟨first, between, firstRead, later⟩ := chained
  refine ⟨first, between, firstRead, fun steps enough => ?_⟩
  obtain ⟨steps', enough', later⟩ := later steps enough
  obtain ⟨fewer, rfl⟩ : ∃ fewer, steps' = fewer + 1 := Nat.exists_eq_add_one.mpr (by
    rw [List.length_cons] at enough'
    omega)
  refine ⟨fewer, ?_, fun rest => later (chainFrom_joins joins read rest)⟩
  rw [List.length_cons] at enough'
  omega

/-! ### The rules -/

/-- What the parser does with a part of an expression that is spelled at the front of the
tokens, as long as nothing follows that continues it. -/
def Phrase.Completes (levels : Nat) (input rest : List TokenKind) : Phrase → Prop
  | .expression tree => Loose 1 rest → ReadsTo (nestedWithin levels).expression input tree rest
  | .operands rule tree =>
    Loose (rule.strength + 1) rest → ReadsChain (nestedWithin levels) rule input tree rest
  | .power tree => Loose 8 rest → ReadsTo (Parser.power (nestedWithin levels)) input tree rest
  | .unary tree => ReadsTo (Parser.unary (nestedWithin levels)) input tree rest
  | .primary tree => ReadsTo (Parser.primary (nestedWithin levels)) input tree rest
  | .arguments trees => Loose 1 rest → rest.head? ≠ some .comma → ∀ steps, input.length < steps →
    ReadsTo (argumentsFrom (nestedWithin levels) steps) input trees rest
  | .further branches => Loose 1 rest → rest.head? ≠ some .elifWord → ∀ steps,
    input.length ≤ steps → ReadsTo (branchesFrom (nestedWithin levels) steps) input branches rest

theorem Rule.readsTo_operand {rule : Rule}
    (completes : (rule.operand tree).Completes levels input rest)
    (loose : Loose (rule.strength + 1) rest) :
    ReadsTo (rule.operandParser (nestedWithin levels)) input tree rest := by
  cases rule with
  | product => exact completes loose
  | disjunction => exact (completes (loose.mono (by decide))).finish loose
  | conjunction => exact (completes (loose.mono (by decide))).finish loose
  | equality => exact (completes (loose.mono (by decide))).finish loose
  | comparison => exact (completes (loose.mono (by decide))).finish loose
  | sum => exact (completes (loose.mono (by decide))).finish loose

theorem readsTo_disjunction
    (completes : (Phrase.operands .disjunction tree).Completes levels input rest)
    (loose : Loose 2 rest) : ReadsTo (Parser.disjunction (nestedWithin levels)) input tree rest :=
  (completes (loose.mono (by decide))).finish loose

theorem readsTo_useLimit {uses : UseLimit} {after : List TokenKind}
    (limited : Limits uses input (.semicolon :: after)) :
    ReadsTo useLimit input uses (.semicolon :: after) := by
  cases limited with
  | absent => exact .bind (readsTo_accept_false nofun (by decide)) readsTo_pure
  | count _ counted =>
    refine .bind readsTo_accept (.bind (readsTo_accept_false nofun (by decide))
      (readsTo_next fun token kind => ?_))
    rw [show token.kind = .integer _ from kind]
    dsimp only
    rw [if_neg (by decide), counted]
    exact readsTo_advance.bind readsTo_pure
  | negated _ counted =>
    refine .bind readsTo_accept (.bind readsTo_accept (readsTo_next fun token kind => ?_))
    rw [show token.kind = .integer _ from kind]
    dsimp only
    rw [if_pos rfl, counted]
    exact readsTo_advance.bind readsTo_pure

theorem readsTo_binding {name : String} {value body : Expression} {uses : UseLimit}
    {limit after : List TokenKind}
    (valueRead : (Phrase.operands .disjunction value).Completes levels input limit)
    (limited : Limits uses limit (.semicolon :: after))
    (bodyRead : ReadsTo (nestedWithin levels).expression after body rest) :
    ReadsTo (Parser.expression (nestedWithin levels))
      (.letWord :: .name name :: .assign :: input) (.binding name value uses body) rest := by
  refine readsTo_next fun token kind => ?_
  rw [show token.kind = .letWord from kind]
  refine readsTo_advance.bind (readsTo_expectName.bind ?_)
  refine (readsTo_expect (by decide)).bind ?_
  refine (readsTo_disjunction valueRead limited.loose).bind ?_
  refine (readsTo_useLimit limited).bind ((readsTo_expect (by decide)).bind ?_)
  exact bodyRead.bind readsTo_pure

theorem readsTo_branch {condition result : Expression} {first : List TokenKind}
    (conditionRead : (Phrase.operands .disjunction condition).Completes levels input
      (.colon :: first))
    (resultRead : ReadsTo (nestedWithin levels).expression first result rest) :
    ReadsTo (branch (nestedWithin levels)) input (condition, result) rest :=
  (readsTo_disjunction conditionRead (by decide : 0 < 2)).bind
    ((readsTo_expect (by decide)).bind (resultRead.bind readsTo_pure))

theorem readsTo_conditional {first : Expression × Expression}
    {branches : List (Expression × Expression)} {otherwise : Expression}
    {after final : List TokenKind}
    (firstRead : ReadsTo (branch (nestedWithin levels)) input first after)
    (furtherRead : (Phrase.further branches).Completes levels after
      (.elseWord :: .colon :: final))
    (otherwiseRead : ReadsTo (nestedWithin levels).expression final otherwise rest) :
    ReadsTo (Parser.expression (nestedWithin levels)) (.ifWord :: input)
      (.conditional (first :: branches) (some otherwise)) rest := by
  refine readsTo_next fun token kind => ?_
  rw [show token.kind = .ifWord from kind]
  refine readsTo_advance.bind (firstRead.bind (readsTo_tokensLeft ?_))
  refine (furtherRead (by decide : 0 < 1) nofun _ (Nat.le_refl _)).bind ?_
  refine (readsTo_expect (by decide)).bind ((readsTo_expect (by decide)).bind ?_)
  exact otherwiseRead.bind readsTo_pure

/-- An expression that does not begin with a reserved word is read as a ternary choice. -/
theorem readsTo_expression_of_begins (begins : ∃ kind after, input = kind :: after ∧
      beginsOperand kind = true)
    (read : ReadsTo (Parser.ternary nested) input tree rest) :
    ReadsTo (Parser.expression nested) input tree rest := by
  refine readsTo_next fun token same => ?_
  obtain ⟨kind, after, rfl, begins⟩ := begins
  rw [show token.kind = kind from same]
  cases kind <;> first | exact read | cases begins

theorem readsTo_unary_of_primary (begins : ∃ kind after, input = kind :: after ∧
      kind ≠ .minus ∧ kind ≠ .not)
    (read : ReadsTo (Parser.primary nested) input tree rest) :
    ReadsTo (Parser.unary nested) input tree rest := by
  refine readsTo_next fun token same => ?_
  obtain ⟨kind, after, rfl, notMinus, notNot⟩ := begins
  rw [show token.kind = kind from same]
  cases kind <;> first | exact read | exact absurd rfl notMinus | exact absurd rfl notNot

theorem readsTo_acceptHint {name : String} {after : List TokenKind}
    (opens : Opens input (some name) after) : ReadsTo acceptHint input (some name) after :=
  fun _ kinds => acceptHint_of_opens (kinds ▸ opens)

theorem readsTo_acceptHint_none (noCall : ∀ hint after, ¬ Opens input hint after) :
    ReadsTo acceptHint input none input := by
  intro stream kinds
  cases reads : acceptHint stream with
  | error problem =>
    unfold acceptHint at reads
    split at reads <;> cases reads
  | ok read =>
    rcases acceptHint_sound reads with ⟨name, -, opens⟩ | ⟨same, rfl, -⟩
    · exact absurd (kinds ▸ opens) (noCall _ _)
    · refine ⟨read.2, kinds, reads.trans ?_⟩
      rw [← same]

/-- A call is read once its arguments are. -/
theorem readsTo_call {name : String} {hint : Option String} {arguments : List Expression}
    {after : List TokenKind} (opens : Opens input hint after)
    (argumentsRead : ReadsTo (callArguments nested) after arguments rest) :
    ReadsTo (Parser.primary nested) (.name name :: input) (.call name hint arguments) rest := by
  refine readsTo_next fun token kind => ?_
  rw [show token.kind = .name name from kind]
  refine readsTo_advance.bind ?_
  cases hint with
  | none =>
    rw [opens.eq_of_none]
    exact readsTo_accept.bind (argumentsRead.bind readsTo_pure)
  | some hint =>
    have notParenthesis : input.head? ≠ some .leftParen := by
      rw [opens.eq_of_hint]
      exact nofun
    refine .bind (readsTo_accept_false notParenthesis (by decide)) ?_
    exact (readsTo_acceptHint opens).bind (argumentsRead.bind readsTo_pure)

theorem readsTo_callArguments {arguments : List Expression}
    (spelled : Spells levels (.arguments arguments) input (.rightParen :: rest))
    (completes : (Phrase.arguments arguments).Completes levels input (.rightParen :: rest)) :
    ReadsTo (callArguments (nestedWithin levels)) input arguments rest := by
  have notClosed : input.head? ≠ some .rightParen := spelled.head_ne_rightParen
  refine (readsTo_accept_false notClosed (by decide)).bind (readsTo_tokensLeft ?_)
  refine (completes (by decide : 0 < 1) nofun _ (Nat.lt_succ_self _)).bind ?_
  exact (readsTo_expect (by decide)).bind readsTo_pure

/-- The parser reads every part of an expression that is spelled at the front of the tokens. -/
theorem Spells.completes {phrase : Phrase} (spelled : Spells levels phrase input rest) :
    phrase.Completes levels input rest := by
  induction spelled with
  | binding _ limited _ valueCompletes bodyCompletes =>
    exact fun loose => readsTo_binding valueCompletes limited (bodyCompletes loose)
  | conditional _ _ furtherSpelled _ conditionCompletes resultCompletes furtherCompletes
      otherwiseCompletes =>
    intro loose
    have resultRead := resultCompletes (furtherSpelled.loose_further (by decide : 0 < 1))
    exact readsTo_conditional (readsTo_branch conditionCompletes resultRead) furtherCompletes
      (otherwiseCompletes loose)
  | ternary conditionSpelled _ _ conditionCompletes trueCompletes falseCompletes =>
    intro loose
    refine readsTo_expression_of_begins (conditionSpelled.begins rfl) ?_
    refine (readsTo_disjunction conditionCompletes (by decide : 1 < 2)).bind ?_
    refine readsTo_accept.bind ((trueCompletes (by decide : 0 < 1)).bind ?_)
    exact (readsTo_expect (by decide)).bind ((falseCompletes loose).bind readsTo_pure)
  | alone treeSpelled completes =>
    intro loose
    refine readsTo_expression_of_begins (treeSpelled.begins rfl) ?_
    refine (readsTo_disjunction completes (loose.mono (by decide))).bind ?_
    exact .bind (readsTo_accept_false (loose.head_ne (by decide)) (by decide)) readsTo_pure
  | noFurther =>
    intro _ notElif steps _
    cases steps with
    | zero => exact readsTo_pure
    | succ steps => exact .bind (readsTo_accept_false notElif (by decide)) readsTo_pure
  | further conditionSpelled resultSpelled furtherSpelled conditionCompletes resultCompletes
      furtherCompletes =>
    intro loose notElif steps enough
    have shorter := (resultSpelled.suffix.trans
      (suffix_of_cons_suffix conditionSpelled.suffix)).length_le
    rw [List.length_cons] at enough
    obtain ⟨fewer, rfl⟩ := Nat.exists_eq_add_one.mpr (Nat.zero_lt_of_lt enough)
    have resultRead := resultCompletes (furtherSpelled.loose_further loose)
    refine readsTo_accept.bind ((readsTo_branch conditionCompletes resultRead).bind ?_)
    exact (furtherCompletes loose notElif fewer (by omega)).bind readsTo_pure
  | operand rule _ completes => exact fun loose => .single (rule.readsTo_operand completes loose)
  | join joins _ rightSpelled leftCompletes rightCompletes =>
    intro loose
    have left := leftCompletes (joins.strength_eq ▸ Nat.lt_succ_self _)
    exact left.join joins (Rule.readsTo_operand rightCompletes loose) rightSpelled.suffix.length_le
  | base _ completes =>
    intro loose
    refine completes.bind ?_
    exact .bind (readsTo_accept_false (loose.head_ne (by decide)) (by decide)) readsTo_pure
  | raise _ _ baseCompletes exponentCompletes =>
    exact fun loose => baseCompletes.bind (readsTo_accept.bind
      ((exponentCompletes loose).bind readsTo_pure))
  | negate _ completes =>
    refine readsTo_next fun token kind => ?_
    rw [show token.kind = .minus from kind]
    exact readsTo_advance.bind (completes.bind readsTo_pure)
  | not _ completes =>
    refine readsTo_next fun token kind => ?_
    rw [show token.kind = .not from kind]
    exact readsTo_advance.bind (completes.bind readsTo_pure)
  | primary primarySpelled completes =>
    exact readsTo_unary_of_primary primarySpelled.begins_primary completes
  | integer | float | text | boolean | null =>
    refine readsTo_next fun token kind => ?_
    rw [show token.kind = _ from kind]
    exact readsTo_advance.bind readsTo_pure
  | grouping _ completes =>
    refine readsTo_next fun token kind => ?_
    rw [show token.kind = .leftParen from kind]
    refine readsTo_advance.bind ((completes (by decide : 0 < 1)).bind ?_)
    exact (readsTo_expect (by decide)).bind readsTo_pure
  | cast _ completes =>
    refine readsTo_next fun token kind => ?_
    rw [show token.kind = .outWord from kind]
    refine readsTo_advance.bind ((readsTo_expect (by decide)).bind ?_)
    refine readsTo_expectName.bind ((readsTo_expect (by decide)).bind ?_)
    refine (readsTo_expect (by decide)).bind ((completes (by decide : 0 < 1)).bind ?_)
    exact (readsTo_expect (by decide)).bind readsTo_pure
  | «variable» noCall =>
    refine readsTo_next fun token kind => ?_
    rw [show token.kind = .name _ from kind]
    refine readsTo_advance.bind (.bind (readsTo_accept_false ?_ (by decide)) ?_)
    · intro parenthesis
      obtain ⟨after, rfl⟩ := List.head?_eq_some_iff.mp parenthesis
      exact noCall _ _ (.parenthesis after)
    · exact (readsTo_acceptHint_none noCall).bind readsTo_pure
  | emptyCall opens => exact readsTo_call opens (readsTo_accept.bind readsTo_pure)
  | call opens argumentsSpelled completes =>
    exact readsTo_call opens (readsTo_callArguments argumentsSpelled completes)
  | lastArgument _ completes =>
    intro loose notComma steps enough
    obtain ⟨fewer, rfl⟩ := Nat.exists_eq_add_one.mpr (Nat.zero_lt_of_lt enough)
    refine (completes loose).bind ?_
    exact .bind (readsTo_accept_false notComma (by decide)) readsTo_pure
  | arguments firstSpelled _ completes argumentsCompletes =>
    intro loose notComma steps enough
    obtain ⟨fewer, rfl⟩ := Nat.exists_eq_add_one.mpr (Nat.zero_lt_of_lt enough)
    have shorter := firstSpelled.suffix.length_le
    rw [List.length_cons] at shorter
    refine (completes (by decide : 0 < 1)).bind (readsTo_accept.bind ?_)
    exact (argumentsCompletes loose notComma fewer (by omega)).bind readsTo_pure

/-! ### Whole texts -/

theorem ofTokens_cons {token : Token} {rest : List Token} (notEnd : token.isEnd = false)
    (more : rest ≠ []) :
    TokenStream.ofTokens (token :: rest) =
      ⟨token :: (TokenStream.ofTokens rest).tokens, (TokenStream.ofTokens rest).stop⟩ := by
  cases rest with
  | nil => exact absurd rfl more
  | cons second rest =>
    show (if token.isEnd then _ else _ : TokenStream) = _
    rw [notEnd]
    rfl

/-- Only the last token of a text says where it ends. -/
theorem ofTokens_concat {body : List Token} (last : Token)
    (noEnd : ∀ token ∈ body, token.kind ≠ .endOfInput) :
    TokenStream.ofTokens (body ++ [last]) =
      ⟨body ++ (TokenStream.ofTokens [last]).tokens, (TokenStream.ofTokens [last]).stop⟩ := by
  induction body with
  | nil => rfl
  | cons token rest inductionHypothesis =>
    obtain ⟨here, later⟩ := List.forall_mem_cons.mp noEnd
    have more : rest ++ [last] ≠ [] := List.concat_ne_nil _ rest
    rw [List.cons_append, ofTokens_cons (beq_false_of_ne here) more, inductionHypothesis later,
      List.cons_append]

theorem ofTokens_append_end {body : List Token} {stop : Nat}
    (noEnd : ∀ token ∈ body, token.kind ≠ .endOfInput) :
    TokenStream.ofTokens (body ++ [.endAt stop]) = ⟨body, stop⟩ := by
  rw [ofTokens_concat _ noEnd]
  show (⟨body ++ [], stop⟩ : TokenStream) = _
  rw [List.append_nil]

/-- Reads an expression and the end of the input, with so many nested parts open at most. -/
def completeWithin (levels : Nat) : Parser Expression := do
  let result ← (nestedWithin levels).expression
  let token ← next
  if token.isEnd then return result else fail (.tokenAfterEnd token.shown)

/-- Whatever the parser reads to the end is spelled, as long as no token but the last is the
end of the input. -/
theorem spells_of_reads {stream later : TokenStream} {tree : Expression}
    (noEnd : .endOfInput ∉ stream.kinds) (read : Reads (completeWithin levels) stream tree later) :
    Spells levels (.expression tree) stream.kinds [] := by
  obtain ⟨result, between, resultRead, read⟩ := reads_bind.mp read
  have spelled := (nestedWithin_sound levels).expression resultRead
  rw [reads_next_bind] at read
  rcases between.ends_or_takes with ends | ⟨kind, after, takes⟩
  · have atEnd : between.next.isEnd = true := beq_iff_eq.mpr (TokenStream.next_kind_of_ends ends)
    rw [if_pos atEnd] at read
    obtain ⟨rfl, rfl⟩ := reads_pure.mp read
    rw [ends] at spelled
    exact spelled
  · have member : kind ∈ stream.kinds := by
      refine spelled.suffix.subset ?_
      rw [takes.kinds_eq]
      exact List.mem_cons_self
    have onward : between.next.isEnd = false := by
      refine beq_false_of_ne ?_
      rw [takes.next_kind]
      exact fun same => noEnd (same ▸ member)
    rw [onward] at read
    exact absurd read not_reads_fail

theorem derives_of_reads {stream later : TokenStream} {tree : Expression}
    (noEnd : .endOfInput ∉ stream.kinds) (read : Reads complete stream tree later) :
    Derives stream.kinds tree :=
  spells_of_reads noEnd read

theorem Spells.readsTo (spelled : Spells levels (.expression tree) input []) :
    ReadsTo (completeWithin levels) input tree [] := by
  have read : ReadsTo (nestedWithin levels).expression input tree [] := spelled.completes trivial
  refine read.bind (readsTo_next fun token kind => ?_)
  have atEnd : token.isEnd = true := beq_iff_eq.mpr kind
  rw [if_pos atEnd]
  exact readsTo_pure

theorem Derives.readsTo (derived : Derives input tree) : ReadsTo complete input tree [] :=
  Spells.readsTo derived

/-- Tokens spell no more than one tree. -/
theorem Derives.unique {tree' : Expression} (derived : Derives input tree)
    (derived' : Derives input tree') : tree = tree' := by
  let stream : TokenStream := ⟨input.map fun kind => ⟨kind, "", 0⟩, 0⟩
  have kinds : stream.kinds = input := by
    show (input.map fun kind => (⟨kind, "", 0⟩ : Token)).map Token.kind = input
    rw [List.map_map]
    exact List.map_id input
  obtain ⟨later, -, read⟩ := derived.readsTo stream kinds
  obtain ⟨later', -, read'⟩ := derived'.readsTo stream kinds
  exact (read.unique read').1

theorem ofTokens_eq_ok_iff {body : List Token} {stop : Nat}
    (noEnd : ∀ token ∈ body, token.kind ≠ .endOfInput) :
    Expression.ofTokens (body ++ [.endAt stop]) = .ok tree ↔
      Derives (body.map Token.kind) tree := by
  unfold Expression.ofTokens
  rw [ofTokens_append_end noEnd]
  constructor
  · intro read
    cases reads : complete ⟨body, stop⟩ with
    | error problem =>
      rw [reads] at read
      cases read
    | ok result =>
      rw [reads] at read
      cases read
      refine derives_of_reads (fun member => ?_) reads
      obtain ⟨token, member, same⟩ := List.mem_map.mp member
      exact noEnd token member same
  · intro derived
    obtain ⟨later, -, read⟩ := derived.readsTo ⟨body, stop⟩ rfl
    rw [show complete ⟨body, stop⟩ = _ from read]
    rfl

/-- The parser accepts its grammar and nothing else: it reads a tree off the tokens of a text
exactly if the tokens before the end of the input spell it, and they spell no other. -/
theorem ofTokens_eq_ok_iff_derives {source : String} {tokens : List Token}
    (read : tokenize source = .ok tokens) :
    ∃ body stop, tokens = body ++ [.endAt stop] ∧
      (∀ token ∈ body, token.isEnd = false) ∧
      (∀ tree, Expression.ofTokens tokens = .ok tree ↔ Derives (body.map Token.kind) tree) ∧
      ∀ tree tree', Derives (body.map Token.kind) tree → Derives (body.map Token.kind) tree' →
        tree = tree' := by
  obtain ⟨body, stop, rfl, noEnd⟩ := tokenize_tokens (fun _ => recognise_ne_endOfInput) read
  refine ⟨body, stop, rfl, fun token member => beq_false_of_ne (noEnd token member), ?_, ?_⟩
  · exact fun tree => ofTokens_eq_ok_iff noEnd
  · exact fun tree tree' derived derived' => derived.unique derived'

/-- The tokens of `f<T>(1)<2`: a call with a type hint, compared with a number. -/
def comparedCall : List Token :=
  [⟨.name "f", "f", 0⟩, ⟨.less, "<", 1⟩, ⟨.name "T", "T", 2⟩, ⟨.greater, ">", 3⟩,
    ⟨.leftParen, "(", 4⟩, ⟨.integer 1, "1", 5⟩, ⟨.rightParen, ")", 6⟩, ⟨.less, "<", 7⟩,
    ⟨.integer 2, "2", 8⟩, .endAt 9]

theorem ofTokens_eq_ok_iff_derives_comparedCall :
    tokenize "f<T>(1)<2" = .ok comparedCall ∧
      ∃ body stop, comparedCall = body ++ [.endAt stop] ∧
        (∀ token ∈ body, token.isEnd = false) ∧
        (∀ tree, Expression.ofTokens comparedCall = .ok tree ↔
          Derives (body.map Token.kind) tree) ∧
        ∀ tree tree', Derives (body.map Token.kind) tree → Derives (body.map Token.kind) tree' →
          tree = tree' :=
  ⟨rfl, ofTokens_eq_ok_iff_derives (show tokenize "f<T>(1)<2" = _ from rfl)⟩

end Grammar

end Reckon
