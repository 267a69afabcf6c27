/-
This file says which definitions can be used under the names in them. The names
of a definition are words of its own notation, not those of the expression
language: a name that is a reserved word there, and a function whose name ends
with a point or has two in a row, can be defined but not named in an expression.
Every other function is called by its name, and every other parameter is a
variable.
-/

import Mathlib.Data.List.Infix
import Reckon.Proofs.Function.Definitions
import Reckon.Proofs.Grammar.Texts

namespace Reckon

/-! ### Names at the front of expressions -/

/-- The name that a variable or a call begins with. -/
def Expression.named? : Expression → Option String
  | .variable name | .call name _ _ => some name
  | _ => none

namespace Grammar

/-- The name that a part of an expression begins with, where it is a variable or a call. -/
def Phrase.named? : Phrase → Option String
  | .expression tree | .operands _ tree | .power tree | .unary tree | .primary tree => tree.named?
  | .arguments _ | .further _ => none

variable {levels : Nat} {phrase : Phrase} {input rest kinds : List TokenKind} {name : String}
  {tree : Expression} {literals : List Expression}

theorem Rule.named?_operand (rule : Rule) (tree : Expression) :
    (rule.operand tree).named? = tree.named? := by
  cases rule <;> rfl

/-- Variables and calls are spelled with their name in front. -/
theorem Spells.head?_eq_name (spelled : Spells levels phrase input rest)
    (named : phrase.named? = some name) : input.head? = some (.name name) := by
  induction spelled with
  | operand rule _ inductionHypothesis =>
    exact inductionHypothesis ((rule.named?_operand _).trans named)
  | alone _ inductionHypothesis | base _ inductionHypothesis | primary _ inductionHypothesis =>
    exact inductionHypothesis named
  | «variable» | emptyCall | call =>
    cases named
    rfl
  | _ => cases named

/-- Only a name is read as a variable or as what is called. -/
theorem isName_of_parse {source : String} (parsed : Expression.parse source = .ok tree)
    (named : tree.named? = some name) : IsName name := by
  obtain ⟨kinds, -, readable, derived⟩ := exists_scans_of_parse parsed
  exact readable _ (List.mem_of_head? (derived.head?_eq_name named))

/-! ### Calls with literals -/

/-- The tokens that are literals. -/
inductive IsLiteral : TokenKind → Expression → Prop
  | integer (number : Int64) : IsLiteral (.integer number) (.integer number)
  | float (number : Binary64) : IsLiteral (.float number) (.float number)
  | text (content : String) : IsLiteral (.text content) (.text content)
  | boolean (truth : Bool) : IsLiteral (.boolean truth) (.boolean truth)
  | null : IsLiteral .null .null

theorem IsLiteral.spells {kind : TokenKind} (literal : IsLiteral kind tree) :
    Spells (levels + 1) (.expression tree) (kind :: rest) rest := by
  refine Spells.expression_of_primary ?_
  cases literal with
  | integer => exact .integer
  | float => exact .float
  | text => exact .text
  | boolean => exact .boolean
  | null => exact .null

/-- Literals with commas between them are arguments. -/
theorem spells_literals {kind : TokenKind} (first : IsLiteral kind tree)
    (others : List.Forall₂ IsLiteral kinds literals) :
    Spells (levels + 1) (.arguments (tree :: literals))
      ((kind :: kinds).intersperse .comma ++ rest) rest := by
  induction others generalizing kind tree with
  | nil => exact .lastArgument first.spells
  | cons second _ inductionHypothesis =>
    exact .arguments first.spells (inductionHypothesis second)

/-- Characters list literals: these stand between commas. -/
def ListsLiterals (characters : List Char) (literals : List Expression) : Prop :=
  ∃ kinds, Scans characters (kinds.intersperse .comma) ∧ List.Forall₂ IsLiteral kinds literals

/-- A name with literals in parentheses after it is a call. -/
theorem derives_call (literal : List.Forall₂ IsLiteral kinds literals) :
    Derives (.name name :: .leftParen :: (kinds.intersperse .comma ++ [.rightParen]))
      (.call name none literals) := by
  refine @Spells.expression_of_primary (nestingLimit - 1) _ _ _ ?_
  cases literal with
  | nil => exact .emptyCall (.parenthesis _)
  | cons first others => exact .call (.parenthesis _) (spells_literals first others)

theorem derives_variable : Derives [.name name] (.variable name) := by
  refine @Spells.expression_of_primary (nestingLimit - 1) _ _ _ (.variable ?_)
  rintro hint after ⟨⟩

/-- A text is read as the variable of that name exactly if it is a name. -/
theorem parse_eq_variable_iff :
    Expression.parse name = .ok (.variable name) ↔ IsName name := by
  refine ⟨fun parsed => isName_of_parse parsed rfl, ?_⟩
  rintro ⟨first, parts, rfl, word, plain⟩
  have scans := scans_nil.word word trivial
  rw [plain, List.append_nil] at scans
  exact parse_of_scans (by rwa [String.toList_ofList]) derives_variable

/-- A text with a list of literals in parentheses after it is read as the call of that name with
these literals exactly if it is a name. -/
theorem parse_eq_call_iff {source : String} (lists : ListsLiterals source.toList literals) :
    Expression.parse (name ++ "(" ++ source ++ ")") = .ok (.call name none literals) ↔
      IsName name := by
  refine ⟨fun parsed => isName_of_parse parsed rfl, ?_⟩
  rintro ⟨first, parts, rfl, word, plain⟩
  obtain ⟨kinds, scans, literal⟩ := lists
  have closing : Scans [')'] [.rightParen] := scans_nil.symbol (by decide) fun _ => rfl
  have apart : StandsApart [')'] := (rfl : endsToken ')' = true)
  have closed := scans.append apart closing
  have opened : Scans ('(' :: (source.toList ++ [')'])) (.leftParen :: _) :=
    closed.symbol (by decide) fun _ => rfl
  have called := opened.word word (rfl : endsWord '(' = true)
  rw [plain] at called
  refine parse_of_scans ?_ (derives_call literal)
  simpa using called

end Grammar

namespace FunctionDefinition

/-! ### Words of definitions as names -/

variable {word : List Char}

/-- A path leads on after each of its points: the last character is none, and no two follow one
another. -/
def LeadsOn (word : List Char) : Prop :=
  ¬ ['.'] <:+ word ∧ ¬ ['.', '.'] <:+: word

instance (word : List Char) : Decidable (LeadsOn word) :=
  inferInstanceAs (Decidable (¬ ['.'] <:+ word ∧ ¬ ['.', '.'] <:+: word))

theorem leadsOn_nil : LeadsOn [] := by
  simp [LeadsOn]

theorem leadsOn_cons_iff {first : Char} {rest : List Char} :
    LeadsOn (first :: rest) ↔
      (first = '.' → ∃ next more, rest = next :: more ∧ next ≠ '.') ∧ LeadsOn rest := by
  unfold LeadsOn
  rw [List.suffix_cons_iff, List.infix_cons_iff]
  cases rest with
  | nil => simp [List.cons_prefix_cons, @eq_comm _ first]
  | cons next more =>
    simp only [List.cons.injEq, List.nil_eq, reduceCtorEq, and_false, false_or,
      List.cons_prefix_cons, List.nil_prefix, and_true, not_or, not_and, @eq_comm _ first,
      @eq_comm _ next, ne_eq, exists_and_right, ↓existsAndEq, exists_eq_left]
    tauto

theorem continuesName_iff {first : Char} {rest : List Char}
    (parts : ∀ character ∈ first :: rest, isPathPart character = true) :
    ContinuesName first rest ↔ (first = '.' → ∃ next more, rest = next :: more ∧ next ≠ '.') := by
  have isPoint : ∀ character ∈ first :: rest, isNamePart character = true ↔ character ≠ '.' := by
    intro character member
    have part := parts character member
    refine ⟨?_, fun other => isNamePart_of_isWordPart ?_⟩
    · rintro inName rfl
      cases inName
    · exact (Bool.or_eq_true_iff.mp part).resolve_right (by simpa using other)
  unfold ContinuesName
  rw [isPoint first List.mem_cons_self]
  constructor
  · rintro (other | ⟨-, next, more, rfl, part⟩) point
    · exact absurd point other
    · exact ⟨next, more, rfl, (isPoint next (by simp)).mp part⟩
  · intro leads
    by_cases point : first = '.'
    · obtain ⟨next, more, rfl, other⟩ := leads point
      exact .inr ⟨point, next, more, rfl, (isPoint next (by simp)).mpr other⟩
    · exact .inl point

theorem nameLength_eq_length_iff (parts : ∀ character ∈ word, isPathPart character = true) :
    nameLength word = word.length ↔ LeadsOn word := by
  induction word with
  | nil => exact iff_of_true rfl leadsOn_nil
  | cons first rest inductionHypothesis =>
    rw [leadsOn_cons_iff, ← continuesName_iff parts,
      ← inductionHypothesis (List.forall_mem_cons.mp parts).2]
    by_cases continues : ContinuesName first rest
    · simp [nameLength_cons continues, continues]
    · simp [nameLength_cons_of_not continues, continues]

/-- A word that is reserved in expressions. -/
def IsReserved (name : String) : Prop :=
  TokenKind.ofWord name ≠ .name name

theorem leadsOn_of_isWordOf (isWord : IsWordOf isPathPart word) :
    ∃ first rest, word = first :: rest ∧ isWordStart first = true ∧
      (LeadsOn word ↔ nameLength rest = rest.length) := by
  cases word with
  | nil => exact isWord.elim
  | cons first rest =>
    obtain ⟨start, parts⟩ := isWord
    have other : first ≠ '.' := by
      rintro rfl
      cases start
    refine ⟨first, rest, rfl, start, ?_⟩
    rw [leadsOn_cons_iff, nameLength_eq_length_iff parts]
    exact and_iff_right fun point => absurd point other

theorem not_isDigit_of_isAlpha {character : Char} (letter : character.isAlpha = true) :
    ¬ character.isDigit = true := by
  intro digit
  have last : character.val ≤ 57 := of_decide_eq_true (Bool.and_eq_true_iff.mp digit).2
  rcases Bool.or_eq_true_iff.mp letter with capital | small
  · have first : 65 ≤ character.val := (of_decide_eq_true capital).1
    exact absurd (UInt32.le_trans first last) (by decide)
  · have first : 97 ≤ character.val := of_decide_eq_true (Bool.and_eq_true_iff.mp small).1
    exact absurd (UInt32.le_trans first last) (by decide)

/-- What may begin a word of a definition begins a name too, and no other token. -/
theorem isWord_of_isWordStart {first : Char} {rest : List Char} (start : isWordStart first = true)
    (whole : nameLength rest = rest.length) : IsWord first rest where
  notBlank := not_isBlank_of_isWordPart (isWordPart_of_isWordStart start)
  notQuote := by rintro (rfl | rfl) <;> cases start
  notDigit := by
    rcases Bool.or_eq_true_iff.mp start with letter | underscore
    · exact not_isDigit_of_isAlpha letter
    · rw [beq_iff_eq.mp underscore]
      decide
  start := by
    simp only [isWordStart, isNameStart, Bool.or_eq_true] at start ⊢
    exact start.imp isLetter_of_isAlpha id
  whole := whole

/-- A word of a definition is a name in expressions exactly if it is not reserved and leads on
after its points. -/
theorem isName_iff (isWord : IsWordOf isPathPart word) :
    IsName (String.ofList word) ↔ ¬ IsReserved (String.ofList word) ∧ LeadsOn word := by
  obtain ⟨first, rest, rfl, start, leads⟩ := leadsOn_of_isWordOf isWord
  rw [leads, IsReserved, not_not]
  constructor
  · rintro ⟨first', rest', same, word, plain⟩
    obtain ⟨rfl, rfl⟩ := List.cons.inj (String.ofList_injective same)
    exact ⟨plain, word.whole⟩
  · rintro ⟨plain, whole⟩
    exact ⟨first, rest, rfl, isWord_of_isWordStart start whole, plain⟩

/-- Without points a word leads on. -/
theorem leadsOn_of_isWordPart (isWord : IsWordOf isWordPart word) : LeadsOn word := by
  have noPoint : '.' ∉ word := by
    cases word with
    | nil => exact List.not_mem_nil
    | cons first rest =>
      obtain ⟨start, parts⟩ := isWord
      rw [List.mem_cons, not_or]
      refine ⟨?_, fun member => ?_⟩
      · rintro rfl
        cases start
      · cases parts '.' member
  exact ⟨fun last => noPoint (last.subset List.mem_cons_self),
    fun twice => noPoint (twice.subset List.mem_cons_self)⟩

theorem IsWordOf.isPath (isWord : IsWordOf isWordPart word) : IsWordOf isPathPart word := by
  cases word with
  | nil => exact isWord
  | cons first rest =>
    exact ⟨isWord.1, fun character member => isPathPart_of_isWordPart (isWord.2 character member)⟩

variable {text : String} {definition : FunctionDefinition} {parameter : String × ValueType}

theorem WritesParameter.isWordOf {part : List Char} (written : WritesParameter part parameter) :
    ∃ name, parameter.1 = String.ofList name ∧ IsWordOf isWordPart name := by
  cases written with
  | untyped _ word | typed _ word => exact ⟨_, rfl, word⟩

theorem isWordOf_of_mem {parts : List (List Char)} {parameters : List (String × ValueType)}
    (written : List.Forall₂ WritesParameter parts parameters) (member : parameter ∈ parameters) :
    ∃ name, parameter.1 = String.ofList name ∧ IsWordOf isWordPart name := by
  induction written with
  | nil => cases member
  | cons first _ inductionHypothesis =>
    rcases List.mem_cons.mp member with rfl | later
    · exact first.isWordOf
    · exact inductionHypothesis later

theorem WritesParameters.isWordOf {characters : List Char}
    {parameters : List (String × ValueType)} (written : WritesParameters characters parameters)
    (member : parameter ∈ parameters) :
    ∃ name, parameter.1 = String.ofList name ∧ IsWordOf isWordPart name := by
  cases written with
  | none => cases member
  | some _ written => exact isWordOf_of_mem written member

/-- The names of a definition are words of its notation. -/
theorem Writes.isWordOf (writes : Writes text definition) :
    (∃ name, definition.name = String.ofList name ∧ IsWordOf isPathPart name) ∧
      ∀ parameter ∈ definition.parameters,
        ∃ name, parameter.1 = String.ofList name ∧ IsWordOf isWordPart name := by
  obtain ⟨written, listed, -, -⟩ := writes
  exact ⟨⟨_, rfl, written.path⟩, fun parameter member => listed.isWordOf member⟩

/-- A function is called under the name in its definition, with literals in parentheses after it,
exactly if that is not reserved and leads on after its points; how many literals there are makes
no difference. A parameter is a variable exactly if its name is not reserved. -/
theorem parse_names_iff (parsed : parse text = .ok definition) :
    (∀ (source : String) (literals : List Expression),
      Grammar.ListsLiterals source.toList literals →
        (Expression.parse (definition.name ++ "(" ++ source ++ ")") =
            .ok (.call definition.name none literals) ↔
          ¬ IsReserved definition.name ∧ LeadsOn definition.name.toList)) ∧
      ∀ parameter ∈ definition.parameters,
        (Expression.parse parameter.1 = .ok (.variable parameter.1) ↔
          ¬ IsReserved parameter.1) := by
  obtain ⟨⟨name, same, path⟩, parameters⟩ := (writes_of_parse_eq_ok parsed).isWordOf
  refine ⟨fun source literals lists => ?_, fun parameter member => ?_⟩
  · rw [Grammar.parse_eq_call_iff lists, same, isName_iff path, String.toList_ofList]
  · obtain ⟨name, same, word⟩ := parameters parameter member
    rw [Grammar.parse_eq_variable_iff, same, isName_iff word.isPath]
    exact and_iff_left (leadsOn_of_isWordPart word)

/-- The literal `1` is a list of literals. -/
theorem listsLiterals_one : Grammar.ListsLiterals "1".toList [.integer 1] := by
  have lexed : tokenize "1" = .ok ([⟨.integer 1, "1", 0⟩] ++ [.endAt 1]) := rfl
  exact ⟨[.integer 1], scans_of_tokenize lexed, .cons (.integer 1) .nil⟩

theorem parse_names_iff_path :
    parse "f.g(x) => x" = .ok ⟨"f.g", none, [("x", .any)], .variable "x"⟩ ∧
      Expression.parse ("f.g" ++ "(" ++ "1" ++ ")") = .ok (.call "f.g" none [.integer 1]) ∧
      Expression.parse "x" = .ok (.variable "x") := by
  have read : readParts? "f.g(x) => x".toList = some ⟨['f', '.', 'g'], none, ['x'], ['x']⟩ := rfl
  have parsed : parse "f.g(x) => x" = .ok ⟨"f.g", none, [("x", .any)], .variable "x"⟩ := by
    rw [parse_of_readParts? read]
    rfl
  obtain ⟨calls, readable⟩ := parse_names_iff parsed
  have plain : ¬ IsReserved "f.g" := not_not_intro rfl
  have leads : LeadsOn "f.g".toList := by decide
  exact ⟨parsed, (calls "1" _ listsLiterals_one).mpr ⟨plain, leads⟩,
    (readable ("x", .any) List.mem_cons_self).mpr (not_not_intro rfl)⟩

/-- The function `not` of one parameter can be defined, but where its name stands with a literal
in parentheses after it the operator is read. -/
theorem parse_reserved_name :
    parse "not(x) => x" = .ok ⟨"not", none, [("x", .any)], .variable "x"⟩ ∧
      Grammar.ListsLiterals "1".toList [.integer 1] ∧
      Expression.parse ("not" ++ "(" ++ "1" ++ ")") ≠ .ok (.call "not" none [.integer 1]) := by
  have read : readParts? "not(x) => x".toList = some ⟨['n', 'o', 't'], none, ['x'], ['x']⟩ := rfl
  refine ⟨by rw [parse_of_readParts? read]; rfl, listsLiterals_one, fun parsed => ?_⟩
  have operator : Expression.parse ("not" ++ "(" ++ "1" ++ ")") =
      .ok (.unary .not (.grouping (.integer 1))) := rfl
  cases operator.symm.trans parsed

end FunctionDefinition

end Reckon
