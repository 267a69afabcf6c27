/-
This file says which tokens the pieces of a written expression are read as.
Pieces that end in a gap or a symbol are read the same whatever follows; all
others need a character after them that ends a word. Written expressions are
put together from the two kinds, and no word touches the next.
-/

import Reckon.Expression.Printer
import Reckon.Proofs.Grammar.Rules
import Reckon.Proofs.Token.Words

namespace Reckon

/-! ### The tokens of operators -/

namespace BinaryOperator

/-- The token that an operator is written as. -/
def kind : BinaryOperator → TokenKind
  | .or => .or
  | .and => .and
  | .equal => .equal
  | .notEqual => .notEqual
  | .less => .less
  | .greater => .greater
  | .lessEqual => .lessEqual
  | .greaterEqual => .greaterEqual
  | .add => .plus
  | .subtract => .minus
  | .multiply => .star
  | .divide => .slash
  | .modulo => .percent
  | .power => .caret

end BinaryOperator

namespace UnaryOperator

/-- The token that an operator is written as. -/
def kind : UnaryOperator → TokenKind
  | .negate => .minus
  | .not => .not

end UnaryOperator

/-! ### Pieces and the tokens they are read as -/

/-- The characters of pieces. -/
def spelled (pieces : List Piece) : List Char :=
  pieces.flatMap fun piece => piece.characters.toList

/-- Pieces are read as tokens of these kinds before characters that end a word. -/
def Prints (pieces : List Piece) (words : List TokenKind) : Prop :=
  ∀ ⦃tail kinds⦄, Ends tail → Scans tail kinds → Scans (spelled pieces ++ tail) (words ++ kinds)

/-- Pieces are read as tokens of these kinds whatever follows. -/
def PrintsApart (pieces : List Piece) (words : List TokenKind) : Prop :=
  ∀ ⦃tail kinds⦄, Scans tail kinds → Scans (spelled pieces ++ tail) (words ++ kinds)

variable {first second : List Piece} {words words' : List TokenKind}

theorem spelled_append (first second : List Piece) (tail : List Char) :
    spelled (first ++ second) ++ tail = spelled first ++ (spelled second ++ tail) := by
  unfold spelled
  rw [List.flatMap_append, List.append_assoc]

theorem prints_nil : Prints [] [] :=
  fun _ _ _ scans => scans

theorem Prints.append (prints : Prints first words) (prints' : Prints second words')
    (ends : ∀ tail, Ends tail → Ends (spelled second ++ tail)) :
    Prints (first ++ second) (words ++ words') := by
  intro tail kinds follows scans
  rw [spelled_append, List.append_assoc]
  exact prints (ends tail follows) (prints' follows scans)

theorem Prints.before (prints : Prints first words) (prints' : PrintsApart second words')
    (ends : ∀ tail, Ends (spelled second ++ tail)) :
    PrintsApart (first ++ second) (words ++ words') := by
  intro tail kinds scans
  rw [spelled_append, List.append_assoc]
  exact prints (ends tail) (prints' scans)

theorem PrintsApart.before (prints : PrintsApart first words) (prints' : Prints second words') :
    Prints (first ++ second) (words ++ words') := by
  intro tail kinds follows scans
  rw [spelled_append, List.append_assoc]
  exact prints (prints' follows scans)

theorem PrintsApart.append (prints : PrintsApart first words)
    (prints' : PrintsApart second words') : PrintsApart (first ++ second) (words ++ words') := by
  intro tail kinds scans
  rw [spelled_append, List.append_assoc]
  exact prints (prints' scans)

theorem PrintsApart.prints (prints : PrintsApart first words) : Prints first words :=
  fun _ _ _ scans => prints scans

/-! ### Single pieces -/

theorem spelled_singleton (piece : Piece) (tail : List Char) :
    spelled [piece] ++ tail = piece.characters.toList ++ tail := by
  unfold spelled
  rw [List.flatMap_singleton]

theorem printsApart_space : PrintsApart [.space] [] :=
  fun _ _ scans => scans.blank (by decide)

theorem ends_space (tail : List Char) : Ends (spelled [.space] ++ tail) := by
  rw [spelled_singleton]
  exact (rfl : endsWord ' ' = true)

theorem scans_spaces {tail : List Char} {kinds : List TokenKind} (count : Nat)
    (scans : Scans tail kinds) : Scans (List.replicate count ' ' ++ tail) kinds := by
  induction count with
  | zero => exact scans
  | succ count inductionHypothesis => exact inductionHypothesis.blank (by decide)

theorem printsApart_lineBreak (layout : Layout) (level : Nat) :
    PrintsApart [layout.lineBreak level] [] := by
  cases layout with
  | compact => exact printsApart_space
  | pretty =>
    intro tail kinds scans
    rw [spelled_singleton]
    show Scans ((String.ofList ('\n' :: List.replicate (4 * level) ' ')).toList ++ tail) kinds
    rw [String.toList_ofList]
    exact (scans_spaces _ scans).blank (by decide)

theorem ends_lineBreak (layout : Layout) (level : Nat) (pieces : List Piece) (tail : List Char) :
    Ends (spelled (layout.lineBreak level :: pieces) ++ tail) := by
  rw [← List.singleton_append, spelled_append]
  cases layout with
  | compact => exact ends_space _
  | pretty =>
    rw [spelled_singleton]
    show Ends ((String.ofList ('\n' :: List.replicate (4 * level) ' ')).toList ++ _)
    rw [String.toList_ofList]
    exact (rfl : endsWord '\n' = true)

/-- A symbol of one character that nothing makes another symbol. -/
theorem printsApart_symbol {symbol : String} {character : Char} {kind : TokenKind}
    (single : symbol.toList = [character]) (notBlank : isBlank character = false)
    (recognised : ∀ position tail, recognise position character tail = .ok (kind, 0)) :
    PrintsApart [.word symbol] [kind] := by
  intro tail kinds scans
  rw [spelled_singleton]
  show Scans (symbol.toList ++ tail) (kind :: kinds)
  rw [single]
  exact scans.symbol notBlank fun position => recognised position tail

theorem printsApart_leftParen : PrintsApart [.word "("] [.leftParen] :=
  printsApart_symbol rfl (by decide) fun _ _ => rfl

theorem printsApart_rightParen : PrintsApart [.word ")"] [.rightParen] :=
  printsApart_symbol rfl (by decide) fun _ _ => rfl

theorem printsApart_comma : PrintsApart [.word ","] [.comma] :=
  printsApart_symbol rfl (by decide) fun _ _ => rfl

theorem printsApart_colon : PrintsApart [.word ":"] [.colon] :=
  printsApart_symbol rfl (by decide) fun _ _ => rfl

theorem printsApart_semicolon : PrintsApart [.word ";"] [.semicolon] :=
  printsApart_symbol rfl (by decide) fun _ _ => rfl

theorem printsApart_minus : PrintsApart [.word "-"] [.minus] :=
  printsApart_symbol rfl (by decide) fun _ _ => rfl

theorem Prints.rightParen (prints : Prints first words) :
    Prints (first ++ [.word ")"]) (words ++ [.rightParen]) :=
  (prints.before printsApart_rightParen fun _ => (rfl : endsWord ')' = true)).prints

/-- A word is read as what it means. -/
theorem prints_word {name : String} {first : Char} {rest : List Char}
    (characters : name = String.ofList (first :: rest)) (word : IsWord first rest) :
    Prints [.word name] [.ofWord name] := by
  intro tail kinds ends scans
  rw [spelled_singleton]
  show Scans (name.toList ++ tail) (.ofWord name :: kinds)
  rw [characters, String.toList_ofList]
  exact scans.word word ends

theorem prints_name {name : String} (isName : IsName name) : Prints [.word name] [.name name] := by
  obtain ⟨first, rest, same, word, kind⟩ := isName
  rw [← kind]
  exact prints_word same word

theorem prints_reserved (word : String) {kind : TokenKind} {first : Char} {rest : List Char}
    (means : TokenKind.ofWord word = kind) (characters : word.toList = first :: rest)
    (shape : isBlank first = false ∧ ¬ (first = '"' ∨ first = '\'') ∧ ¬ first.isDigit = true ∧
      isNameStart first = true ∧ nameLength rest = rest.length) : Prints [.word word] [kind] := by
  obtain ⟨notBlank, notQuote, notDigit, start, whole⟩ := shape
  rw [← means]
  refine prints_word ?_ ⟨notBlank, notQuote, notDigit, start, whole⟩
  rw [← characters, String.ofList_toList]

theorem Prints.space (prints : Prints first words) :
    PrintsApart (first ++ [.space]) words := by
  have apart := prints.before printsApart_space ends_space
  rw [List.append_nil] at apart
  exact apart

/-! ### Symbols and words between spaces -/

/-- A symbol or a reserved word with a space before and after it. -/
theorem printsApart_between {symbol : String} {kind : TokenKind} {first : Char}
    {rest : List Char} (characters : symbol.toList = first :: rest)
    (notBlank : isBlank first = false)
    (recognised : ∀ position tail,
      recognise position first (rest ++ ' ' :: tail) = .ok (kind, rest.length)) :
    PrintsApart [.space, .word symbol, .space] [kind] := by
  intro tail kinds scans
  have apart : Scans (first :: rest ++ ' ' :: tail) (kind :: kinds) :=
    (scans.blank (by decide)).token notBlank fun position => recognised position tail
  show Scans (spelled ([.space] ++ ([.word symbol] ++ [.space])) ++ tail) (kind :: kinds)
  rw [spelled_append, spelled_append, spelled_singleton (.word symbol)]
  show Scans (spelled [.space] ++ (symbol.toList ++ (spelled [.space] ++ tail))) (kind :: kinds)
  rw [characters]
  exact apart.blank (by decide)

theorem printsApart_operator (operator : BinaryOperator) :
    PrintsApart [.space, .word operator.symbol, .space] [operator.kind] := by
  cases operator <;> exact printsApart_between rfl (by decide) fun _ _ => rfl

theorem Grammar.Joins.kind_eq {rule : Grammar.Rule} {kind : TokenKind} {operator : BinaryOperator}
    (joins : Grammar.Joins rule kind operator) : kind = operator.kind := by
  cases joins <;> rfl

theorem printsApart_unaryOperator (operator : UnaryOperator) :
    PrintsApart operator.pieces [operator.kind] := by
  cases operator with
  | negate => exact printsApart_minus
  | not =>
    have word : Prints [.word "not"] [.not] := prints_reserved "not" rfl rfl (by decide)
    exact word.space

theorem printsApart_question : PrintsApart [.space, .word "?", .space] [.question] :=
  printsApart_between rfl (by decide) fun _ _ => rfl

theorem printsApart_choice : PrintsApart [.space, .word ":", .space] [.colon] :=
  printsApart_between rfl (by decide) fun _ _ => rfl

theorem printsApart_as : PrintsApart [.space, .word "as", .space] [.asWord] :=
  printsApart_between rfl (by decide) fun _ _ => rfl

theorem printsApart_assign : PrintsApart [.space, .word "=", .space] [.assign] :=
  printsApart_between rfl (by decide) fun _ _ => rfl

theorem ends_between (symbol : String) (tail : List Char) :
    Ends (spelled [.space, .word symbol, .space] ++ tail) := by
  exact (rfl : endsWord ' ' = true)

/-! ### Literals -/

theorem prints_boolean (truth : Bool) :
    Prints [.word (if truth then "true" else "false")] [.boolean truth] := by
  cases truth with
  | true => exact prints_reserved "true" rfl rfl (by decide)
  | false => exact prints_reserved "false" rfl rfl (by decide)

theorem prints_integer {number : Nat} (fits : fitsInt64 number = true) :
    Prints [.word (toString number)] [.integer (Int64.ofInt number)] := by
  intro tail kinds ends scans
  rw [spelled_singleton]
  show Scans ((toString number).toList ++ tail) _
  rw [toList_toString]
  exact scans.integer ends fits

theorem prints_float {number : Binary64} (unsigned : number.isNegative = false)
    (bounded : number.less (.ofNat (Nat.pow 10 15)) = true) :
    Prints [.word number.literalText] [.float number] := by
  intro tail kinds ends scans
  obtain ⟨whole, fraction, text, value⟩ := Binary64.literalText_reads unsigned bounded
  rw [spelled_singleton]
  have read := scans.float ends text
  rw [value] at read
  exact read

theorem prints_text (content : String) : Prints [.word (quoted content)] [.text content] := by
  intro tail kinds _ scans
  rw [spelled_singleton]
  exact scans.quoted

theorem symbol?_less {first : Char} {rest : List Char} (other : first ≠ '=') :
    symbol? '<' (first :: rest) = some (.less, 0) := by
  rw [symbol?]
  intro more same
  exact other (List.cons.inj same).1

/-- The bracket that opens a type hint is not part of another symbol. -/
theorem prints_less {name : String} (isName : IsName name) :
    Prints [.word "<", .word name] [.less, .name name] := by
  intro tail kinds ends scans
  have named := prints_name isName ends scans
  rw [spelled_singleton] at named
  show Scans ('<' :: (spelled [.word name] ++ tail)) _
  rw [spelled_singleton]
  refine named.symbol (by decide) fun position => ?_
  obtain ⟨first, rest, same, word, -⟩ := isName
  show recognise position '<' (name.toList ++ tail) = _
  rw [same, String.toList_ofList]
  have notEqual : first ≠ '=' := by
    rintro rfl
    exact absurd word.start (by decide)
  unfold recognise
  rw [if_neg (by decide), if_neg (by decide), if_neg (by decide), List.cons_append,
    symbol?_less notEqual]

/-- A name in angle brackets before an opening parenthesis. -/
theorem printsApart_hint {name : String} (isName : IsName name) :
    PrintsApart [.word "<", .word name, .word ">", .word "("]
      [.less, .name name, .greater, .leftParen] := by
  have bracket : PrintsApart [.word ">", .word "("] [.greater, .leftParen] := by
    intro tail kinds scans
    have opening := printsApart_leftParen scans
    exact opening.symbol (by decide) fun _ => rfl
  exact (prints_less isName).before bracket fun tail => (rfl : endsWord '>' = true)

end Reckon
