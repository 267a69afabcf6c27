/-
This file reads functions written in the expression language itself, such as
`area<number>(width: number, height) => width * height`: a name, the type of
the result if there is one, the parameters with their types, and the body.

The names here are made of ASCII letters, digits and underscores; the name of a
function may hold points too.
-/

import Reckon.Expression.Parser
import Reckon.Value.Type

namespace Reckon

/-- What can be wrong with the text of a definition. -/
inductive DefinitionError where
  | invalidHeader (definition : String)
  | invalidParameter (parameter : String)
  | duplicateParameter (name : String)
  | invalidBody (cause : SyntaxError)
  deriving DecidableEq

namespace DefinitionError

/-- The wording of an error. -/
def message : DefinitionError → String
  | .invalidHeader definition =>
    s!"Invalid function definition '{definition}': expected 'name(params) => body'"
  | .invalidParameter parameter =>
    s!"Invalid parameter '{parameter}': expected 'name' or 'name: type'"
  | .duplicateParameter name => s!"Duplicate parameter '{name}'"
  | .invalidBody cause => s!"Invalid function body: {cause.fullMessage}"

end DefinitionError

/-- A function written in the expression language. -/
structure FunctionDefinition where
  name : String
  returnType : Option String
  parameters : List (String × ValueType)
  body : Expression

namespace FunctionDefinition

/-! ### The parts of a definition -/

/-- Whether a character may begin a name of a definition. -/
def isWordStart (character : Char) : Bool :=
  character.isAlpha || character == '_'

/-- Whether a character may stand in the name of a parameter or a type. -/
def isWordPart (character : Char) : Bool :=
  character.isAlphanum || character == '_'

/-- Whether a character may stand in the name of a function. -/
def isPathPart (character : Char) : Bool :=
  isWordPart character || character == '.'

/-- Splits a name, as long as it goes, off the front of a text. -/
def readWord? (isPart : Char → Bool) : List Char → Option (List Char × List Char)
  | [] => none
  | first :: rest =>
    if isWordStart first then some (first :: rest.takeWhile isPart, rest.dropWhile isPart)
    else none

/-- The characters after the blanks at the front. -/
def skipBlanks (characters : List Char) : List Char :=
  characters.dropWhile isBlank

/-- Reads the type of the result, if there is one. -/
def readReturnType? : List Char → Option (Option (List Char) × List Char)
  | '<' :: rest => do
    let (word, rest) ← readWord? isWordPart (skipBlanks rest)
    match skipBlanks rest with
    | '>' :: rest => return (some word, rest)
    | _ => none
  | rest => some (none, rest)

/-- The body after the arrow, without blanks around it. Where only blanks follow, the last of
them is the body, so that the fault is found in the body. -/
def readBody? (characters : List Char) : Option (List Char) :=
  match trimBlanks characters with
  | [] => characters.getLast?.map fun blank => [blank]
  | body => some body

/-- A definition split into its parts. -/
structure Parts where
  name : List Char
  returnType : Option (List Char)
  parameters : List Char
  body : List Char

/-- Splits a definition into its parts. The first closing parenthesis ends the parameters. -/
def readParts? (definition : List Char) : Option Parts := do
  let (name, rest) ← readWord? isPathPart (skipBlanks definition)
  let (returnType, rest) ← readReturnType? (skipBlanks rest)
  match skipBlanks rest with
  | '(' :: rest =>
    let parameters := rest.takeWhile (· != ')')
    match rest.dropWhile (· != ')') with
    | ')' :: rest =>
      match skipBlanks rest with
      | '=' :: '>' :: rest => return ⟨name, returnType, parameters, ← readBody? rest⟩
      | _ => none
    | _ => none
  | _ => none

/-! ### Parameters -/

/-- The parts of a text between its commas. -/
def splitCommas : List Char → List (List Char)
  | [] => [[]]
  | ',' :: rest => [] :: splitCommas rest
  | character :: rest =>
    match splitCommas rest with
    | [] => [[character]]
    | part :: parts => (character :: part) :: parts

/-- Reads a parameter without blanks around it: a name, or a name, a colon and a type. -/
def readParameter? (characters : List Char) : Option (String × ValueType) := do
  let (name, rest) ← readWord? isWordPart characters
  match skipBlanks rest with
  | [] => return (String.ofList name, .any)
  | ':' :: rest =>
    let (type, rest) ← readWord? isWordPart (skipBlanks rest)
    if rest = [] then return (String.ofList name, .ofName (String.ofList type)) else none
  | _ => none

/-- Reads parameters after others; no two may have one name. -/
def readParameters (seen : List (String × ValueType)) :
    List (List Char) → Except DefinitionError (List (String × ValueType))
  | [] => .ok []
  | part :: rest =>
    match readParameter? part with
    | none => .error (.invalidParameter (String.ofList part))
    | some (name, type) =>
      if name ∈ seen.map Prod.fst then .error (.duplicateParameter name)
      else do
        let later ← readParameters ((name, type) :: seen) rest
        return (name, type) :: later

/-- Reads the parameters between the parentheses of a definition. -/
def parametersOf (characters : List Char) : Except DefinitionError (List (String × ValueType)) :=
  if trimBlanks characters = [] then .ok []
  else readParameters [] ((splitCommas (trimBlanks characters)).map trimBlanks)

/-! ### Definitions -/

/-- Reads a definition. Of a faulty parameter and a faulty body the parameter is reported. -/
def parse (definition : String) : Except DefinitionError FunctionDefinition :=
  match readParts? definition.toList with
  | none => .error (.invalidHeader (trimmed definition))
  | some parts => do
    let parameters ← parametersOf parts.parameters
    match Expression.parse (String.ofList parts.body) with
    | .error cause => .error (.invalidBody cause)
    | .ok body =>
      return {
        name := String.ofList parts.name
        returnType := parts.returnType.map String.ofList
        parameters
        body }

end FunctionDefinition

end Reckon
