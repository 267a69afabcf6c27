/-
This file shows that definitions of functions are read exactly. A definition is
what is written from a name, the type of the result or none, parameters and a
body that is an expression, and it is read as these. Where the parameters are
at fault the first of them that is gets reported, whatever the body is like.
-/

import Reckon.Proofs.Function.Parameters

namespace Reckon

namespace FunctionDefinition

variable {text : String} {parts : Parts} {body : List Char} {definition : FunctionDefinition}

/-! ### Bodies -/

theorem readBody?_of_not_allBlank (notBlank : ¬ AllBlank body) :
    readBody? body = some (trimBlanks body) := by
  unfold readBody?
  split
  next nothing => exact absurd (trimBlanks_eq_nil_iff.mp nothing) notBlank
  next => rfl

/-- Where only blanks follow the arrow the last of them is read as the body. -/
theorem readBody?_of_allBlank (blank : AllBlank body) (follows : body ≠ []) :
    readBody? body = some [body.getLast follows] := by
  rw [readBody?, trimBlanks_eq_nil_iff.mpr blank, List.getLast?_eq_some_getLast follows]
  rfl

/-- A blank is no expression. -/
theorem parse_blank_ne_ok {blank : Char} (white : isBlank blank = true) (tree : Expression) :
    Expression.parse (String.ofList [blank]) ≠ .ok tree := by
  have scans : Scans (String.ofList [blank]).toList [] := by
    rw [String.toList_ofList]
    exact scans_nil.blank white
  obtain ⟨tokens, stop, lexed, kinds, -⟩ := scans.tokenize
  obtain rfl := List.map_eq_nil_iff.mp kinds
  unfold Expression.parse
  rw [lexed]
  nofun

/-- What follows the arrow is read, unless nothing does. An expression in it is one without the
blanks around it. -/
theorem exists_readBody? (follows : body ≠ []) :
    ∃ read, readBody? body = some read ∧ ∀ tree, Expression.parse (String.ofList read) = .ok tree ↔
      ¬ AllBlank body ∧ Expression.parse (String.ofList (trimBlanks body)) = .ok tree := by
  by_cases blank : AllBlank body
  · have white := blank _ (List.getLast_mem follows)
    exact ⟨_, readBody?_of_allBlank blank follows, fun tree =>
      ⟨fun parsed => absurd parsed (parse_blank_ne_ok white tree), fun both => absurd blank both.1⟩⟩
  · exact ⟨trimBlanks body, readBody?_of_not_allBlank blank, fun tree =>
      ⟨fun parsed => ⟨blank, parsed⟩, And.right⟩⟩

/-! ### Definitions -/

/-- How the definition of a function is written. The body that is not blank is an expression
without the blanks around it. -/
inductive Writes (text : String) : FunctionDefinition → Prop
  | written {parts : Parts} {parameters : List (String × ValueType)} {body : Expression}
      (written : parts.Written text.toList) (listed : WritesParameters parts.parameters parameters)
      (notBlank : ¬ AllBlank parts.body)
      (spelled : Expression.parse (String.ofList (trimBlanks parts.body)) = .ok body) :
      Writes text
        ⟨String.ofList parts.name, parts.returnType.map String.ofList, parameters, body⟩

theorem parse_of_readParts? (read : readParts? text.toList = some parts) :
    parse text = (parametersOf parts.parameters).bind fun parameters =>
      match Expression.parse (String.ofList parts.body) with
      | .error cause => .error (.invalidBody cause)
      | .ok body => .ok
          ⟨String.ofList parts.name, parts.returnType.map String.ofList, parameters, body⟩ := by
  unfold parse
  rw [read]
  rfl

/-- What is not written from parts is no definition. -/
theorem parse_of_forall_not_written (none : ∀ parts : Parts, ¬ parts.Written text.toList) :
    parse text = .error (.invalidHeader (trimmed text)) := by
  have read : readParts? text.toList = Option.none := by
    refine Option.eq_none_iff_forall_not_mem.mpr fun parts read => ?_
    obtain ⟨body, written, -⟩ := written_of_readParts? read
    exact none _ written
  unfold parse
  rw [read]

/-- What is written from parts is read in this order: the parameters, and then the body. -/
theorem Parts.Written.parse_eq (written : parts.Written text.toList) :
    ∃ read, (∀ tree, Expression.parse (String.ofList read) = .ok tree ↔
        ¬ AllBlank parts.body ∧
          Expression.parse (String.ofList (trimBlanks parts.body)) = .ok tree) ∧
      parse text = (parametersOf parts.parameters).bind fun parameters =>
        match Expression.parse (String.ofList read) with
        | .error cause => .error (.invalidBody cause)
        | .ok body => .ok
            ⟨String.ofList parts.name, parts.returnType.map String.ofList, parameters, body⟩ := by
  obtain ⟨read, bodyRead, same⟩ := exists_readBody? written.body_ne_nil
  refine ⟨read, same, ?_⟩
  have partsRead := written.read
  rw [bodyRead] at partsRead
  exact parse_of_readParts? partsRead

theorem Writes.parse_eq_ok (writes : Writes text definition) : parse text = .ok definition := by
  obtain ⟨written, listed, notBlank, spelled⟩ := writes
  obtain ⟨read, same, parsed⟩ := written.parse_eq
  rw [parsed, listed.parametersOf_eq, (same _).mpr ⟨notBlank, spelled⟩]
  rfl

theorem writes_of_parse_eq_ok (parsed : parse text = .ok definition) : Writes text definition := by
  by_cases any : ∃ parts : Parts, parts.Written text.toList
  · obtain ⟨parts, written⟩ := any
    obtain ⟨read, same, order⟩ := written.parse_eq
    rw [order] at parsed
    cases listed : parametersOf parts.parameters with
    | error error =>
      rw [listed] at parsed
      cases parsed
    | ok parameters =>
      rw [listed] at parsed
      cases spelled : Expression.parse (String.ofList read) with
      | error cause =>
        rw [spelled] at parsed
        cases parsed
      | ok body =>
        rw [spelled] at parsed
        cases parsed
        obtain ⟨notBlank, trimmed⟩ := (same body).mp spelled
        exact .written written (parametersOf_eq_ok_iff.mp listed) notBlank trimmed
  · rw [parse_of_forall_not_written (not_exists.mp any)] at parsed
    cases parsed

/-- A text is read as the definition that it writes, and where it writes none it is not read. When
parameters are at fault the first of them that is gets reported, ahead of what the body has. -/
theorem parse_eq_ok_iff_writes (text : String) :
    (∀ definition, parse text = .ok definition ↔ Writes text definition) ∧
      ∀ parts : Parts, parts.Written text.toList →
        ((∃ parameters, WritesParameters parts.parameters parameters) ∨
          ∃ error, FirstFault parts.parameters error) ∧
        ∀ error, FirstFault parts.parameters error → parse text = .error error := by
  refine ⟨fun definition => ⟨writes_of_parse_eq_ok, Writes.parse_eq_ok⟩, fun parts written =>
    ⟨writesParameters_or_firstFault parts.parameters, fun error fault => ?_⟩⟩
  obtain ⟨read, -, order⟩ := written.parse_eq
  rw [order, fault.parametersOf_eq]
  rfl

/-- In `f(a, a, 1) => +` the second parameter is reported, not the third or the body. -/
theorem parse_repeated_before_unreadable :
    (⟨['f'], none, "a, a, 1".toList, " +".toList⟩ : Parts).Written "f(a, a, 1) => +".toList ∧
      FirstFault "a, a, 1".toList (.duplicateParameter "a") ∧
      parse "f(a, a, 1) => +" = .error (.duplicateParameter "a") := by
  have blank : AllBlank [' '] := by decide
  have word : IsWordOf isWordPart ['a'] := ⟨rfl, nofun⟩
  have written : (⟨['f'], none, "a, a, 1".toList, " +".toList⟩ : Parts).Written
      "f(a, a, 1) => +".toList :=
    @Parts.Written.written [] ['f'] [] [] [] "a, a, 1".toList [' '] " +".toList none
      nofun ⟨rfl, nofun⟩ nofun .absent nofun (by decide) blank (by decide)
  have first : WritesParameter ['a'] ("a", .any) :=
    @WritesParameter.untyped [] ['a'] [] nofun word nofun
  have second : WritesParameter [' ', 'a'] ("a", .any) :=
    @WritesParameter.untyped [' '] ['a'] [] blank word nofun
  have separated : IsSeparated "a, a, 1".toList [['a'], [' ', 'a'], [' ', '1']] :=
    isSeparated_iff.mpr (by decide)
  have fault : FirstFault "a, a, 1".toList (.duplicateParameter "a") :=
    @FirstFault.repeated _ _ [['a']] [[' ', '1']] [("a", .any)] ("a", .any) (by decide) separated
      (.cons first .nil) (by decide) second (by decide)
  exact ⟨written, fault, ((parse_eq_ok_iff_writes _).2 _ written).2 _ fault⟩

end FunctionDefinition

end Reckon
