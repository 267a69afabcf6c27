/-
This file says what is needed of a library for JSON: it writes documents as texts
and reads them from texts, and it reads built-in types from documents. What a
value or a configuration looks like as a document is not its concern.

One such library is made of the writer and the reader of JSON texts.
-/

import Reckon.Json.Draft
import Reckon.Json.Writer
import Reckon.NameSet

namespace Reckon

/-- A library that writes JSON documents as texts and reads them back. -/
structure JsonLibrary where
  /-- The text of a document, across lines. -/
  write : Json → String
  /-- The document of a text. If it is an object, its members under names that are asked for are
  read, and the others are passed over. -/
  read? (asked : List String) (source : String) : Option Json
  nothing? : Json → Option Unit
  truth? : Json → Option Bool
  integer? : Json → Option Int64
  count? : Json → Option UInt64
  float? : Json → Option Binary64
  text? : Json → Option String
  names? : Json → Option NameSet

namespace JsonDraft

/-- The members of an object under names that are asked for. They lie one level inside. -/
def askedMembers? (asked : List String) :
    List (List TextPart × JsonDraft) → Option (List (String × Json))
  | [] => some []
  | (parts, draft) :: rest => do
    let key ← text? parts
    let later ← askedMembers? asked rest
    if key ∉ asked then return later
    else return (key, ← document? (jsonNestingLimit - 1) draft) :: later

/-- Reads a text. Of the members of an object, those that nobody asks for are only split by the
grammar. -/
def readAsked? (asked : List String) (source : String) : Option Json := do
  match ← read? source with
  | .object members => return .object (← askedMembers? asked members)
  | draft => document? jsonNestingLimit draft

end JsonDraft

namespace Json

def nothing? : Json → Option Unit
  | .null => some ()
  | _ => none

def truth? : Json → Option Bool
  | .boolean truth => some truth
  | _ => none

def integer? : Json → Option Int64
  | .integer number => if fitsInt64 number then some (.ofInt number) else none
  | _ => none

def count? : Json → Option UInt64
  | .integer number => if 0 ≤ number then some (.ofNat number.toNat) else none
  | _ => none

def float? : Json → Option Binary64
  | .integer number => some (.ofInt number)
  | .float number => some number
  | _ => none

def text? : Json → Option String
  | .text content => some content
  | _ => none

/-- The set of the texts of an array. -/
def names? : Json → Option NameSet
  | .array items => (items.mapM text?).map .ofList
  | _ => none

/-- The library made of the reader and the writer of JSON texts. Its integers have 64 bits, with a
sign or without one, and it reads every number as a binary number. -/
def library : JsonLibrary where
  write := pretty
  read? := JsonDraft.readAsked?
  nothing? := nothing?
  truth? := truth?
  integer? := integer?
  count? := count?
  float? := float?
  text? := text?
  names? := names?

end Json

end Reckon
