/-
This file holds JSON documents. An object keeps its members as they were
written, repeated keys included; where a document is read as a plain tree, only
the last member under a key counts and the members are taken in the order of
their keys, which is what `canonical` does.

Integers that fit into 64 bits, with a sign or without one, are kept as
integers; all other numbers are binary numbers.
-/

import Reckon.Binary64

namespace Reckon

/-- A JSON document. -/
inductive Json where
  | null
  | boolean (truth : Bool)
  | integer (number : Int)
  | float (number : Binary64)
  | text (content : String)
  | array (items : List Json)
  | object (members : List (String × Json))
  deriving Inhabited

namespace Json

/-- Puts a member into its place in a list in the order of keys, over any member of its key. -/
def insertMember (key : String) (value : Json) : List (String × Json) → List (String × Json)
  | [] => [(key, value)]
  | (head, headValue) :: rest =>
    if key < head then (key, value) :: (head, headValue) :: rest
    else if key = head then (key, value) :: rest
    else (head, headValue) :: insertMember key value rest

mutual

/-- A document with the members of each object in the order of their keys, of those under one
key the last. -/
def canonical : Json → Json
  | .array items => .array (canonicalItems items)
  | .object members => .object (canonicalMembers members [])
  | other => other

/-- The canonical forms of the items of an array. -/
def canonicalItems : List Json → List Json
  | [] => []
  | item :: rest => canonical item :: canonicalItems rest

/-- The canonical members of an object, put into a list of members seen before them. -/
def canonicalMembers : List (String × Json) → List (String × Json) → List (String × Json)
  | [], seen => seen
  | (key, value) :: rest, seen => canonicalMembers rest (insertMember key (canonical value) seen)

end

end Json

end Reckon
