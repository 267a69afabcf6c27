/-
This file says what a library for JSON is relied on to do. A plain object is read
back from the text written for it, built-in types are read from their own
documents, and a document of another kind is refused. Binary numbers and texts
that nobody wrote are left open.

The library made of the reader and the writer of JSON texts does all that.
-/

import Reckon.Json.Library
import Reckon.Proofs.Json.Reading

namespace Reckon

/-- The kinds of JSON documents. -/
inductive JsonKind where
  | null
  | truth
  | number
  | text
  | array
  | object
  deriving DecidableEq

/-- The kind of a document. -/
@[simp] def Json.kind : Json → JsonKind
  | .null => .null
  | .boolean _ => .truth
  | .integer _ => .number
  | .float _ => .number
  | .text _ => .text
  | .array _ => .array
  | .object _ => .object

/-- What a library for JSON is relied on to do. -/
structure JsonLibrary.IsFaithful (library : JsonLibrary) : Prop where
  /-- An object whose members are all asked for is read back from its text. -/
  object : ∀ {asked : List String} {members : List (String × Json)},
    (Json.object members).IsPlain jsonNestingLimit → (∀ member ∈ members, member.1 ∈ asked) →
      library.read? asked (library.write (.object members)) = some (.object members)
  nothing : library.nothing? .null = some ()
  truth : ∀ truth, library.truth? (.boolean truth) = some truth
  integer : ∀ number : Int64, library.integer? (.integer number.toInt) = some number
  count : ∀ count : UInt64, library.count? (.integer count.toNat) = some count
  text : ∀ content, library.text? (.text content) = some content
  names : ∀ names : List String, library.names? (.array (names.map .text)) = some (.ofList names)
  nothingOnly : ∀ {document : Json}, document.kind ≠ .null → library.nothing? document = none
  truthOnly : ∀ {document : Json}, document.kind ≠ .truth → library.truth? document = none
  integerOnly : ∀ {document : Json}, document.kind ≠ .number → library.integer? document = none
  floatOnly : ∀ {document : Json}, document.kind ≠ .number → library.float? document = none
  textOnly : ∀ {document : Json}, document.kind ≠ .text → library.text? document = none

namespace JsonDraft

/-- Members that are read back are read if they are asked for. -/
theorem askedMembers?_of_readsBack {drafts : List (List TextPart × JsonDraft)}
    {members : List (String × Json)} {asked : List String}
    (back : List.Forall₂ (ReadsMemberBack (jsonNestingLimit - 1)) drafts members)
    (known : ∀ member ∈ members, member.1 ∈ asked) :
    askedMembers? asked drafts = some members := by
  induction back with
  | nil => rfl
  | @cons draft member drafts members first _ inductionHypothesis =>
    obtain ⟨knownFirst, knownLater⟩ := List.forall_mem_cons.mp known
    rw [askedMembers?, first.key, inductionHypothesis knownLater]
    show (if member.1 ∉ asked then _ else _) = _
    rw [if_neg (not_not.mpr knownFirst), first.value.held]
    rfl

/-- A plain object is read back from its text, in either layout. -/
theorem readAsked?_characters {members : List (String × Json)} {asked : List String}
    (plain : (Json.object members).IsPlain jsonNestingLimit)
    (known : ∀ member ∈ members, member.1 ∈ asked) (layout : JsonLayout) :
    readAsked? asked (String.ofList ((Json.object members).characters layout 0)) =
      some (.object members) := by
  cases plain with
  | object each =>
    obtain ⟨drafts, back⟩ := exists_readsMembersBack fun member among =>
      exists_readsBack (each member among)
    unfold readAsked?
    rw [(ReadsBack.object back).read? layout]
    show (askedMembers? asked drafts).bind _ = _
    rw [askedMembers?_of_readsBack back known]
    rfl

end JsonDraft

namespace Json

/-- The texts of an array are read as the set of them. -/
theorem names?_texts (names : List String) :
    names? (.array (names.map .text)) = some (.ofList names) := by
  have each : (names.map Json.text).mapM text? = some names := by
    rw [List.mapM_map]
    exact List.mapM_pure.trans (congrArg some (List.map_id names))
  rw [names?, each, Option.map_some]

theorem isFaithful_library : library.IsFaithful where
  object plain known := JsonDraft.readAsked?_characters plain known .pretty
  nothing := rfl
  truth _ := rfl
  integer number := by
    show (if fitsInt64 number.toInt then some (Int64.ofInt number.toInt) else none) = _
    rw [if_pos (fitsInt64_toInt number), Int64.ofInt_toInt]
  count count := by
    show (if 0 ≤ (count.toNat : Int) then some (UInt64.ofNat (count.toNat : Int).toNat)
      else none) = _
    rw [if_pos (Int.natCast_nonneg _), Int.toNat_natCast, UInt64.ofNat_toNat]
  text _ := rfl
  names := names?_texts
  nothingOnly {document} other := by cases document <;> first | rfl | exact absurd rfl other
  truthOnly {document} other := by cases document <;> first | rfl | exact absurd rfl other
  integerOnly {document} other := by cases document <;> first | rfl | exact absurd rfl other
  floatOnly {document} other := by cases document <;> first | rfl | exact absurd rfl other
  textOnly {document} other := by cases document <;> first | rfl | exact absurd rfl other

end Json

end Reckon
