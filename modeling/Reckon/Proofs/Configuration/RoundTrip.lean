/-
This file shows that a configuration is read back from the JSON text written for
it, by any library for JSON that can be relied on. The sets of names may be
listed in any order, since a set that is held as a hash table is written in the
order in which the table keeps it.

Only a binary number as the undefined value is left out: one that is whole may be
read back as an integer, and one that is not finite has no JSON form.

A document gives its settings by name, so reading it is applying its settings one
after the other to the configuration of defaults. Each setting of a written
document is applied to its own part, and every part is set. The undefined value
is told by its shape alone: the kinds of values that are tried before its own
refuse its document.
-/

import Mathlib.Data.List.Perm.Basic
import Reckon.Configuration.Json
import Reckon.Proofs.Json.Library

namespace Reckon

/-! ### Sets of names -/

namespace NameSet

theorem names_nodup (set : NameSet) : set.names.Nodup := by
  refine List.Pairwise.imp ?_ set.ordered
  rintro name _ less rfl
  exact String.lt_irrefl name less

theorem eq_of_mem_iff {first second : NameSet}
    (same : ∀ name, name ∈ first.names ↔ name ∈ second.names) : first = second := by
  have order : first.names.Perm second.names :=
    (List.perm_ext_iff_of_nodup first.names_nodup second.names_nodup).mpr same
  obtain ⟨names, ordered⟩ := first
  obtain ⟨names', ordered'⟩ := second
  have equal : names = names' := order.eq_of_pairwise
    (fun _ _ _ _ less greater => absurd greater (String.lt_asymm less)) ordered ordered'
  subst equal
  rfl

/-- A set is the set of its names in any order. -/
theorem ofList_of_perm {set : NameSet} {names : List String} (order : names.Perm set.names) :
    ofList names = set := by
  refine eq_of_mem_iff fun name => ?_
  rw [← order.mem_iff, ← List.contains_iff_mem, ← List.contains_iff_mem]
  exact Bool.eq_iff_iff.mp (contains_ofList names name)

end NameSet

variable {library : JsonLibrary}

/-! ### Values -/

namespace Value

/-- A value that is no binary number is read back from its JSON form. -/
theorem ofJson?_toJson (faithful : library.IsFaithful) {value : Value}
    (notFloat : ∀ number, value ≠ .float number) : ofJson? library value.toJson = some value := by
  cases value with
  | null =>
    unfold ofJson?
    rw [show toJson null = .null from rfl, faithful.nothing]
    rfl
  | boolean truth =>
    unfold ofJson?
    rw [show toJson (boolean truth) = .boolean truth from rfl, faithful.nothingOnly (by simp),
      faithful.truth]
    rfl
  | integer number =>
    unfold ofJson?
    rw [show toJson (integer number) = .integer number.toInt from rfl,
      faithful.nothingOnly (by simp), faithful.truthOnly (by simp), faithful.integer]
    rfl
  | float number => exact absurd rfl (notFloat number)
  | text content =>
    unfold ofJson?
    rw [show toJson (text content) = .text content from rfl, faithful.nothingOnly (by simp),
      faithful.truthOnly (by simp), faithful.integerOnly (by simp),
      faithful.floatOnly (by simp), faithful.text]
    rfl
  | domain member =>
    have read : domainOfJson? library (toJson (domain member)) = some member := by
      show ((library.text? (.text member.typeName)).bind fun typeName =>
        (library.text? (.text member.name)).bind fun name =>
          some (DomainValue.mk typeName name)) = _
      rw [faithful.text, faithful.text]
      rfl
    have isObject : ∀ {kind : JsonKind}, .object ≠ kind → (toJson (domain member)).kind ≠ kind := id
    unfold ofJson?
    rw [faithful.nothingOnly (isObject (by decide)), faithful.truthOnly (isObject (by decide)),
      faithful.integerOnly (isObject (by decide)), faithful.floatOnly (isObject (by decide)),
      faithful.textOnly (isObject (by decide)), read]
    rfl

theorem isPlain_toJson {value : Value} (notFloat : ∀ number, value ≠ .float number)
    (levels : Nat) : value.toJson.IsPlain (levels + 1) := by
  cases value with
  | null => exact .null
  | boolean => exact .boolean
  | text => exact .text
  | integer number =>
    exact .integer (Int64.le_toInt number)
      (Int.lt_of_le_of_lt (Int64.toInt_le number) (by decide))
  | float number => exact absurd rfl (notFloat number)
  | domain member =>
    exact .object (List.forall_mem_cons.mpr ⟨.text, List.forall_mem_singleton.mpr .text⟩)

end Value

namespace Configuration

/-! ### Written configurations -/

variable {configuration : Configuration}

/-- The names of a set are read back in any order. -/
theorem names?_of_perm (faithful : library.IsFaithful) {set : NameSet} {names : List String}
    (order : names.Perm set.names) : library.names? (.array (names.map .text)) = some set := by
  rw [faithful.names, NameSet.ofList_of_perm order]

namespace Listing

theorem map_fst_members (listing : Listing configuration) :
    listing.members.map Prod.fst = settingNames := rfl

theorem isPlain (listing : Listing configuration)
    (notFloat : ∀ number, configuration.undefinedValue ≠ .float number) :
    (Json.object listing.members).IsPlain jsonNestingLimit := by
  have least : Int64.minValue.toInt ≤ 0 := by decide
  have count : ∀ count : UInt64, Json.IsPlain (jsonNestingLimit - 1) (.integer count.toNat) :=
    fun count => .integer (Int.le_trans least (Int.natCast_nonneg _))
      (Int.ofNat_lt.mpr count.toNat_lt)
  have names : ∀ names : List String,
      Json.IsPlain (jsonNestingLimit - 1) (.array (names.map .text)) := by
    intro names
    refine .array fun item among => ?_
    obtain ⟨name, -, rfl⟩ := List.mem_map.mp among
    exact .text
  refine .object ?_
  simp only [members, List.forall_mem_cons]
  exact ⟨.boolean, count _, count _, count _, .boolean, names _, names _, names _, names _,
    Value.isPlain_toJson notFloat _, .boolean, nofun⟩

/-- Every setting is read back from its own document. -/
theorem ofSettings?_members (faithful : library.IsFaithful) (listing : Listing configuration)
    (notFloat : ∀ number, configuration.undefinedValue ≠ .float number) :
    ofSettings? library listing.members = some configuration := by
  simp only [ofSettings?, members, List.foldlM_cons, List.foldlM_nil, withSetting?,
    faithful.truth, faithful.count, names?_of_perm faithful listing.variablesAdmitted,
    names?_of_perm faithful listing.variablesRefused,
    names?_of_perm faithful listing.functionsAdmitted,
    names?_of_perm faithful listing.functionsRefused, Value.ofJson?_toJson faithful notFloat,
    Option.map_some]
  rfl

/-- The document of a configuration is read setting by setting: all its members are settings, each
stands there once. -/
theorem ofJson?_members (library : JsonLibrary) (listing : Listing configuration) :
    ofJson? library (.object listing.members) = ofSettings? library listing.members := by
  have known : listing.members.filter (fun member => member.1 ∈ settingNames) =
      listing.members := by
    refine List.filter_eq_self.mpr fun member among => decide_eq_true ?_
    exact listing.map_fst_members ▸ List.mem_map_of_mem among
  have distinct : (listing.members.map Prod.fst).Nodup := by
    rw [listing.map_fst_members]
    decide
  rw [ofJson?, known, if_pos distinct]

end Listing

/-- A configuration is read back from what is written for it, in whatever order its sets are
listed. -/
theorem ofText?_toText (faithful : library.IsFaithful) (configuration : Configuration)
    (notFloat : ∀ number, configuration.undefinedValue ≠ .float number)
    (listing : Listing configuration) :
    ofText? library (listing.toText library) = some configuration := by
  have known : ∀ member ∈ listing.members, member.1 ∈ settingNames := fun member among =>
    listing.map_fst_members ▸ List.mem_map_of_mem among
  unfold ofText? Listing.toText
  rw [faithful.object (listing.isPlain notFloat) known]
  exact (listing.ofJson?_members library).trans (listing.ofSettings?_members faithful notFloat)

/-- Names that must be escaped, a limit of the full range and a domain value are read back, also
with the names listed backwards. -/
theorem ofText?_toText_backwards :
    let configuration : Configuration :=
      { maxRecursionDepth := 18446744073709551615
        variableWhitelist := .ofList ["say \"yes\"", "a\\b", "\x00"]
        undefinedValue := .domain ⟨"Colour", "red"⟩ }
    let increasing := Listing.increasing configuration
    let backwards : Listing configuration :=
      { increasing with
        variableWhitelist := configuration.variableWhitelist.names.reverse
        variablesAdmitted := List.reverse_perm _ }
    Json.library.IsFaithful ∧ (∀ number, configuration.undefinedValue ≠ .float number) ∧
      ofText? Json.library (increasing.toText Json.library) = some configuration ∧
      ofText? Json.library (backwards.toText Json.library) = some configuration := by
  intro configuration increasing backwards
  have notFloat : ∀ number, configuration.undefinedValue ≠ .float number := by
    intro number same
    cases same
  have readBack := ofText?_toText Json.isFaithful_library configuration notFloat
  exact ⟨Json.isFaithful_library, notFloat, readBack increasing, readBack backwards⟩

end Configuration

end Reckon
