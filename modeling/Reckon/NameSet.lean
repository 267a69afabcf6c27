/-
This file holds finite sets of names. A set is kept as its names in increasing
order, so that equal sets are the same list and an answer can list a set in
order.
-/

namespace Reckon

/-- A finite set of names, in increasing order. -/
structure NameSet where
  names : List String
  ordered : names.Pairwise (· < ·) := by simp
  deriving DecidableEq

namespace NameSet

/-- The set without names. -/
def empty : NameSet where
  names := []

instance : Inhabited NameSet := ⟨empty⟩

/-- Puts a name into its place in an increasing list, unless it is there already. -/
def insertOrdered (name : String) : List String → List String
  | [] => [name]
  | head :: rest =>
    if name < head then name :: head :: rest
    else if name = head then head :: rest
    else head :: insertOrdered name rest

theorem mem_insertOrdered {name other : String} {names : List String} :
    other ∈ insertOrdered name names ↔ other = name ∨ other ∈ names := by
  induction names with
  | nil => simp [insertOrdered]
  | cons head rest inductionHypothesis =>
    simp only [insertOrdered]
    split
    · simp
    · split
      next same => simp [same]
      next => simp only [List.mem_cons, inductionHypothesis]; exact or_left_comm

theorem insertOrdered_ordered (name : String) {names : List String}
    (ordered : names.Pairwise (· < ·)) : (insertOrdered name names).Pairwise (· < ·) := by
  induction names with
  | nil => simp [insertOrdered]
  | cons head rest inductionHypothesis =>
    obtain ⟨headLess, restOrdered⟩ := List.pairwise_cons.1 ordered
    simp only [insertOrdered]
    split
    next less =>
      refine List.pairwise_cons.2 ⟨fun other member => ?_, ordered⟩
      rcases List.mem_cons.1 member with rfl | later
      · exact less
      · exact String.lt_trans less (headLess other later)
    next notLess =>
      split
      · exact ordered
      next different =>
        refine List.pairwise_cons.2 ⟨fun other member => ?_, inductionHypothesis restOrdered⟩
        rcases mem_insertOrdered.1 member with rfl | later
        · exact Std.lt_of_le_of_ne (String.not_lt.1 notLess) (Ne.symm different)
        · exact headLess other later

/-- The set with a name. -/
def insert (set : NameSet) (name : String) : NameSet where
  names := insertOrdered name set.names
  ordered := insertOrdered_ordered name set.ordered

/-- The set of the names of a list. -/
def ofList (names : List String) : NameSet :=
  names.foldl insert empty

/-- Whether a set has a name. -/
def contains (set : NameSet) (name : String) : Bool :=
  set.names.contains name

/-- Whether a set has no name. -/
def isEmpty (set : NameSet) : Bool :=
  set.names.isEmpty

theorem contains_insert (set : NameSet) (name other : String) :
    (set.insert name).contains other = (other == name || set.contains other) := by
  rw [Bool.eq_iff_iff]
  simp only [contains, insert, List.contains_iff_mem, mem_insertOrdered, Bool.or_eq_true,
    beq_iff_eq]

/-- The set of a list has the names of the list. -/
theorem contains_ofList (names : List String) (name : String) :
    (ofList names).contains name = names.contains name := by
  have general : ∀ set : NameSet, (names.foldl insert set).contains name =
      (names.contains name || set.contains name) := by
    induction names with
    | nil => intro set; simp
    | cons head rest inductionHypothesis =>
      intro set
      rw [List.foldl_cons, inductionHypothesis, contains_insert, List.contains_cons,
        ← Bool.or_assoc, Bool.or_comm (rest.contains name)]
  rw [ofList, general]
  simp [contains, empty]

end NameSet

end Reckon
