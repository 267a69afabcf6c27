/-
This file holds finite maps. Everything the library keeps under a name lives
in one of these: the variables of a scope, the registries of operations,
functions and types, the context, the caches. A key occurs at most once, which
is part of the type, so the number of entries is the number of keys. No answer
depends on the order of the entries.
-/

namespace Reckon

/-- A finite map: its entries, no two of them under one key. -/
structure Dictionary (Key Entry : Type) where
  entries : List (Key × Entry)
  distinct : (entries.map Prod.fst).Nodup := by simp

namespace Dictionary

variable {Key Entry : Type}

/-- The map without entries. -/
def empty : Dictionary Key Entry where
  entries := []

instance : EmptyCollection (Dictionary Key Entry) := ⟨empty⟩

instance : Inhabited (Dictionary Key Entry) := ⟨empty⟩

/-- The number of keys. -/
def size (dictionary : Dictionary Key Entry) : Nat :=
  dictionary.entries.length

/-- The keys, in no order that matters. -/
def keys (dictionary : Dictionary Key Entry) : List Key :=
  dictionary.entries.map Prod.fst

variable [DecidableEq Key]

/-- The entry under a key. -/
def get? (dictionary : Dictionary Key Entry) (key : Key) : Option Entry :=
  (dictionary.entries.find? fun entry => entry.1 = key).map Prod.snd

/-- Whether a key has an entry. -/
def contains (dictionary : Dictionary Key Entry) (key : Key) : Bool :=
  (dictionary.get? key).isSome

/-- The map without a key. -/
def erase (dictionary : Dictionary Key Entry) (key : Key) : Dictionary Key Entry where
  entries := dictionary.entries.filter fun entry => entry.1 ≠ key
  distinct := (List.filter_sublist.map Prod.fst).nodup dictionary.distinct

/-- The map with an entry under a key, in place of any entry it had there. -/
def insert (dictionary : Dictionary Key Entry) (key : Key) (entry : Entry) :
    Dictionary Key Entry where
  entries := (key, entry) :: (dictionary.erase key).entries
  distinct := by
    refine List.nodup_cons.2 ⟨?_, (dictionary.erase key).distinct⟩
    simp [erase]

/-- The map with the entry under a key, if there is one, changed by a function. -/
def modify (dictionary : Dictionary Key Entry) (key : Key) (change : Entry → Entry) :
    Dictionary Key Entry where
  entries := dictionary.entries.map fun entry =>
    if entry.1 = key then (entry.1, change entry.2) else entry
  distinct := by
    have same : (Prod.fst ∘ fun entry : Key × Entry =>
        if entry.1 = key then (entry.1, change entry.2) else entry) = Prod.fst := by
      funext entry
      simp only [Function.comp_apply]
      split <;> rfl
    rw [List.map_map, same]
    exact dictionary.distinct

/-- The map with every entry changed by a function. -/
def mapEntries {Changed : Type} (dictionary : Dictionary Key Entry) (change : Entry → Changed) :
    Dictionary Key Changed where
  entries := dictionary.entries.map fun entry => (entry.1, change entry.2)
  distinct := by
    rw [List.map_map]
    exact dictionary.distinct

/-- The map of a list of entries; of two under one key the later counts. -/
def ofList (entries : List (Key × Entry)) : Dictionary Key Entry :=
  entries.foldl (fun dictionary entry => dictionary.insert entry.1 entry.2) empty

/-- The first map with every entry of the second written over it. -/
def merge (base changes : Dictionary Key Entry) : Dictionary Key Entry :=
  changes.entries.foldl (fun dictionary entry => dictionary.insert entry.1 entry.2) base

/-- The entries of a map under names, in the order of the names. -/
def sorted (dictionary : Dictionary String Entry) : List (String × Entry) :=
  dictionary.entries.mergeSort fun first second => decide (first.1 ≤ second.1)

/-! ### What each operation does to the look-up -/

/-- The look-up finds exactly the entries. -/
theorem mem_entries_iff (dictionary : Dictionary Key Entry) (key : Key) (entry : Entry) :
    (key, entry) ∈ dictionary.entries ↔ dictionary.get? key = some entry := by
  obtain ⟨entries, distinct⟩ := dictionary
  simp only [get?]
  induction entries with
  | nil => simp
  | cons head rest inductionHypothesis =>
    obtain ⟨first, value⟩ := head
    have parts := List.nodup_cons.1 distinct
    by_cases same : first = key
    · subst same
      have absent : ∀ other, (first, other) ∉ rest := by
        intro other member
        exact parts.1 (List.mem_map.2 ⟨_, member, rfl⟩)
      simp [absent, eq_comm]
    · have later := inductionHypothesis parts.2
      simp only [List.mem_cons, Prod.mk.injEq, List.find?_cons, same, decide_false] at later ⊢
      rw [← later]
      simp [Ne.symm same]

@[simp] theorem get?_empty (key : Key) : (empty : Dictionary Key Entry).get? key = none := rfl

theorem get?_erase (dictionary : Dictionary Key Entry) (erased key : Key) :
    (dictionary.erase erased).get? key = if key = erased then none else dictionary.get? key := by
  simp only [get?, erase, List.find?_filter]
  split
  next same =>
    subst same
    simp only [Option.map_eq_none_iff, List.find?_eq_none]
    simp
  next different =>
    congr 1
    congr 1
    funext entry
    by_cases at_key : entry.1 = key <;> simp [at_key, different]

theorem get?_insert (dictionary : Dictionary Key Entry) (inserted key : Key) (entry : Entry) :
    (dictionary.insert inserted entry).get? key =
      if key = inserted then some entry else dictionary.get? key := by
  by_cases same : key = inserted
  · simp [get?, insert, same]
  · have other := get?_erase dictionary inserted key
    rw [if_neg same] at other
    rw [if_neg same, ← other]
    simp [get?, insert, Ne.symm same]

theorem get?_modify (dictionary : Dictionary Key Entry) (changed key : Key)
    (change : Entry → Entry) :
    (dictionary.modify changed change).get? key =
      if key = changed then (dictionary.get? key).map change else dictionary.get? key := by
  have same : ((fun entry : Key × Entry => decide (entry.1 = key)) ∘ fun entry =>
      if entry.1 = changed then (entry.1, change entry.2) else entry) =
        fun entry => decide (entry.1 = key) := by
    funext entry
    simp only [Function.comp_apply]
    split <;> rfl
  simp only [get?, modify, List.find?_map, same]
  cases found : dictionary.entries.find? fun entry => decide (entry.1 = key) with
  | none => simp
  | some entry =>
    have at_key : entry.1 = key := by simpa using List.find?_some found
    simp only [Option.map_some, at_key]
    split <;> rfl

theorem get?_mapEntries {Changed : Type} (dictionary : Dictionary Key Entry)
    (change : Entry → Changed) (key : Key) :
    (dictionary.mapEntries change).get? key = (dictionary.get? key).map change := by
  simp [get?, mapEntries, List.find?_map, Function.comp_def]

/-- Of two entries of a list under one key the later counts. -/
theorem get?_ofList_append (entries : List (Key × Entry)) (key : Key) (entry : Entry)
    (other : Key) :
    (ofList (entries ++ [(key, entry)])).get? other =
      if other = key then some entry else (ofList entries).get? other := by
  rw [ofList, List.foldl_append]
  exact get?_insert _ _ _ _

/-- The keys of the map of a list of entries. -/
theorem contains_ofList_iff (entries : List (Key × Entry)) (key : Key) :
    (ofList entries).contains key = true ↔ key ∈ entries.map Prod.fst := by
  have onto : ∀ base : Dictionary Key Entry,
      (entries.foldl (fun dictionary entry => dictionary.insert entry.1 entry.2) base).contains
          key = true ↔ base.contains key = true ∨ key ∈ entries.map Prod.fst := by
    induction entries with
    | nil => exact fun base => (or_iff_left List.not_mem_nil).symm
    | cons entry rest inductionHypothesis =>
      intro base
      rw [List.foldl_cons, inductionHypothesis, List.map_cons, List.mem_cons]
      unfold contains
      rw [get?_insert]
      by_cases same : key = entry.1 <;> simp [same]
  exact (onto empty).trans (or_iff_right Bool.false_ne_true)

/-- The map of a list of entries holds no others. -/
theorem mem_of_get?_ofList {entries : List (Key × Entry)} {key : Key} {entry : Entry}
    (found : (ofList entries).get? key = some entry) : (key, entry) ∈ entries := by
  have onto : ∀ base : Dictionary Key Entry,
      (entries.foldl (fun dictionary entry => dictionary.insert entry.1 entry.2) base).get? key =
          some entry → (key, entry) ∈ entries ∨ base.get? key = some entry := by
    clear found
    induction entries with
    | nil => exact fun base => Or.inr
    | cons head rest inductionHypothesis =>
      intro base found
      rcases inductionHypothesis _ found with later | here
      · exact .inl (List.mem_cons_of_mem _ later)
      · rw [get?_insert] at here
        split at here
        next same =>
          cases here
          exact .inl (same ▸ List.mem_cons_self)
        next => exact .inr here
  exact (onto empty found).resolve_right nofun

end Dictionary

end Reckon
