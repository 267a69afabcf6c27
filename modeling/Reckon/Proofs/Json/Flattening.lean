/-
This file shows that flattening a document neither loses nor invents a scalar.
The variables are in bijection with the paths to the scalars of the document,
as long as every key is a text without a dot that is not empty.

A path is a list of steps, each a key of an object or a place in an array. The
name of a variable has the texts of the steps with dots in between. Since no
step has a dot in its text, the name gives back the texts; and since what a
document has at a step is an object or an array, the texts give back the steps.
-/

import Mathlib.Data.Set.Function
import Reckon.Json.Values

namespace Reckon

namespace Json

/-! ### Paths into a document -/

/-- A step from a document to one of its parts: to the member of an object under a key, or to the
item of an array at a place. -/
inductive Step where
  | key (name : String)
  | place (index : Nat)

/-- What a step is called in the name of a variable. -/
def Step.text : Step → String
  | .key name => name
  | .place index => toString index

/-- The name that a path gives a variable. -/
def pathName (path : List Step) : String :=
  ".".intercalate (path.map Step.text)

/-- Whether a document is neither an array nor an object. -/
def isScalar : Json → Bool
  | .array _ | .object _ => false
  | _ => true

/-- The member under a key; of several the last counts. -/
def member? (key : String) : List (String × Json) → Option Json
  | [] => none
  | (other, value) :: rest => (member? key rest).or (if key = other then some value else none)

/-- The part of a document that a step leads to. -/
def part? : Json → Step → Option Json
  | .object members, .key name => member? name members
  | .array items, .place index => items[index]?
  | _, _ => none

/-- What a path leads to. -/
def descend? (document : Json) : List Step → Option Json
  | [] => some document
  | step :: path => (document.part? step).bind fun part => part.descend? path

/-- Whether a path leads to a scalar. -/
structure HasLeaf (document : Json) (path : List Step) (leaf : Json) : Prop where
  descends : document.descend? path = some leaf
  scalar : leaf.isScalar = true

/-- Whether a key is a text without a dot that is not empty. -/
def isPlainKey (key : String) : Bool :=
  key ≠ "" && !key.toList.contains '.'

mutual

/-- Whether every key in a document is plain. -/
def hasPlainKeys : Json → Bool
  | .array items => itemsHavePlainKeys items
  | .object members => membersHavePlainKeys members
  | _ => true

/-- Whether every key in the items of an array is plain. -/
def itemsHavePlainKeys : List Json → Bool
  | [] => true
  | item :: rest => hasPlainKeys item && itemsHavePlainKeys rest

/-- Whether the keys of members and every key in their values are plain. -/
def membersHavePlainKeys : List (String × Json) → Bool
  | [] => true
  | (key, value) :: rest => isPlainKey key && hasPlainKeys value && membersHavePlainKeys rest

end

theorem mem_of_member? {key : String} {members : List (String × Json)} {value : Json}
    (found : member? key members = some value) : (key, value) ∈ members := by
  induction members with
  | nil => cases found
  | cons head rest inductionHypothesis =>
    obtain ⟨other, first⟩ := head
    unfold member? at found
    cases later : member? key rest with
    | some last =>
      rw [later] at found
      cases found
      exact List.mem_cons_of_mem _ (inductionHypothesis later)
    | none =>
      rw [later, Option.none_or] at found
      split at found
      next same =>
        cases found
        exact same ▸ List.mem_cons_self
      next => cases found

theorem sizeOf_part {document part : Json} {step : Step} (leads : document.part? step = some part) :
    sizeOf part < sizeOf document := by
  cases document with
  | object members =>
    cases step with
    | key name =>
      have member := List.sizeOf_lt_of_mem (mem_of_member? leads)
      simp only [Prod.mk.sizeOf_spec, object.sizeOf_spec] at member ⊢
      omega
    | place index => cases leads
  | array items =>
    cases step with
    | key name => cases leads
    | place index =>
      have member := List.sizeOf_lt_of_mem (List.mem_of_getElem? leads)
      simp only [array.sizeOf_spec]
      omega
  | _ => cases step <;> cases leads

/-- What is said of a document may be assumed of its parts. -/
theorem part_induction {motive : Json → Prop}
    (step : ∀ document, (∀ step part, document.part? step = some part → motive part) →
      motive document) (document : Json) : motive document :=
  step document fun _ part _ => part_induction step part
termination_by sizeOf document
decreasing_by exact sizeOf_part ‹_›

/-! ### Canonical documents -/

/-- Members in the order of their keys, no two of them under one key. -/
def Ordered (members : List (String × Json)) : Prop :=
  members.Pairwise fun first second => first.1 < second.1

variable {key : String} {value : Json} {member : String × Json} {members : List (String × Json)}

theorem mem_insertMember (ordered : Ordered members) :
    member ∈ insertMember key value members ↔
      member = (key, value) ∨ member.1 ≠ key ∧ member ∈ members := by
  induction members with
  | nil => simp [insertMember]
  | cons head rest inductionHypothesis =>
    obtain ⟨other, first⟩ := head
    obtain ⟨less, restOrdered⟩ := List.pairwise_cons.1 ordered
    simp only [insertMember]
    split
    next before =>
      have different : ∀ {member}, member ∈ (other, first) :: rest → member.1 ≠ key := by
        rintro member listed rfl
        rcases List.mem_cons.1 listed with rfl | later
        · exact String.lt_irrefl _ before
        · exact String.lt_irrefl _ (String.lt_trans before (less member later))
      rw [List.mem_cons]
      exact or_congr_right ⟨fun listed => ⟨different listed, listed⟩, And.right⟩
    next notBefore =>
      split
      next same =>
        subst same
        have different : ∀ {member}, member ∈ rest → member.1 ≠ key := by
          rintro member later rfl
          exact String.lt_irrefl _ (less member later)
        rw [List.mem_cons, List.mem_cons]
        refine or_congr_right ⟨fun later => ⟨different later, .inr later⟩, ?_⟩
        rintro ⟨other, rfl | later⟩
        · exact absurd rfl other
        · exact later
      next different =>
        rw [List.mem_cons, inductionHypothesis restOrdered, List.mem_cons]
        constructor
        · rintro (rfl | rfl | ⟨other, later⟩)
          · exact .inr ⟨fun same => different same.symm, .inl rfl⟩
          · exact .inl rfl
          · exact .inr ⟨other, .inr later⟩
        · rintro (rfl | ⟨other, rfl | later⟩)
          · exact .inr (.inl rfl)
          · exact .inl rfl
          · exact .inr (.inr ⟨other, later⟩)

theorem ordered_insertMember (ordered : Ordered members) :
    Ordered (insertMember key value members) := by
  induction members with
  | nil => exact List.pairwise_singleton _ _
  | cons head rest inductionHypothesis =>
    obtain ⟨other, first⟩ := head
    obtain ⟨less, restOrdered⟩ := List.pairwise_cons.1 ordered
    simp only [insertMember]
    split
    next before =>
      refine List.pairwise_cons.2 ⟨fun member listed => ?_, ordered⟩
      rcases List.mem_cons.1 listed with rfl | later
      · exact before
      · exact String.lt_trans before (less member later)
    next notBefore =>
      split
      next same =>
        subst same
        exact List.pairwise_cons.2 ⟨less, restOrdered⟩
      next different =>
        refine List.pairwise_cons.2 ⟨fun member listed => ?_, inductionHypothesis restOrdered⟩
        rcases (mem_insertMember restOrdered).1 listed with rfl | ⟨-, later⟩
        · exact Std.lt_of_le_of_ne (String.not_lt.1 notBefore) (Ne.symm different)
        · exact less member later

theorem canonicalItems_eq_map (items : List Json) : canonicalItems items = items.map canonical := by
  induction items with
  | nil => rfl
  | cons item rest inductionHypothesis =>
    rw [canonicalItems, inductionHypothesis, List.map_cons]

/-- The canonical members are those that count, and any seen before under other keys. -/
theorem mem_canonicalMembers (members : List (String × Json)) {seen : List (String × Json)}
    (ordered : Ordered seen) :
    member ∈ canonicalMembers members seen ↔
      (∃ value, member? member.1 members = some value ∧ member.2 = value.canonical) ∨
        member? member.1 members = none ∧ member ∈ seen := by
  induction members generalizing seen with
  | nil => simp [canonicalMembers, member?]
  | cons head rest inductionHypothesis =>
    obtain ⟨key, value⟩ := head
    obtain ⟨name, document⟩ := member
    rw [canonicalMembers, inductionHypothesis (ordered_insertMember ordered),
      mem_insertMember ordered, member?]
    cases later : member? name rest with
    | some last => simp
    | none =>
      rw [Option.none_or]
      by_cases same : name = key
      · simp [same]
      · simp [same]

theorem mem_canonical_object :
    member ∈ canonicalMembers members [] ↔
      ∃ value, member? member.1 members = some value ∧ member.2 = value.canonical :=
  (mem_canonicalMembers members List.Pairwise.nil).trans
    (or_iff_left fun listed => List.not_mem_nil listed.2)

/-! ### The scalars of a document -/

variable {start : String} {leaf : String × Json}

theorem mem_itemLeaves (items : List Json) (place : Nat) :
    leaf ∈ itemLeaves start place items ↔
      ∃ index item, items[index]? = some item ∧
        leaf ∈ leavesUnder (extendPath start (toString (place + index))) item := by
  induction items generalizing place with
  | nil => simp [itemLeaves]
  | cons item rest inductionHypothesis =>
    rw [itemLeaves, List.mem_append, inductionHypothesis]
    constructor
    · rintro (here | ⟨index, other, found, later⟩)
      · exact ⟨0, item, rfl, here⟩
      · exact ⟨index + 1, other, found, by rwa [Nat.add_comm index, ← Nat.add_assoc]⟩
    · rintro ⟨index, other, found, member⟩
      cases index with
      | zero =>
        cases found
        exact .inl member
      | succ index => exact .inr ⟨index, other, found, by rwa [Nat.add_assoc, Nat.add_comm 1]⟩

theorem mem_memberLeaves (members : List (String × Json)) :
    leaf ∈ memberLeaves start members ↔
      ∃ member ∈ members, leaf ∈ leavesUnder (extendPath start member.1) member.2 := by
  induction members with
  | nil => simp [memberLeaves]
  | cons head rest inductionHypothesis =>
    rw [memberLeaves, List.mem_append, inductionHypothesis]
    simp only [List.mem_cons, exists_eq_or_imp]

/-- The scalars of an array or object are those of its parts. -/
theorem mem_leavesUnder_compound {document : Json} (compound : document.isScalar = false) :
    leaf ∈ leavesUnder start document.canonical ↔
      ∃ step part, document.part? step = some part ∧
        leaf ∈ leavesUnder (extendPath start step.text) part.canonical := by
  cases document with
  | array items =>
    rw [canonical, leavesUnder, mem_itemLeaves, canonicalItems_eq_map]
    constructor
    · rintro ⟨index, item, found, member⟩
      rw [List.getElem?_map, Option.map_eq_some_iff] at found
      obtain ⟨part, found, rfl⟩ := found
      rw [Nat.zero_add] at member
      exact ⟨.place index, part, found, member⟩
    · rintro ⟨step, part, leads, member⟩
      cases step with
      | key name => cases leads
      | place index =>
        refine ⟨index, part.canonical, ?_, ?_⟩
        · rw [List.getElem?_map, show items[index]? = some part from leads, Option.map_some]
        · rwa [Nat.zero_add]
  | object members =>
    rw [canonical, leavesUnder, mem_memberLeaves]
    constructor
    · rintro ⟨⟨name, document⟩, listed, member⟩
      obtain ⟨part, found, rfl⟩ := mem_canonical_object.1 listed
      exact ⟨.key name, part, found, member⟩
    · rintro ⟨step, part, leads, member⟩
      cases step with
      | key name =>
        exact ⟨(name, part.canonical), mem_canonical_object.2 ⟨part, leads, rfl⟩, member⟩
      | place index => cases leads
  | _ => cases compound

theorem leavesUnder_scalar {document : Json} (scalar : document.isScalar = true) :
    leavesUnder start document.canonical = [(start, document)] := by
  cases document with
  | array | object => cases scalar
  | _ => rfl

theorem part?_scalar {document : Json} (scalar : document.isScalar = true) (step : Step) :
    document.part? step = none := by
  cases document with
  | array | object => cases scalar
  | _ => cases step <;> rfl

/-- The scalars of a document are what its paths lead to, and each is named by its path. -/
theorem mem_leavesUnder_iff (document : Json) :
    leaf ∈ leavesUnder start document.canonical ↔
      ∃ path, document.HasLeaf path leaf.2 ∧
        leaf.1 = path.foldl (fun name step => extendPath name step.text) start := by
  induction document using part_induction generalizing start with
  | step document inductionHypothesis =>
    cases kind : document.isScalar with
    | true =>
      rw [leavesUnder_scalar kind, List.mem_singleton]
      constructor
      · rintro rfl
        exact ⟨[], ⟨rfl, kind⟩, rfl⟩
      · rintro ⟨path, ⟨descends, scalar⟩, named⟩
        cases path with
        | nil =>
          cases descends
          exact Prod.ext named rfl
        | cons step path =>
          unfold descend? at descends
          rw [part?_scalar kind] at descends
          cases descends
    | false =>
      rw [mem_leavesUnder_compound kind]
      constructor
      · rintro ⟨step, part, leads, member⟩
        obtain ⟨path, ⟨descends, scalar⟩, named⟩ := (inductionHypothesis step part leads).1 member
        refine ⟨step :: path, ⟨?_, scalar⟩, named⟩
        unfold descend?
        rw [leads]
        exact descends
      · rintro ⟨path, ⟨descends, scalar⟩, named⟩
        cases path with
        | nil =>
          cases descends
          rw [kind] at scalar
          cases scalar
        | cons step path =>
          obtain ⟨part, leads, descends⟩ := Option.bind_eq_some_iff.1 descends
          exact ⟨step, part, leads,
            (inductionHypothesis step part leads).2 ⟨path, ⟨descends, scalar⟩, named⟩⟩

/-! ### Names -/

theorem itemsHavePlainKeys_iff (items : List Json) :
    itemsHavePlainKeys items = true ↔ ∀ item ∈ items, item.hasPlainKeys = true := by
  induction items with
  | nil => simp [itemsHavePlainKeys]
  | cons item rest inductionHypothesis =>
    rw [itemsHavePlainKeys, Bool.and_eq_true, inductionHypothesis, List.forall_mem_cons]

theorem membersHavePlainKeys_iff (members : List (String × Json)) :
    membersHavePlainKeys members = true ↔
      ∀ member ∈ members, isPlainKey member.1 = true ∧ member.2.hasPlainKeys = true := by
  induction members with
  | nil => simp [membersHavePlainKeys]
  | cons head rest inductionHypothesis =>
    rw [membersHavePlainKeys, Bool.and_eq_true, Bool.and_eq_true, inductionHypothesis,
      List.forall_mem_cons]

theorem isPlainKey_toString (index : Nat) : isPlainKey (toString index) = true := by
  have digits : ∀ character ∈ (toString index).toList, character.isDigit = true := by
    rw [toList_toString]
    exact fun _ => isDigit_of_mem_digitsOf
  unfold isPlainKey
  rw [Bool.and_eq_true, decide_eq_true_iff, Bool.not_eq_true', List.contains_eq_mem,
    decide_eq_false_iff_not]
  exact ⟨Nat.repr_ne_empty, fun point => absurd (digits '.' point) (by decide)⟩

theorem toString_injective {index index' : Nat} (same : toString index = toString index') :
    index = index' := by
  have digits := congrArg String.toList same
  rw [toList_toString, toList_toString] at digits
  have read := congrArg (Nat.ofDigitChars 10 · 0) digits
  rwa [digitsOf, digitsOf, Nat.ofDigitChars_ten_toDigits, Nat.ofDigitChars_ten_toDigits] at read

/-- Where all keys are plain, so are the texts of the steps and the keys of the parts. -/
theorem hasPlainKeys_part {document part : Json} {step : Step}
    (plain : document.hasPlainKeys = true) (leads : document.part? step = some part) :
    isPlainKey step.text = true ∧ part.hasPlainKeys = true := by
  cases document with
  | array items =>
    cases step with
    | key name => cases leads
    | place index =>
      exact ⟨isPlainKey_toString index,
        (itemsHavePlainKeys_iff items).1 plain part (List.mem_of_getElem? leads)⟩
  | object members =>
    cases step with
    | key name => exact (membersHavePlainKeys_iff members).1 plain _ (mem_of_member? leads)
    | place index => cases leads
  | _ => cases step <;> cases leads

theorem isPlainKey_of_descend {document part : Json} {path : List Step}
    (plain : document.hasPlainKeys = true) (descends : document.descend? path = some part) :
    ∀ step ∈ path, isPlainKey step.text = true := by
  induction path generalizing document with
  | nil => exact nofun
  | cons step path inductionHypothesis =>
    obtain ⟨next, leads, descends⟩ := Option.bind_eq_some_iff.1 descends
    have plain := hasPlainKeys_part plain leads
    exact List.forall_mem_cons.2 ⟨plain.1, inductionHypothesis plain.2 descends⟩

theorem filled_of_isPlainKey (plain : isPlainKey key = true) : key ≠ "" :=
  of_decide_eq_true (Bool.and_eq_true_iff.1 plain).1

theorem undotted_of_isPlainKey (plain : isPlainKey key = true) : '.' ∉ key.toList := fun point => by
  have undotted := (Bool.and_eq_true_iff.1 plain).2
  rw [List.contains_iff_mem.2 point] at undotted
  cases undotted

theorem foldl_extendPath {start : String} (filled : start ≠ "") (path : List Step) :
    path.foldl (fun name step => extendPath name step.text) start =
      ".".intercalate (start :: path.map Step.text) := by
  induction path generalizing start with
  | nil => exact String.intercalate_singleton.symm
  | cons step path inductionHypothesis =>
    have longer : start ++ "." ++ step.text ≠ "" := by
      intro empty
      exact filled (String.append_eq_empty_iff.1 (String.append_eq_empty_iff.1 empty).1).1
    rw [List.foldl_cons, extendPath, if_neg filled, inductionHypothesis longer, List.map_cons,
      String.intercalate_cons_cons]
    cases path with
    | nil => rw [List.map_nil, String.intercalate_singleton, String.intercalate_singleton]
    | cons next path =>
      rw [List.map_cons, String.intercalate_cons_cons, String.intercalate_cons_cons]
      simp only [String.append_assoc]

/-- A path whose first step has a text extends nothing to the name that it gives. -/
theorem foldl_extendPath_eq_pathName {step : Step} (filled : step.text ≠ "") (path : List Step) :
    (step :: path).foldl (fun name step => extendPath name step.text) "" =
      pathName (step :: path) := by
  rw [List.foldl_cons, extendPath, if_pos rfl, foldl_extendPath filled]
  rfl

theorem pathName_ne_empty {step : Step} (filled : step.text ≠ "") (path : List Step) :
    pathName (step :: path) ≠ "" := by
  unfold pathName
  cases path with
  | nil => rwa [List.map_singleton, String.intercalate_singleton]
  | cons next path =>
    rw [List.map_cons, List.map_cons, String.intercalate_cons_cons]
    intro empty
    exact filled (String.append_eq_empty_iff.1 (String.append_eq_empty_iff.1 empty).1).1

/-- Texts without dots can be told from what they are with dots in between. -/
theorem intercalate_injective {texts texts' : List String} (filled : texts ≠ [])
    (filled' : texts' ≠ []) (plain : ∀ text ∈ texts, '.' ∉ text.toList)
    (plain' : ∀ text ∈ texts', '.' ∉ text.toList)
    (same : ".".intercalate texts = ".".intercalate texts') : texts = texts' := by
  have split : ∀ {texts : List String}, texts ≠ [] → (∀ text ∈ texts, '.' ∉ text.toList) →
      (".".intercalate texts).toList.splitOn '.' = texts.map String.toList := by
    intro texts filled plain
    rw [String.toList_intercalate]
    refine List.splitOn_intercalate '.' (fun text member => ?_) (mt List.map_eq_nil_iff.1 filled)
    obtain ⟨original, among, rfl⟩ := List.mem_map.1 member
    exact plain original among
  have lists := split filled plain
  rw [same, split filled' plain'] at lists
  exact ((List.map_inj_right fun _ _ => String.toList_inj.1).1 lists).symm

/-- In one document the texts of the steps tell a path. -/
theorem path_eq_of_texts {document part part' : Json} {path path' : List Step}
    (descends : document.descend? path = some part)
    (descends' : document.descend? path' = some part')
    (same : path.map Step.text = path'.map Step.text) : path = path' := by
  induction path generalizing document path' with
  | nil => exact (List.map_eq_nil_iff.1 same.symm).symm
  | cons step path inductionHypothesis =>
    cases path' with
    | nil => cases same
    | cons step' path' =>
      obtain ⟨sameText, sameTexts⟩ := List.cons.inj same
      obtain ⟨next, leads, descends⟩ := Option.bind_eq_some_iff.1 descends
      obtain ⟨next', leads', descends'⟩ := Option.bind_eq_some_iff.1 descends'
      obtain rfl : step = step' := by
        cases document with
        | array items =>
          cases step with
          | key name => cases leads
          | place index =>
            cases step' with
            | key name => cases leads'
            | place index' => exact congrArg Step.place (toString_injective sameText)
        | object members =>
          cases step with
          | key name =>
            cases step' with
            | key name' => exact congrArg Step.key sameText
            | place index => cases leads'
          | place index => cases leads
        | _ => cases step <;> cases leads
      rw [leads] at leads'
      cases leads'
      rw [inductionHypothesis descends descends' sameTexts]

/-! ### Variables -/

/-- A path to a scalar inside an array or object has a first step, and all its steps are plain. -/
theorem HasLeaf.exists_cons {document leaf : Json} {path : List Step}
    (compound : document.isScalar = false) (plain : document.hasPlainKeys = true)
    (leads : document.HasLeaf path leaf) :
    ∃ step rest, path = step :: rest ∧ ∀ step ∈ path, isPlainKey step.text = true := by
  have plainSteps := isPlainKey_of_descend plain leads.descends
  cases path with
  | nil =>
    obtain ⟨descends, scalar⟩ := leads
    cases descends
    rw [compound] at scalar
    cases scalar
  | cons step rest => exact ⟨step, rest, rfl, plainSteps⟩

/-- The names that paths to scalars of a document give tell the paths. -/
theorem HasLeaf.path_unique {document leaf leaf' : Json} {path path' : List Step}
    (compound : document.isScalar = false) (plain : document.hasPlainKeys = true)
    (leads : document.HasLeaf path leaf) (leads' : document.HasLeaf path' leaf')
    (same : pathName path = pathName path') : path = path' := by
  have texts : ∀ {path leaf}, document.HasLeaf path leaf → path.map Step.text ≠ [] ∧
      ∀ text ∈ path.map Step.text, '.' ∉ text.toList := by
    intro path leaf leads
    obtain ⟨step, rest, is, plainSteps⟩ := leads.exists_cons compound plain
    refine ⟨by rw [is]; exact nofun, fun text member => ?_⟩
    obtain ⟨step, among, rfl⟩ := List.mem_map.1 member
    exact undotted_of_isPlainKey (plainSteps step among)
  obtain ⟨filled, undotted⟩ := texts leads
  obtain ⟨filled', undotted'⟩ := texts leads'
  exact path_eq_of_texts leads.descends leads'.descends
    (intercalate_injective filled filled' undotted undotted' same)

/-- The entries that a document is flattened to are its scalars, named by the paths to them. -/
theorem mem_named_iff {document : Json} (compound : document.isScalar = false)
    (plain : document.hasPlainKeys = true) {name : String} {value : Value} :
    (name, value) ∈ ((leavesUnder "" document.canonical).filter fun leaf => leaf.1 ≠ "").map
        (fun leaf => (leaf.1, Value.ofDocument leaf.2)) ↔
      ∃ path leaf, document.HasLeaf path leaf ∧ name = pathName path ∧
        value = .ofDocument leaf := by
  have named : ∀ {path leaf}, document.HasLeaf path leaf →
      path.foldl (fun name step => extendPath name step.text) "" = pathName path ∧
        pathName path ≠ "" := by
    intro path leaf leads
    obtain ⟨step, rest, rfl, plainSteps⟩ := leads.exists_cons compound plain
    have filled := filled_of_isPlainKey (plainSteps step List.mem_cons_self)
    exact ⟨foldl_extendPath_eq_pathName filled rest, pathName_ne_empty filled rest⟩
  constructor
  · intro member
    obtain ⟨leaf, listed, same⟩ := List.mem_map.1 member
    cases same
    obtain ⟨path, leads, is⟩ := (mem_leavesUnder_iff document).1 (List.mem_filter.1 listed).1
    exact ⟨path, leaf.2, leads, is.trans (named leads).1, rfl⟩
  · rintro ⟨path, leaf, leads, rfl, rfl⟩
    refine List.mem_map.2 ⟨(pathName path, leaf), List.mem_filter.2 ⟨?_, ?_⟩, rfl⟩
    · exact (mem_leavesUnder_iff document).2 ⟨path, leads, (named leads).1.symm⟩
    · exact decide_eq_true (named leads).2

/-- Flattening neither loses nor invents a scalar. If all keys are plain, the names of the
variables of an array or object are in bijection with the paths to its scalars, and each variable
has the value of the scalar that its path leads to. -/
theorem flatten_bijOn (document : Json) (compound : document.isScalar = false)
    (plain : document.hasPlainKeys = true) :
    Set.BijOn pathName {path | ∃ leaf, document.HasLeaf path leaf}
        {name | document.flatten.contains name = true} ∧
      ∀ path leaf, document.HasLeaf path leaf →
        document.flatten.get? (pathName path) = some (.ofDocument leaf) := by
  have contains : ∀ {path leaf}, document.HasLeaf path leaf →
      document.flatten.contains (pathName path) = true := fun leads =>
    (Dictionary.contains_ofList_iff _ _).2 (List.mem_map.2
      ⟨_, (mem_named_iff compound plain).2 ⟨_, _, leads, rfl, rfl⟩, rfl⟩)
  refine ⟨⟨?_, ?_, ?_⟩, fun path leaf leads => ?_⟩
  · rintro path ⟨leaf, leads⟩
    exact contains leads
  · rintro path ⟨leaf, leads⟩ path' ⟨leaf', leads'⟩ same
    exact leads.path_unique compound plain leads' same
  · intro name found
    obtain ⟨value, found⟩ := Option.isSome_iff_exists.1 found
    obtain ⟨path, leaf, leads, named, -⟩ :=
      (mem_named_iff compound plain).1 (Dictionary.mem_of_get?_ofList found)
    exact ⟨path, ⟨leaf, leads⟩, named.symm⟩
  · obtain ⟨value, found⟩ := Option.isSome_iff_exists.1 (contains leads)
    obtain ⟨path', leaf', leads', named, rfl⟩ :=
      (mem_named_iff compound plain).1 (Dictionary.mem_of_get?_ofList found)
    -- Paths with one name are one path, which leads to one scalar.
    obtain rfl := leads.path_unique compound plain leads' named
    cases leads.descends.symm.trans leads'.descends
    exact found

/-- A document with scalars in an object and in an array, and an array without any. -/
def playerDocument : Json :=
  .object [("player", .object [
    ("level", .integer 12), ("tags", .array [.text "vip"]), ("friends", .array [])])]

theorem flatten_bijOn_player :
    playerDocument.isScalar = false ∧ playerDocument.hasPlainKeys = true ∧
      Set.BijOn pathName {path | ∃ leaf, playerDocument.HasLeaf path leaf}
        {name | playerDocument.flatten.contains name = true} ∧
      playerDocument.flatten.get? "player.level" = some (.integer 12) ∧
      playerDocument.flatten.get? "player.tags.0" = some (.text "vip") ∧
      playerDocument.flatten.size = 2 := by
  have plain : playerDocument.hasPlainKeys = true := by decide
  obtain ⟨bijection, holds⟩ := flatten_bijOn playerDocument rfl plain
  refine ⟨rfl, plain, bijection, ?_, ?_, by decide⟩
  · exact holds [.key "player", .key "level"] (.integer 12) ⟨rfl, rfl⟩
  · exact holds [.key "player", .key "tags", .place 0] (.text "vip") ⟨rfl, rfl⟩

end Json

end Reckon
