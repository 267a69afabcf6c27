/-
This file says what of its variables the key of an evaluation depends on: on
their names, and on their values as far as equality of values tells them apart,
but not on the order in which they are given. And whatever the hash of the
values is that stands in for them in a key, keys of other texts or other names
are other keys.
-/

import Mathlib.Data.List.Sort
import Reckon.CacheKey
import Reckon.Proofs.Binary64.Values
import Reckon.Proofs.Evaluation.Comparisons

namespace Reckon

/-! ### Equal values -/

namespace Binary64

theorem eq_zero_of_isZero_ofInt {integer : Int} (isZero : (ofInt integer).isZero = true) :
    integer = 0 := by
  refine Int.natAbs_eq_zero.mp (Nat.eq_zero_of_not_pos fun positive => ?_)
  have least : 1 ≤ nearestRank (integer.natAbs * one) 1 :=
    le_nearestRank Nat.one_pos (Nat.mul_pos positive one_pos)
  unfold ofInt ofRatio ofUnits ofRank at isZero
  split at isZero
  · exact absurd (beq_iff_eq.mp isZero) (Nat.ne_of_gt least)
  · cases isZero

theorem ofInt_zero : ofInt 0 = zero := by
  have least : nearestRank (0 * one) 1 = 0 :=
    nearestRank_eq_zero (by rw [Nat.zero_mul]; exact Nat.zero_le 1) Nat.one_pos
  unfold ofInt ofRatio ofUnits
  rw [Int.natAbs_zero, least]
  rfl

/-- No integer is a negative zero. -/
theorem withoutZeroSign_ofInt64 (integer : Int64) :
    (ofInt64 integer).withoutZeroSign = ofInt64 integer := by
  unfold withoutZeroSign ofInt64
  split
  next isZero => rw [eq_zero_of_isZero_ofInt isZero, ofInt_zero]
  next => rfl

/-- But for the sign of zero a number is known by its place. -/
theorem withoutZeroSign_eq_ofRank {number : Binary64} {place : Int}
    (has : number.place? = some place) :
    number.withoutZeroSign = ofRank (decide (place < 0)) place.natAbs := by
  cases number with
  | notANumber => cases has
  | infinite negative =>
    cases has
    cases negative <;> rfl
  | finite negative rank =>
    cases has
    have small := rank.isLt
    unfold withoutZeroSign ofRank isZero
    by_cases isZero : rank.val = 0
    · have some : rankLimit ≠ 0 := Nat.ne_of_gt (Nat.zero_lt_of_lt small)
      simp [isZero, zero, some]
    · cases negative with
      | false => simp [isZero, small]
      | true =>
        have positive : 0 < rank.val := Nat.pos_of_ne_zero isZero
        simp [isZero, small, positive]

/-- Numbers that are equal differ at most in the sign of a zero. -/
theorem withoutZeroSign_eq_of_equals {number number' : Binary64}
    (same : number.equals number' = true) : number.withoutZeroSign = number'.withoutZeroSign := by
  unfold equals at same
  split at same
  next place place' has has' =>
    rw [withoutZeroSign_eq_ofRank has, withoutZeroSign_eq_ofRank has', beq_iff_eq.mp same]
  next => cases same

end Binary64

/-- Equal values have the same part in a key. -/
theorem Fingerprint.ofValue_eq_of_equals {value value' : Value}
    (same : value.equals value' = true) : ofValue value = ofValue value' := by
  unfold Value.equals at same
  split at same
  case h_1 => rfl
  case h_2 | h_7 | h_8 | h_3 => rw [beq_iff_eq.mp same]
  case h_4 =>
    rw [ofValue, ofValue, ← Binary64.withoutZeroSign_eq_of_equals same,
      Binary64.withoutZeroSign_ofInt64]
  case h_5 =>
    rw [ofValue, ofValue, Binary64.withoutZeroSign_eq_of_equals same,
      Binary64.withoutZeroSign_ofInt64]
  case h_6 => rw [ofValue, ofValue, Binary64.withoutZeroSign_eq_of_equals same]
  case h_9 => cases same

namespace CacheKey

/-! ### Equal keys -/

/-- Two lists of variables have the same contents: they bind the same names, to equal values. -/
structure SameContents (given given' : List (String × Value)) : Prop where
  names : ∀ name, name ∈ given.map Prod.fst ↔ name ∈ given'.map Prod.fst
  values : ∀ name value value', (name, value) ∈ given → (name, value') ∈ given' →
    value.equals value' = true

variable {expression expression' : String} {given given' : List (String × Value)}

/-- What a key holds of some variables before they are put in order. -/
def fingerprintsOf (given : List (String × Value)) : List (String × Fingerprint) :=
  given.map fun (name, value) => (name, .ofValue value)

theorem map_fst_fingerprintsOf (given : List (String × Value)) :
    (fingerprintsOf given).map Prod.fst = given.map Prod.fst := by
  rw [fingerprintsOf, List.map_map]
  rfl

theorem fingerprints_perm (expression : String) (given : List (String × Value)) :
    (ofVariables expression given).fingerprints.Perm (fingerprintsOf given) :=
  (List.mergeSort_perm given _).map _

theorem names_perm (expression : String) (given : List (String × Value)) :
    (ofVariables expression given).names.Perm (given.map Prod.fst) := by
  rw [← map_fst_fingerprintsOf]
  exact (fingerprints_perm expression given).map Prod.fst

/-- What a key holds stands in the order of the names. -/
theorem pairwise_fingerprints (expression : String) (given : List (String × Value)) :
    (ofVariables expression given).fingerprints.Pairwise fun first second =>
      first.1 ≤ second.1 := by
  have sorted := @List.pairwise_mergeSort (String × Value)
    (fun first second => decide (first.1 ≤ second.1))
    (fun first second third => by simpa using String.le_trans)
    (fun first second => by simpa using String.le_total first.1 second.1) given
  refine List.pairwise_map.mpr ?_
  simpa using sorted

theorem SameContents.mem_iff (same : SameContents given given') (entry : String × Fingerprint) :
    entry ∈ fingerprintsOf given ↔ entry ∈ fingerprintsOf given' := by
  have equal {name : String} {value value' : Value} (bound : (name, value) ∈ given)
      (bound' : (name, value') ∈ given') :
      Fingerprint.ofValue value = Fingerprint.ofValue value' :=
    Fingerprint.ofValue_eq_of_equals (same.values name value value' bound bound')
  obtain ⟨name, fingerprint⟩ := entry
  simp only [fingerprintsOf, List.mem_map, Prod.mk.injEq]
  constructor
  · rintro ⟨⟨_, value⟩, bound, rfl, rfl⟩
    obtain ⟨⟨_, value'⟩, bound', rfl⟩ :=
      List.mem_map.mp ((same.names _).mp (List.mem_map_of_mem bound))
    exact ⟨_, bound', rfl, (equal bound bound').symm⟩
  · rintro ⟨⟨_, value'⟩, bound', rfl, rfl⟩
    obtain ⟨⟨_, value⟩, bound, rfl⟩ :=
      List.mem_map.mp ((same.names _).mpr (List.mem_map_of_mem bound'))
    exact ⟨_, bound, rfl, equal bound bound'⟩

/-- Variables with the same contents have the same key, in whichever order they are given. -/
theorem ofVariables_eq_of_sameContents (distinct : (given.map Prod.fst).Nodup)
    (distinct' : (given'.map Prod.fst).Nodup) (same : SameContents given given')
    (expression : String) : ofVariables expression given = ofVariables expression given' := by
  rw [← map_fst_fingerprintsOf] at distinct distinct'
  have perm : (fingerprintsOf given).Perm (fingerprintsOf given') :=
    (List.perm_ext_iff_of_nodup distinct.of_map distinct'.of_map).mpr same.mem_iff
  have first := fingerprints_perm expression given
  have second := (fingerprints_perm expression given').trans perm.symm
  have fingerprints : (ofVariables expression given).fingerprints =
      (ofVariables expression given').fingerprints := by
    refine List.Perm.eq_of_pairwise (fun entry entry' member member' below above => ?_)
      (pairwise_fingerprints _ _) (pairwise_fingerprints _ _) (first.trans second.symm)
    -- Entries of one name are one entry, since no name stands twice.
    exact List.inj_on_of_nodup_map distinct (first.mem_iff.mp member) (second.mem_iff.mp member')
      (String.le_antisymm below above)
  exact congrArg (CacheKey.mk expression) fingerprints

/-! ### Keys with hashes -/

/-- A key in which a hash stands for the values of the variables; without variables it is zero. -/
structure Hashed where
  expression : String
  stateHash : UInt64
  relevantVariables : List String
  deriving DecidableEq

/-- A key with the hash of what it holds. -/
def hashed (hash : List (String × Fingerprint) → UInt64) (key : CacheKey) : Hashed where
  expression := key.expression
  stateHash := if key.isClosed then 0 else hash key.fingerprints
  relevantVariables := key.names

theorem mem_names_ofVariables (expression : String) (given : List (String × Value))
    (name : String) :
    name ∈ (ofVariables expression given).names ↔ name ∈ given.map Prod.fst :=
  (names_perm expression given).mem_iff

/-- Whatever the hash is, a key with it tells texts apart and sets of names. -/
theorem eq_of_hashed_eq {hash : List (String × Fingerprint) → UInt64}
    (same : (ofVariables expression given).hashed hash =
      (ofVariables expression' given').hashed hash) :
    expression = expression' ∧
      ∀ name, name ∈ given.map Prod.fst ↔ name ∈ given'.map Prod.fst := by
  have names : (ofVariables expression given).names = (ofVariables expression' given').names :=
    congrArg Hashed.relevantVariables same
  refine ⟨congrArg Hashed.expression same, fun name => ?_⟩
  rw [← mem_names_ofVariables expression, names, mem_names_ofVariables]

/-- Keys depend on contents only. Variables with the same contents, in whichever order, have the
same key, and so the same key with a hash. Other texts or other names have other keys, also where
the values are only hashed and however bad the hash is. -/
theorem keys_by_contents (hash : List (String × Fingerprint) → UInt64) :
    (∀ (expression : String) (given given' : List (String × Value)),
      (given.map Prod.fst).Nodup → (given'.map Prod.fst).Nodup → SameContents given given' →
        ofVariables expression given = ofVariables expression given' ∧
        (ofVariables expression given).hashed hash =
          (ofVariables expression given').hashed hash) ∧
      ∀ (expression expression' : String) (given given' : List (String × Value)),
        (expression ≠ expression' ∨
          ¬ ∀ name, name ∈ given.map Prod.fst ↔ name ∈ given'.map Prod.fst) →
        ofVariables expression given ≠ ofVariables expression' given' ∧
        (ofVariables expression given).hashed hash ≠
          (ofVariables expression' given').hashed hash := by
  refine ⟨fun expression given given' distinct distinct' same => ?_,
    fun expression expression' given given' other => ?_⟩
  · have keys := ofVariables_eq_of_sameContents distinct distinct' same expression
    exact ⟨keys, congrArg (hashed hash) keys⟩
  · have differ : (ofVariables expression given).hashed hash ≠
        (ofVariables expression' given').hashed hash := by
      intro same
      obtain ⟨texts, names⟩ := eq_of_hashed_eq same
      exact other.elim (fun texts' => texts' texts) fun names' => names' names
    exact ⟨fun same => differ (congrArg (hashed hash) same), differ⟩

/-- Numbers of both kinds in another order, a zero of the other sign and a hash that is always
zero; without variables there is another key all the same. -/
theorem keys_by_contents_zero :
    let given := [("a", Value.integer 1), ("b", .float .zero)]
    let given' := [("b", Value.float (.ofRank true 0)), ("a", .float (.ofInt64 1))]
    SameContents given given' ∧ ofVariables "a + b" given = ofVariables "a + b" given' ∧
      (ofVariables "a + b" given).hashed (fun _ => 0) ≠
        (ofVariables "a + b" []).hashed (fun _ => 0) := by
  intro given given'
  have same : SameContents given given' := by
    refine ⟨fun name => by simp [given, given', or_comm], fun name value value' bound bound' => ?_⟩
    have one : (Value.integer 1).equals (.float (.ofInt64 1)) = true := by decide +kernel
    simp only [given, given', List.mem_cons, Prod.mk.injEq, List.not_mem_nil, or_false]
      at bound bound'
    rcases bound with ⟨rfl, rfl⟩ | ⟨rfl, rfl⟩ <;> rcases bound' with ⟨same, rfl⟩ | ⟨same, rfl⟩
    · exact absurd same (by decide)
    · exact one
    · rfl
    · exact absurd same (by decide)
  have names : ¬ ∀ name, name ∈ given.map Prod.fst ↔ name ∈ [].map (@Prod.fst String Value) :=
    fun names => List.not_mem_nil ((names "a").mp List.mem_cons_self)
  have keys := keys_by_contents fun _ => 0
  exact ⟨same, (keys.1 "a + b" given given' (by decide) (by decide) same).1,
    (keys.2 "a + b" "a + b" given [] (.inr names)).2⟩

end CacheKey

end Reckon
