/-
This file says how far the questions of order and equality about two numbers
agree. A question of order takes both numbers as binary numbers. So does a
question of equality, unless both are integers: integers are compared as they
are.

The questions fit together for all numbers but those integers that differ and
are one and the same binary number: of them neither is less, neither is greater,
and they are not equal. They are also the only numbers that can be equal to a
third one and not to each other.
-/

import Reckon.Evaluation.Operators
import Reckon.Proofs.Binary64.Integers

namespace Reckon

open Binary64 (exactLimit)

/-! ### Numbers in their order -/

namespace Value

/-- A value is a number that has a place in the order of numbers: an integer, or any binary number
but the one that is not a number. -/
def IsOrdered (value : Value) : Prop :=
  value.isNumber = true ∧ value ≠ .float .notANumber

/-- Two values are integers that differ but are equal as binary numbers. -/
def MergesWith (left right : Value) : Prop :=
  ∃ first second : Int64, left = .integer first ∧ right = .integer second ∧ first ≠ second ∧
    (Binary64.ofInt64 first).equals (.ofInt64 second) = true

/-- The place of a number in the order of numbers. -/
def HasPlace (value : Value) (place : Int) : Prop :=
  ∃ number, value.asFloat? = some number ∧ number.place? = some place

end Value

namespace Binary64

variable {number number' : Binary64} {place place' : Int}

theorem exists_place (proper : number ≠ .notANumber) : ∃ place, number.place? = some place := by
  cases number with
  | notANumber => exact absurd rfl proper
  | infinite | finite => exact ⟨_, rfl⟩

theorem exists_finite (finite : number.isFinite = true) :
    ∃ negative rank, number = .finite negative rank := by
  cases number with
  | finite negative rank => exact ⟨negative, rank, rfl⟩
  | _ => cases finite

theorem ofInt64_ne_notANumber (integer : Int64) : ofInt64 integer ≠ .notANumber := by
  simp only [ofInt64, ofInt, ofRatio, ofUnits, ofRank]
  split <;> exact nofun

theorem equals_iff (has : number.place? = some place) (has' : number'.place? = some place') :
    number.equals number' = true ↔ place = place' := by
  simp only [equals, has, has', beq_iff_eq]

theorem less_eq (has : number.place? = some place) (has' : number'.place? = some place') :
    number.less number' = decide (place < place') := by
  simp only [less, has, has']

theorem atMost_eq (has : number.place? = some place) (has' : number'.place? = some place') :
    number.atMost number' = decide (place ≤ place') := by
  simp only [atMost, has, has']

/-- Finite numbers that are equal are the same number of units. -/
theorem signedUnits_eq_of_equals (same : number.equals number' = true)
    (finite : number.isFinite = true) (finite' : number'.isFinite = true) :
    number.signedUnits = number'.signedUnits := by
  obtain ⟨negative, rank, rfl⟩ := exists_finite finite
  obtain ⟨negative', rank', rfl⟩ := exists_finite finite'
  have places := (equals_iff rfl rfl).1 same
  have ranks : rank.val = rank'.val := by
    split at places <;> split at places <;> omega
  simp only [signedUnits, isNegative, units, ranks]
  by_cases zero : rank'.val = 0
  · have none : unitsOfRank 0 = 0 := rfl
    simp only [zero, none, Int.natCast_zero, Int.neg_zero, ite_self]
  · -- Only zeros are equal across the signs.
    have signs : negative = negative' := by
      cases negative <;> cases negative' <;> simp at places ⊢ <;> omega
    subst signs
    rfl

end Binary64

namespace Value

variable {left right : Value} {place place' : Int}

theorem IsOrdered.exists_hasPlace {value : Value} (ordered : value.IsOrdered) :
    ∃ place, value.HasPlace place := by
  obtain ⟨isNumber, proper⟩ := ordered
  cases value with
  | integer number =>
    obtain ⟨place, has⟩ := Binary64.exists_place (Binary64.ofInt64_ne_notANumber number)
    exact ⟨place, _, rfl, has⟩
  | float number =>
    obtain ⟨place, has⟩ := Binary64.exists_place fun none => proper (congrArg Value.float none)
    exact ⟨place, number, rfl, has⟩
  | _ => cases isNumber

/-- Numbers are equal if they share a place in the order, unless they are merging integers. -/
theorem equals_iff (has : left.HasPlace place) (has' : right.HasPlace place') :
    left.equals right = true ↔ place = place' ∧ ¬ left.MergesWith right := by
  obtain ⟨number, same, has⟩ := has
  obtain ⟨number', same', has'⟩ := has'
  have asBinary := Binary64.equals_iff has has'
  -- Only two integers merge, so all other numbers are compared as binary numbers.
  have apart {first second : Value} (notBoth : ∀ whole whole', first = .integer whole →
      second ≠ .integer whole') : ¬ first.MergesWith second :=
    fun ⟨whole, whole', isFirst, isSecond, _⟩ => notBoth whole whole' isFirst isSecond
  cases left with
  | integer whole =>
    obtain rfl := Option.some.inj same
    cases right with
    | integer whole' =>
      obtain rfl := Option.some.inj same'
      rw [← asBinary]
      show (whole == whole') = true ↔ _
      rw [beq_iff_eq]
      constructor
      · rintro rfl
        refine ⟨asBinary.2 (Option.some.inj (has.symm.trans has')), ?_⟩
        rintro ⟨_, _, ⟨⟩, ⟨⟩, different, _⟩
        exact different rfl
      · rintro ⟨merged, notMerging⟩
        refine Decidable.byContradiction fun different => notMerging ?_
        exact ⟨whole, whole', rfl, rfl, different, merged⟩
    | float number =>
      obtain rfl := Option.some.inj same'
      have notMerging : ¬ MergesWith (.integer whole) (.float number) := apart fun _ _ _ => nofun
      exact asBinary.trans (and_iff_left notMerging).symm
    | _ => cases same'
  | float number =>
    obtain rfl := Option.some.inj same
    have notMerging : ¬ MergesWith (.float number) right := apart fun _ _ => nofun
    cases right with
    | integer | float =>
      obtain rfl := Option.some.inj same'
      exact asBinary.trans (and_iff_left notMerging).symm
    | _ => cases same'
  | _ => cases same

/-- Merging integers share a place in the order. -/
theorem MergesWith.place_eq (merges : left.MergesWith right) (has : left.HasPlace place)
    (has' : right.HasPlace place') : place = place' := by
  obtain ⟨first, second, rfl, rfl, -, merged⟩ := merges
  obtain ⟨_, same, has⟩ := has
  obtain ⟨_, same', has'⟩ := has'
  obtain rfl := Option.some.inj same
  obtain rfl := Option.some.inj same'
  exact (Binary64.equals_iff has has').1 merged

/-- One of two merging integers is beyond the integers that are binary numbers as they are. -/
theorem MergesWith.beyond (merges : left.MergesWith right) :
    ∃ integer : Int64, (left = .integer integer ∨ right = .integer integer) ∧
      exactLimit < integer.toInt.natAbs := by
  obtain ⟨first, second, rfl, rfl, different, merged⟩ := merges
  by_cases small : first.toInt.natAbs ≤ exactLimit
  · refine ⟨second, .inr rfl, Nat.lt_of_not_le fun small' => different ?_⟩
    have exactly := Binary64.isExactly_ofInt small
    have exactly' := Binary64.isExactly_ofInt small'
    have units := Binary64.signedUnits_eq_of_equals merged exactly.finite exactly'.finite
    have product := exactly.units.symm.trans (units.trans exactly'.units)
    have positive : (Binary64.one : Int) ≠ 0 :=
      Int.natCast_ne_zero.2 (Nat.ne_of_gt Binary64.one_pos)
    exact Int64.toInt_inj.1 (Int.eq_of_mul_eq_mul_right positive product)
  · exact ⟨first, .inl rfl, Nat.lt_of_not_le small⟩

end Value

/-! ### Questions about two numbers -/

namespace BinaryOperator

/-- A question about two values is answered with yes. -/
def Affirms (operations : OperationRegistry) (operator : BinaryOperator) (left right : Value) :
    Prop :=
  operator.apply operations left right = .ok (.boolean true)

/-- The questions of order and equality. -/
def IsComparison (operator : BinaryOperator) : Prop :=
  operator ∈ [.less, .equal, .greater, .lessEqual, .greaterEqual]

variable {operations : OperationRegistry} {operator : BinaryOperator} {left right : Value}
  {place place' : Int}

/-- What a question comes to for two numbers. -/
theorem apply_of_hasPlace (operations : OperationRegistry) (has : left.HasPlace place)
    (has' : right.HasPlace place') :
    apply operations .less left right = .ok (.boolean (decide (place < place'))) ∧
      apply operations .greater left right = .ok (.boolean (decide (place' < place))) ∧
      apply operations .lessEqual left right = .ok (.boolean (decide (place ≤ place'))) ∧
      apply operations .greaterEqual left right = .ok (.boolean (decide (place' ≤ place))) := by
  obtain ⟨number, same, has⟩ := has
  obtain ⟨number', same', has'⟩ := has'
  have asked (operator : BinaryOperator) (question : Binary64 → Binary64 → Bool) :
      compare operator question left right = .ok (.boolean (question number number')) := by
    simp only [compare, numericOperands, same, same']
    rfl
  simp only [apply, asked, Binary64.less_eq has has', Binary64.less_eq has' has,
    Binary64.atMost_eq has has', Binary64.atMost_eq has' has, and_self]

section

variable (has : left.HasPlace place) (has' : right.HasPlace place')

include has has'

theorem affirms_less_iff : Affirms operations .less left right ↔ place < place' := by
  simp [Affirms, apply_of_hasPlace operations has has']

theorem affirms_greater_iff : Affirms operations .greater left right ↔ place' < place := by
  simp [Affirms, apply_of_hasPlace operations has has']

theorem affirms_lessEqual_iff : Affirms operations .lessEqual left right ↔ place ≤ place' := by
  simp [Affirms, apply_of_hasPlace operations has has']

theorem affirms_greaterEqual_iff :
    Affirms operations .greaterEqual left right ↔ place' ≤ place := by
  simp [Affirms, apply_of_hasPlace operations has has']

theorem affirms_equal_iff :
    Affirms operations .equal left right ↔ place = place' ∧ ¬ left.MergesWith right := by
  simp [Affirms, apply, Value.equals_iff has has']

end

/-! ### How the questions fit together -/

/-- Exactly one of three statements holds. -/
def ExactlyOne (first second third : Prop) : Prop :=
  first ∧ ¬ second ∧ ¬ third ∨ ¬ first ∧ second ∧ ¬ third ∨ ¬ first ∧ ¬ second ∧ third

/-- The questions about two numbers fit together: one number is less, they are equal, or one is
greater, and the two questions that allow both agree with that. -/
structure Coherent (operations : OperationRegistry) (left right : Value) : Prop where
  exactlyOne : ExactlyOne (Affirms operations .less left right)
    (Affirms operations .equal left right) (Affirms operations .greater left right)
  lessEqual : Affirms operations .lessEqual left right ↔
    Affirms operations .less left right ∨ Affirms operations .equal left right
  greaterEqual : Affirms operations .greaterEqual left right ↔
    Affirms operations .greater left right ∨ Affirms operations .equal left right

/-- Each of the questions about two numbers is answered. -/
theorem exists_answer (operations : OperationRegistry) (has : left.HasPlace place)
    (has' : right.HasPlace place') (asks : operator.IsComparison) :
    ∃ truth, operator.apply operations left right = .ok (.boolean truth) := by
  obtain ⟨less, greater, lessEqual, greaterEqual⟩ := apply_of_hasPlace operations has has'
  cases operator with
  | less => exact ⟨_, less⟩
  | greater => exact ⟨_, greater⟩
  | lessEqual => exact ⟨_, lessEqual⟩
  | greaterEqual => exact ⟨_, greaterEqual⟩
  | equal => exact ⟨_, rfl⟩
  | _ => simp [IsComparison] at asks

/-- The questions about two numbers fit together unless the numbers merge. -/
theorem coherent_iff (operations : OperationRegistry) (has : left.HasPlace place)
    (has' : right.HasPlace place') :
    Coherent operations left right ↔ ¬ left.MergesWith right := by
  have less : Affirms operations .less left right ↔ _ := affirms_less_iff has has'
  have equal : Affirms operations .equal left right ↔ _ := affirms_equal_iff has has'
  have greater : Affirms operations .greater left right ↔ _ := affirms_greater_iff has has'
  constructor
  · intro coherent merges
    have same := merges.place_eq has has'
    have one := coherent.exactlyOne
    rw [less, equal, greater, same] at one
    simp [ExactlyOne, merges] at one
  · intro notMerging
    have equal := equal.trans (and_iff_left notMerging)
    refine ⟨?_, ?_, ?_⟩
    · rw [less, equal, greater]
      unfold ExactlyOne
      omega
    · rw [less, equal, affirms_lessEqual_iff has has']
      exact Int.le_iff_lt_or_eq
    · rw [greater, equal, affirms_greaterEqual_iff has has', eq_comm]
      exact Int.le_iff_lt_or_eq

/-- The questions of order and equality fit together for all numbers that do not merge, and for
no others. Each is answered for any two numbers that have a place in the order. Exactly one of
`a < b`, `a == b` and `a > b` is answered with yes, and `a <= b` and `a >= b` agree with these,
unless `a` and `b` merge; and two numbers that equal a third equal each other unless they merge.
Only integers that are not all within two to the power of 53 do. -/
theorem comparisons_coherent_iff (operations : OperationRegistry) {first second third : Value}
    (ordered : first.IsOrdered) (ordered' : second.IsOrdered) (ordered'' : third.IsOrdered) :
    (∀ operator : BinaryOperator, operator.IsComparison →
        ∃ truth, operator.apply operations first second = .ok (.boolean truth)) ∧
      (Coherent operations first second ↔ ¬ first.MergesWith second) ∧
      (Affirms operations .equal first second → Affirms operations .equal second third →
        (Affirms operations .equal first third ↔ ¬ first.MergesWith third)) ∧
      (first.MergesWith second → ∃ integer : Int64,
        (first = .integer integer ∨ second = .integer integer) ∧
          exactLimit < integer.toInt.natAbs) := by
  obtain ⟨place, has⟩ := ordered.exists_hasPlace
  obtain ⟨place', has'⟩ := ordered'.exists_hasPlace
  obtain ⟨place'', has''⟩ := ordered''.exists_hasPlace
  refine ⟨fun operator => exists_answer operations has has', coherent_iff operations has has', ?_,
    Value.MergesWith.beyond⟩
  rw [affirms_equal_iff has has', affirms_equal_iff has' has'', affirms_equal_iff has has'']
  rintro ⟨rfl, -⟩ ⟨rfl, -⟩
  exact and_iff_right rfl

/-- The questions fit together for the integer two to the power of 53 and the binary number that
the next integer is rounded to. Both integers equal that number; they merge, and so they do not
equal each other. -/
theorem comparisons_coherent_iff_rounded :
    let first := Value.integer 9007199254740992
    let second := Value.float (.ofInt64 9007199254740993)
    let third := Value.integer 9007199254740993
    let operations := OperationRegistry.builtIn
    first.IsOrdered ∧ second.IsOrdered ∧ third.IsOrdered ∧ Coherent operations first second ∧
      Affirms operations .equal first second ∧ Affirms operations .equal second third ∧
      ¬ Affirms operations .equal first third := by
  intro first second third operations
  have ordered : first.IsOrdered := ⟨rfl, nofun⟩
  have ordered' : second.IsOrdered :=
    ⟨rfl, fun same => Binary64.ofInt64_ne_notANumber _ (Value.float.inj same)⟩
  have ordered'' : third.IsOrdered := ⟨rfl, nofun⟩
  have merges : first.MergesWith third := ⟨_, _, rfl, rfl, by decide, by decide +kernel⟩
  have apart : ¬ first.MergesWith second := fun ⟨_, _, _, isInteger, _⟩ => nomatch isInteger
  have same : first.equals second = true := by decide +kernel
  have same' : second.equals third = true := by decide +kernel
  have equal : Affirms operations .equal first second := congrArg (Except.ok ∘ Value.boolean) same
  have equal' : Affirms operations .equal second third := congrArg (Except.ok ∘ Value.boolean) same'
  obtain ⟨-, coherent, transitive, -⟩ :=
    comparisons_coherent_iff operations ordered ordered' ordered''
  exact ⟨ordered, ordered', ordered'', coherent.2 apart, equal, equal', fun affirmed =>
    (transitive equal equal').1 affirmed merges⟩

/-- The questions do not fit together for the integer two to the power of 53 and the next one.
Neither is less, neither is greater, and they are not equal, though one is at most the other, and
though both equal one binary number. -/
theorem comparisons_incoherent_neighbours :
    let first := Value.integer 9007199254740992
    let second := Value.integer 9007199254740993
    let rounded := Value.float (.ofInt64 9007199254740992)
    let operations := OperationRegistry.builtIn
    ¬ Affirms operations .less first second ∧ ¬ Affirms operations .equal first second ∧
      ¬ Affirms operations .greater first second ∧ Affirms operations .lessEqual first second ∧
      Affirms operations .equal first rounded ∧ Affirms operations .equal rounded second := by
  intro first second rounded operations
  have merges : first.MergesWith second := ⟨_, _, rfl, rfl, by decide, by decide +kernel⟩
  have ordered : ∀ integer, (Value.integer integer).IsOrdered := fun _ => ⟨rfl, nofun⟩
  obtain ⟨place, has⟩ := (ordered 9007199254740992).exists_hasPlace
  obtain ⟨place', has'⟩ := (ordered 9007199254740993).exists_hasPlace
  obtain rfl : place = place' := merges.place_eq has has'
  have has : first.HasPlace place := has
  have has' : second.HasPlace place := has'
  have hasRounded : rounded.HasPlace place := has
  rw [affirms_less_iff has has', affirms_equal_iff has has', affirms_greater_iff has has',
    affirms_lessEqual_iff has has', affirms_equal_iff has hasRounded,
    affirms_equal_iff hasRounded has']
  have apart : ¬ first.MergesWith rounded := fun ⟨_, _, _, isInteger, _⟩ => nomatch isInteger
  have apart' : ¬ rounded.MergesWith second := fun ⟨_, _, isInteger, _⟩ => nomatch isInteger
  simp [merges, apart, apart']

end BinaryOperator

end Reckon
