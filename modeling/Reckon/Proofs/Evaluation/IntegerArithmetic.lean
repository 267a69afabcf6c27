/-
This file shows that arithmetic on integers is exact. A tree of integers,
variables bound to integers, parentheses and the operators of arithmetic comes
to the integer that it denotes, at whatever depth and in whatever shape, while
each part of it denotes one of a magnitude up to two to the power of 53.

A variable may have a limited number of uses. What an evaluation needs of them
is counted on the tree: whatever of it is left after a part was evaluated is
enough for the parts that follow.
-/

import Reckon.Proofs.Evaluation.IntegerOperators
import Reckon.Proofs.Evaluation.Overdue
import Reckon.Proofs.Evaluation.UseLimit

namespace Reckon

open Binary64 (exactLimit)

variable {Memory Result Other : Type}

/-! ### Trees that denote integers -/

namespace Expression

/-- The integer that a tree of arithmetic denotes, where names stand for integers. Other trees
denote none, and neither does a division by zero or one that leaves a remainder. -/
def integer? (bound : String → Option Int) : Expression → Option Int
  | .integer number => some number.toInt
  | .variable name => bound name
  | .grouping inner => inner.integer? bound
  | .unary .negate operand => (operand.integer? bound).map fun value => -value
  | .binary operator left right => do
    operator.ofIntegers? (← left.integer? bound) (← right.integer? bound)
  | _ => none

/-- How many levels deep the parts of a tree of arithmetic lie. -/
def nesting : Expression → Nat
  | .grouping inner => inner.nesting + 1
  | .unary _ operand => operand.nesting + 1
  | .binary _ left right => max left.nesting right.nesting + 1
  | _ => 0

/-- How often a tree of arithmetic reads a variable. -/
def reads (name : String) : Expression → Nat
  | .variable other => if name = other then 1 else 0
  | .grouping inner => inner.reads name
  | .unary _ operand => operand.reads name
  | .binary _ left right => left.reads name + right.reads name
  | _ => 0

end Expression

/-! ### Environments that supply integers -/

namespace Environment

/-- The integer that a name is bound to. -/
def integer? (environment : Environment) (name : String) : Option Int :=
  match environment.peek? name with
  | some (.integer number) => some number.toInt
  | _ => none

/-- Whether names stand for given integers in an environment, and each of them may still be read
as often as is demanded. -/
structure Supplies (environment : Environment) (bound : String → Option Int)
    (demand : String → Nat) : Prop where
  bound : environment.integer? = bound
  enough : ∀ name left, environment.usesLeft? name = some left → demand name ≤ left

variable {environment : Environment} {bound : String → Option Int} {name : String}

theorem find?_of_integer? {integer : Int} (means : environment.integer? name = some integer) :
    ∃ number allowance, environment.find? name = some ⟨.integer number, allowance⟩ ∧
      number.toInt = integer := by
  unfold integer? peek? at means
  cases found : environment.find? name with
  | none =>
    rw [found] at means
    cases means
  | some binding =>
    obtain ⟨value, allowance⟩ := binding
    rw [found] at means
    cases value with
    | integer number => exact ⟨number, allowance, rfl, Option.some.inj means⟩
    | _ => cases means

theorem peek?_afterRead (environment : Environment) (name other : String) :
    (environment.afterRead name).peek? other = environment.peek? other := by
  unfold peek?
  rw [find?_afterRead]
  by_cases same : other = name
  · rw [if_pos same, same, Option.map_map]
    rfl
  · rw [if_neg same]

theorem usesLeft?_afterRead (environment : Environment) (name other : String) :
    (environment.afterRead name).usesLeft? other =
      if other = name then (environment.usesLeft? name).map fun left => left - 1
      else environment.usesLeft? other := by
  unfold usesLeft?
  rw [find?_afterRead]
  by_cases same : other = name
  · rw [if_pos same, if_pos same]
    cases environment.find? name with
    | none => rfl
    | some binding =>
      obtain ⟨value, allowance⟩ := binding
      cases allowance <;> rfl
  · rw [if_neg same, if_neg same]

theorem Supplies.contains {demand : String → Nat} (supplies : environment.Supplies bound demand)
    {integer : Int} (means : bound name = some integer) : environment.contains name = true := by
  rw [← supplies.bound] at means
  obtain ⟨_, _, found, -⟩ := find?_of_integer? means
  unfold Environment.contains
  rw [found]
  rfl

/-- A read gives the integer, and what is supplied after it is what is demanded of the rest. -/
theorem Supplies.read {integer : Int} {rest : String → Nat}
    (supplies : environment.Supplies bound fun other =>
      (Expression.variable name).reads other + rest other)
    (means : bound name = some integer) :
    ∃ number environment', environment.read name = (.ok (.integer number), environment') ∧
      number.toInt = integer ∧ environment'.Supplies bound rest := by
  have enough := supplies.enough
  unfold Expression.reads at enough
  rw [← supplies.bound] at means
  obtain ⟨number, allowance, found, same⟩ := find?_of_integer? means
  have demanded := enough name
  unfold usesLeft? at demanded
  rw [found, if_pos rfl] at demanded
  have answered : Binding.answer ⟨.integer number, allowance⟩ name = .ok (.integer number) := by
    rcases allowance with _ | ⟨allowed, _ | left⟩
    · rfl
    · exact absurd (demanded 0 rfl) (by omega)
    · rfl
  refine ⟨number, environment.afterRead name, ?_, same, ?_, fun other left known => ?_⟩
  · unfold Environment.read
    rw [found]
    exact Prod.ext answered rfl
  · rw [← supplies.bound]
    funext other
    unfold integer?
    rw [peek?_afterRead]
  · rw [usesLeft?_afterRead] at known
    by_cases again : other = name
    · rw [if_pos again] at known
      obtain ⟨before, knownBefore, rfl⟩ := Option.map_eq_some_iff.1 known
      have needed := enough name before knownBefore
      rw [if_pos rfl] at needed
      rw [again]
      omega
    · rw [if_neg again] at known
      have needed := enough other left known
      rw [if_neg again] at needed
      omega

end Environment

namespace Evaluation

/-! ### Computations that come to an answer -/

/-- Wherever a statement holds of the environment, a computation comes to an answer, and another
statement holds of the answer and the environment then. -/
def Attains (action : Evaluation Memory Result) (before : Environment → Prop)
    (after : Result → Environment → Prop) : Prop :=
  ∀ machine, before machine.environment → ∃ result machine',
    action machine = (.ok result, machine') ∧ after result machine'.environment

variable {before : Environment → Prop}

theorem Attains.bind {action : Evaluation Memory Result} {next : Result → Evaluation Memory Other}
    {between : Result → Environment → Prop} {after : Other → Environment → Prop}
    (attains : action.Attains before between)
    (nextAttains : ∀ result, (next result).Attains (between result) after) :
    (action >>= next).Attains before after := by
  intro machine holds
  obtain ⟨result, machine', ran, holds'⟩ := attains machine holds
  obtain ⟨answer, machine'', ran', holds''⟩ := nextAttains result machine' holds'
  refine ⟨answer, machine'', ?_, holds''⟩
  show andThen action next machine = _
  unfold andThen
  rw [ran]
  exact ran'

/-- A fact about an answer that is known already is at hand for what follows. -/
theorem Attains.of_fact {action : Evaluation Memory Result} {fact : Prop}
    {after : Result → Environment → Prop} (attains : fact → action.Attains before after) :
    action.Attains (fun environment => fact ∧ before environment) after :=
  fun machine holds => attains holds.1 machine holds.2

theorem Attains.ofExcept {answer : Except EvaluationError Result}
    {after : Result → Environment → Prop}
    (answers : ∀ environment, before environment →
      ∃ result, answer = .ok result ∧ after result environment) :
    (ofExcept answer : Evaluation Memory Result).Attains before after := by
  intro machine holds
  obtain ⟨result, rfl, holds'⟩ := answers machine.environment holds
  exact ⟨result, machine, rfl, holds'⟩

variable {setting : NestedSetting Memory}

/-- The visit of a node in time leaves the environment as it is. -/
theorem attains_visit (inTime : ∀ visits, setting.deadline ≠ some (.passesAt visits)) (depth : Nat)
    (expression : Expression) :
    (visit setting.toSetting depth expression).Attains before fun _ => before := by
  intro machine holds
  have notUp : isTimeUp setting.toSetting (machine.visits + 1) = false := by
    unfold isTimeUp
    cases deadline : setting.deadline with
    | none => rfl
    | some deadline' =>
      cases deadline' with
      | passesAt visits => exact absurd deadline (inTime visits)
      | distant => rfl
  refine ⟨(), _, visit_of_inTime notUp depth expression, ?_⟩
  unfold Machine.visited
  dsimp only
  split <;> exact holds

/-- Within the limits of time and depth, an evaluation attains what the rule for its node does. -/
theorem attains_evaluateAt (inTime : ∀ visits, setting.deadline ≠ some (.passesAt visits))
    {depth : Nat} (within : depth ≤ setting.depthLimit) {tree : Expression}
    {after : Value → Environment → Prop}
    (steps : (step setting (depth + 1) (evaluateAt setting (depth + 1))
      (evaluateAt setting (depth + 2)) tree).Attains before after) :
    (evaluateAt setting depth tree).Attains before after := by
  rw [evaluateAt_of_le within]
  exact (attains_visit inTime depth tree).bind fun _ => steps

theorem attains_readVariable {name : String}
    (allowed : setting.configuration.isVariableAllowed name = true)
    {bound : String → Option Int} {integer : Int} (means : bound name = some integer)
    (rest : String → Nat) :
    (readVariable setting.toSetting name).Attains
      (fun environment => environment.Supplies bound fun other =>
        (Expression.variable name).reads other + rest other)
      fun value environment => value.IsExactly integer ∧ environment.Supplies bound rest := by
  intro machine supplies
  obtain ⟨number, environment, read, same, supplied⟩ := supplies.read means
  refine ⟨.integer number, { machine with environment }, ?_, same, supplied⟩
  rw [Coupling.readVariable_of_bound setting.toSetting allowed (supplies.contains means), read]

section

variable {after : Environment → Prop} {part : Expression → Evaluation Memory Value}

/-- The negative of an operand that denotes an integer. -/
theorem attains_negate {operand : Expression} {integer : Int}
    (attains : (part operand).Attains before fun value environment =>
      value.IsExactly integer ∧ after environment)
    (small : integer.natAbs ≤ exactLimit) :
    (do ofExcept (UnaryOperator.apply .negate (← part operand))).Attains before
      fun value environment => value.IsExactly (-integer) ∧ after environment := by
  refine attains.bind fun value => Attains.of_fact fun exactly => ?_
  refine Attains.ofExcept fun environment holds => ?_
  obtain ⟨negated, negates, negatedExactly⟩ := exactly.negateValue small
  exact ⟨negated, negates, negatedExactly, holds⟩

/-- An operator that always looks at both operands. -/
theorem binary_of_ofIntegers? {operator : BinaryOperator} {first second result : Int}
    (made : operator.ofIntegers? first second = some result)
    (part : Expression → Evaluation Memory Value) (left right : Expression) :
    binary setting.toSetting part operator left right = (do
      let first ← part left
      let second ← part right
      ofExcept (operator.apply setting.operations first second)) := by
  cases operator with
  | and | or => cases made
  | _ => rfl

/-- An operator between two operands that denote integers. -/
theorem attains_binary (keeps : setting.operations.KeepsBuiltIn) {operator : BinaryOperator}
    {left right : Expression} {first second result : Int} {between : Environment → Prop}
    (attainsLeft : (part left).Attains before fun value environment =>
      value.IsExactly first ∧ between environment)
    (attainsRight : (part right).Attains between fun value environment =>
      value.IsExactly second ∧ after environment)
    (smallLeft : first.natAbs ≤ exactLimit) (smallRight : second.natAbs ≤ exactLimit)
    (small : result.natAbs ≤ exactLimit)
    (made : operator.ofIntegers? first second = some result) :
    (binary setting.toSetting part operator left right).Attains before fun value environment =>
      value.IsExactly result ∧ after environment := by
  rw [binary_of_ofIntegers? made]
  refine attainsLeft.bind fun leftValue => Attains.of_fact fun leftExactly => ?_
  refine attainsRight.bind fun rightValue => Attains.of_fact fun rightExactly => ?_
  refine Attains.ofExcept fun environment holds => ?_
  obtain ⟨value, applied, exactly⟩ := BinaryOperator.apply_isExactly keeps leftExactly
    rightExactly smallLeft smallRight small made
  exact ⟨value, applied, exactly, holds⟩

end

/-! ### Arithmetic -/

/-- A tree comes to the integer that it denotes, and reads its variables as often as it has
them. -/
theorem attains_integer (setting : NestedSetting Memory)
    (inTime : ∀ visits, setting.deadline ≠ some (.passesAt visits))
    (keeps : setting.operations.KeepsBuiltIn) {bound : String → Option Int} (tree : Expression)
    {depth : Nat} {integer : Int} (rest : String → Nat)
    (deep : depth + tree.nesting ≤ setting.depthLimit)
    (allowed : ∀ name, tree.Mentions name → setting.configuration.isVariableAllowed name = true)
    (denotes : tree.integer? bound = some integer)
    (small : ∀ (part : Expression) (value : Int), part.Within tree →
      part.integer? bound = some value → value.natAbs ≤ exactLimit) :
    (evaluateAt setting depth tree).Attains
      (fun environment => environment.Supplies bound fun name => tree.reads name + rest name)
      fun value environment => value.IsExactly integer ∧ environment.Supplies bound rest := by
  induction tree using Expression.parts_induction generalizing depth integer rest with
  | integer number =>
    refine attains_evaluateAt inTime (Nat.le_of_add_right_le deep) fun machine supplies => ?_
    refine ⟨_, _, rfl, Option.some.inj denotes, supplies.bound, fun name left known => ?_⟩
    exact Nat.le_trans (Nat.le_add_left _ _) (supplies.enough name left known)
  | «variable» name =>
    exact attains_evaluateAt inTime (Nat.le_of_add_right_le deep)
      (attains_readVariable (allowed name .itself) denotes rest)
  | grouping inner inductionHypothesis =>
    unfold Expression.nesting at deep
    refine attains_evaluateAt inTime (Nat.le_of_add_right_le deep) ?_
    exact inductionHypothesis rest (by omega)
      (fun name mentions => allowed name (mentions.of_within (.grouped .itself))) denotes
      fun part value within => small part value (within.trans (.grouped .itself))
  | unary operator operand inductionHypothesis =>
    cases operator with
    | not => cases denotes
    | negate =>
      unfold Expression.nesting at deep
      obtain ⟨value, denotesOperand, rfl⟩ := Option.map_eq_some_iff.1 denotes
      have withinOperand : operand.Within (.unary .negate operand) := .operand .negate .itself
      refine attains_evaluateAt inTime (Nat.le_of_add_right_le deep) (attains_negate ?_
        (small operand value withinOperand denotesOperand))
      exact inductionHypothesis rest (by omega)
        (fun name mentions => allowed name (mentions.of_within withinOperand)) denotesOperand
        fun part value within => small part value (within.trans withinOperand)
  | binary operator left right leftHypothesis rightHypothesis =>
    unfold Expression.nesting at deep
    obtain ⟨first, denotesLeft, made⟩ := Option.bind_eq_some_iff.1 denotes
    obtain ⟨second, denotesRight, made⟩ := Option.bind_eq_some_iff.1 made
    have withinLeft : left.Within (.binary operator left right) := .left operator right .itself
    have withinRight : right.Within (.binary operator left right) := .right operator left .itself
    -- What the right operand and the rest of the tree read is left after the left operand.
    have attainsLeft := leftHypothesis (fun name => right.reads name + rest name)
      (show depth + 1 + left.nesting ≤ setting.depthLimit by omega)
      (fun name mentions => allowed name (mentions.of_within withinLeft)) denotesLeft
      fun part value within => small part value (within.trans withinLeft)
    have attainsRight := rightHypothesis rest
      (show depth + 1 + right.nesting ≤ setting.depthLimit by omega)
      (fun name mentions => allowed name (mentions.of_within withinRight)) denotesRight
      fun part value within => small part value (within.trans withinRight)
    have reads : (fun name => (Expression.binary operator left right).reads name + rest name) =
        fun name => left.reads name + (right.reads name + rest name) :=
      funext fun name => Nat.add_assoc ..
    rw [reads]
    exact attains_evaluateAt inTime (Nat.le_of_add_right_le deep)
      (attains_binary keeps attainsLeft attainsRight (small left first withinLeft denotesLeft)
        (small right second withinRight denotesRight) (small _ integer .itself denotes) made)
  | _ => cases denotes

/-- Integer arithmetic is exact. A tree of integers, variables bound to integers, parentheses and
the operators of arithmetic comes to a number that is exactly the integer it denotes, if it lies
within the depth limit and the magnitude of each of its parts is at most two to the power of
53. -/
theorem evaluate_isExactly (setting : Setting Memory) (depth : Nat) (tree : Expression)
    (machine : Machine Memory) {integer : Int}
    (keeps : setting.operations.KeepsBuiltIn)
    (inTime : ∀ visits, setting.deadline ≠ some (.passesAt visits))
    (deep : depth + tree.nesting ≤ setting.depthLimit)
    (allowed : ∀ name, tree.Mentions name → setting.configuration.isVariableAllowed name = true)
    (enough : ∀ name left, machine.environment.usesLeft? name = some left →
      tree.reads name ≤ left)
    (denotes : tree.integer? machine.environment.integer? = some integer)
    (small : ∀ (part : Expression) (value : Int), part.Within tree →
      part.integer? machine.environment.integer? = some value → value.natAbs ≤ exactLimit) :
    ∃ value number, (evaluate setting depth tree machine).1 = .ok value ∧
      value.asFloat? = some number ∧ number.IsExactly integer := by
  obtain ⟨value, machine', evaluated, exactly, -⟩ :=
    attains_integer (setting.nested setting.nestings) inTime keeps tree (fun _ => 0) deep allowed
      denotes small machine ⟨rfl, enough⟩
  obtain ⟨number, asFloat, numberExactly⟩ :=
    exactly.exists_asFloat? (small tree integer .itself denotes)
  exact ⟨value, number, congrArg Prod.fst evaluated, asFloat, numberExactly⟩

/-- A sum reaches two to the power of 53, and a remainder has the sign of its dividend. -/
theorem evaluate_isExactly_remainder :
    let sum := Expression.grouping (.binary .add (.integer 9007199254740991) (.variable "x"))
    let tree := Expression.binary .modulo
      (.binary .divide sum (.unary .negate (.integer 4))) (.integer 1000)
    let setting : Setting Unit := { Setting.few {} with operations := .builtIn }
    let environment := Environment.empty.define "x" (.integer 1) (.limited 1)
    sum.integer? environment.integer? = some 9007199254740992 ∧
      ∃ value number,
        (evaluate setting 0 tree (.start environment (.initial {} ()))).1 = .ok value ∧
          value.asFloat? = some number ∧ number.IsExactly (-248) := by
  intro sum tree setting environment
  refine ⟨by decide, evaluate_isExactly setting 0 tree (.start environment (.initial {} ()))
    (fun _ => rfl) (fun _ => nofun) (by decide) (fun _ _ => rfl) (fun name left known => ?_)
    (by decide) fun part value within denotes => ?_⟩
  · by_cases same : name = "x"
    · subst same
      obtain rfl : 1 = left := Option.some.inj known
      decide
    · have none : tree.reads name = 0 := by
        simp [tree, sum, Expression.reads, same]
      rw [none]
      exact Nat.zero_le left
  · dsimp only [tree, sum] at within
    repeat' cases ‹Expression.Within part _›
    all_goals
      obtain rfl := Option.some.inj denotes
      decide

end Evaluation

end Reckon
