/-
This file tells the free names of an expression from the bound ones. A `let`
binds its name in its body: there the name means that `let`, and what it means
outside cannot be reached. A renaming changes the free names of an expression
and leaves the bound ones alone.

Free names are found by going through the parts of an expression that are in
its own scope, and into the body of a `let` with one name less.
-/

import Reckon.Proofs.Expression.Occurrence

namespace Reckon

namespace Expression

/-! ### Free names -/

/-- Whether an expression is put together from another one in the scope of the whole. The body of
a `let` is in a scope of its own. -/
inductive PartOf (part : Expression) : Expression → Prop where
  | left (operator : BinaryOperator) (right : Expression) :
      PartOf part (.binary operator part right)
  | right (operator : BinaryOperator) (left : Expression) :
      PartOf part (.binary operator left part)
  | operand (operator : UnaryOperator) : PartOf part (.unary operator part)
  | condition (whenTrue whenFalse : Expression) : PartOf part (.ternary part whenTrue whenFalse)
  | whenTrue (condition whenFalse : Expression) : PartOf part (.ternary condition part whenFalse)
  | whenFalse (condition whenTrue : Expression) : PartOf part (.ternary condition whenTrue part)
  | value (name : String) (uses : UseLimit) (body : Expression) :
      PartOf part (.binding name part uses body)
  | branchCondition {branches : List (Expression × Expression)} {result : Expression}
      (otherwise : Option Expression) (member : (part, result) ∈ branches) :
      PartOf part (.conditional branches otherwise)
  | branchResult {branches : List (Expression × Expression)} {condition : Expression}
      (otherwise : Option Expression) (member : (condition, part) ∈ branches) :
      PartOf part (.conditional branches otherwise)
  | otherwise (branches : List (Expression × Expression)) :
      PartOf part (.conditional branches (some part))
  | argument (function : String) (hint : Option String) {arguments : List Expression}
      (member : part ∈ arguments) : PartOf part (.call function hint arguments)
  | inner (typeName : String) : PartOf part (.cast typeName part)
  | grouped : PartOf part (.grouping part)

/-- Whether a name is free in an expression: a variable of that name occurs where no `let` binds
it. -/
inductive HasFree (name : String) : Expression → Prop where
  | itself : HasFree name (.variable name)
  | part {part whole : Expression} (isPart : part.PartOf whole) :
      HasFree name part → HasFree name whole
  | body {bound : String} (value : Expression) (uses : UseLimit) {body : Expression}
      (other : name ≠ bound) : HasFree name body → HasFree name (.binding bound value uses body)

/-- Whether a `let` of a name occurs in an expression. -/
def Binds (expression : Expression) (name : String) : Prop :=
  ∃ value uses body, (Expression.binding name value uses body).Within expression

theorem PartOf.within {part whole : Expression} (isPart : part.PartOf whole) :
    part.Within whole := by
  cases isPart with
  | left operator right => exact .left operator right .itself
  | right operator left => exact .right operator left .itself
  | operand operator => exact .operand operator .itself
  | condition whenTrue whenFalse => exact .condition whenTrue whenFalse .itself
  | whenTrue condition whenFalse => exact .whenTrue condition whenFalse .itself
  | whenFalse condition whenTrue => exact .whenFalse condition whenTrue .itself
  | value name uses body => exact .value name uses body .itself
  | branchCondition otherwise member => exact .branchCondition otherwise member .itself
  | branchResult otherwise member => exact .branchResult otherwise member .itself
  | otherwise branches => exact .otherwise branches .itself
  | argument function hint member => exact .argument function hint member .itself
  | inner typeName => exact .inner typeName .itself
  | grouped => exact .grouped .itself

/-- A variable alone has no other free name. -/
theorem HasFree.eq_of_variable {free name : String}
    (isFree : (Expression.variable name).HasFree free) : free = name := by
  cases isFree with
  | itself => rfl
  | part isPart _ => nomatch isPart

/-- A free name is mentioned. -/
theorem HasFree.mentions {expression : Expression} {name : String}
    (free : expression.HasFree name) : expression.Mentions name := by
  induction free with
  | itself => exact .itself
  | part isPart _ inside => exact inside.of_within isPart.within
  | body value uses _ _ inside => exact inside.of_within (.body _ value uses .itself)

theorem Binds.of_within {part whole : Expression} {name : String} (binds : part.Binds name)
    (within : part.Within whole) : whole.Binds name := by
  obtain ⟨value, uses, body, inside⟩ := binds
  exact ⟨value, uses, body, inside.trans within⟩

/-- What is free inside the parentheses around an expression is free in it. -/
theorem HasFree.of_withoutOuterGroups {expression : Expression} {name : String}
    (free : expression.withoutOuterGroups.HasFree name) : expression.HasFree name := by
  fun_induction withoutOuterGroups expression with
  | case1 inner inductionHypothesis => exact .part .grouped (inductionHypothesis free)
  | case2 other _ => exact free

/-! ### Renaming -/

/-- A renaming inside a `let`, where it leaves the name that is bound alone. -/
def shadowed (rename : String → String) (bound : String) : String → String :=
  fun name => if name = bound then name else rename name

theorem shadowed_self (rename : String → String) (bound : String) :
    shadowed rename bound bound = bound :=
  if_pos rfl

theorem shadowed_of_ne (rename : String → String) {bound name : String} (other : name ≠ bound) :
    shadowed rename bound name = rename name :=
  if_neg other

theorem shadowed_id (bound : String) : shadowed id bound = id := by
  funext name
  exact ite_self name

mutual

/-- An expression with its free names changed by a renaming. -/
def renamed (rename : String → String) : Expression → Expression
  | .integer number => .integer number
  | .float number => .float number
  | .text content => .text content
  | .boolean truth => .boolean truth
  | .null => .null
  | .variable name => .variable (rename name)
  | .binary operator left right => .binary operator (renamed rename left) (renamed rename right)
  | .unary operator operand => .unary operator (renamed rename operand)
  | .ternary condition whenTrue whenFalse =>
    .ternary (renamed rename condition) (renamed rename whenTrue) (renamed rename whenFalse)
  | .binding name value uses body =>
    .binding name (renamed rename value) uses (renamed (shadowed rename name) body)
  | .conditional branches otherwise =>
    .conditional (renamedBranches rename branches) (renamedOptional rename otherwise)
  | .call function hint arguments => .call function hint (renamedAll rename arguments)
  | .cast typeName inner => .cast typeName (renamed rename inner)
  | .grouping inner => .grouping (renamed rename inner)

/-- Expressions with their free names changed by a renaming. -/
def renamedAll (rename : String → String) : List Expression → List Expression
  | [] => []
  | first :: rest => renamed rename first :: renamedAll rename rest

/-- Branches with their free names changed by a renaming. -/
def renamedBranches (rename : String → String) :
    List (Expression × Expression) → List (Expression × Expression)
  | [] => []
  | (condition, result) :: rest =>
    (renamed rename condition, renamed rename result) :: renamedBranches rename rest

/-- An optional expression with its free names changed by a renaming. -/
def renamedOptional (rename : String → String) : Option Expression → Option Expression
  | none => none
  | some tree => some (renamed rename tree)

end

/-- An expression with the free occurrences of a name replaced by another name. -/
def replacing (name other : String) (expression : Expression) : Expression :=
  expression.renamed fun found => if found = name then other else found

theorem renamedAll_eq_map (rename : String → String) (trees : List Expression) :
    renamedAll rename trees = trees.map (renamed rename) := by
  induction trees with
  | nil => rfl
  | cons first rest inductionHypothesis => exact congrArg _ inductionHypothesis

theorem renamedBranches_eq_map (rename : String → String)
    (branches : List (Expression × Expression)) :
    renamedBranches rename branches =
      branches.map (Prod.map (renamed rename) (renamed rename)) := by
  induction branches with
  | nil => rfl
  | cons branch rest inductionHypothesis => exact congrArg _ inductionHypothesis

theorem renamedOptional_eq_map (rename : String → String) (tree : Option Expression) :
    renamedOptional rename tree = tree.map (renamed rename) := by
  cases tree <;> rfl

/-- A renaming that leaves every name alone changes nothing. -/
theorem renamed_id (expression : Expression) : expression.renamed id = expression := by
  induction expression using parts_induction with
  | integer number => rfl
  | float number => rfl
  | text content => rfl
  | boolean truth => rfl
  | null => rfl
  | «variable» name => rfl
  | binary operator left right sameLeft sameRight => rw [renamed, sameLeft, sameRight]
  | unary operator operand same => rw [renamed, same]
  | ternary condition whenTrue whenFalse sameCondition sameTrue sameFalse =>
    rw [renamed, sameCondition, sameTrue, sameFalse]
  | binding name value uses body sameValue sameBody =>
    rw [renamed, shadowed_id, sameValue, sameBody]
  | conditional branches otherwise sameBranches sameLast =>
    have branchesSame : branches.map (Prod.map (renamed id) (renamed id)) = branches :=
      (List.map_congr_left fun branch member => Prod.ext (sameBranches branch member).1
        (sameBranches branch member).2).trans (List.map_id _)
    rw [renamed, renamedBranches_eq_map, renamedOptional_eq_map, branchesSame]
    cases otherwise with
    | none => rfl
    | some result => rw [Option.map_some, sameLast result rfl]
  | call function hint arguments same =>
    rw [renamed, renamedAll_eq_map, List.map_congr_left same, List.map_id']
  | cast typeName inner same => rw [renamed, same]
  | grouping inner same => rw [renamed, same]

/-- Parentheses stay where they are. -/
theorem withoutOuterGroups_renamed (rename : String → String) (expression : Expression) :
    (expression.renamed rename).withoutOuterGroups =
      expression.withoutOuterGroups.renamed rename := by
  fun_induction withoutOuterGroups expression with
  | case1 inner inductionHypothesis => exact inductionHypothesis
  | case2 other notGrouping =>
    cases other with
    | grouping inner => exact (notGrouping inner rfl).elim
    | _ => rfl

end Expression

end Reckon
