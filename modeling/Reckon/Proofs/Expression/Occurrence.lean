/-
This file says when one expression occurs in another, and which names an
expression mentions: those of the variables that occur in it. A name that is
bound or called, or names a type, is not mentioned by that. What is shown of an
expression from its parts is shown by one induction.
-/

import Reckon.Expression

namespace Reckon

namespace Expression

/-- Induction on the parts of an expression: what holds of an expression as soon as it holds of
all parts that it is put together from holds of every expression. -/
@[elab_as_elim]
theorem parts_induction {motive : Expression → Prop}
    (integer : ∀ number, motive (.integer number))
    (float : ∀ number, motive (.float number))
    (text : ∀ content, motive (.text content))
    (boolean : ∀ truth, motive (.boolean truth))
    (null : motive .null)
    («variable» : ∀ name, motive (.variable name))
    (binary : ∀ operator left right, motive left → motive right →
      motive (.binary operator left right))
    (unary : ∀ operator operand, motive operand → motive (.unary operator operand))
    (ternary : ∀ condition whenTrue whenFalse, motive condition → motive whenTrue →
      motive whenFalse → motive (.ternary condition whenTrue whenFalse))
    (binding : ∀ name value uses body, motive value → motive body →
      motive (.binding name value uses body))
    (conditional : ∀ branches otherwise,
      (∀ branch ∈ branches, motive branch.1 ∧ motive branch.2) →
      (∀ result, otherwise = some result → motive result) →
      motive (.conditional branches otherwise))
    (call : ∀ function hint arguments, (∀ argument ∈ arguments, motive argument) →
      motive (.call function hint arguments))
    (cast : ∀ typeName inner, motive inner → motive (.cast typeName inner))
    (grouping : ∀ inner, motive inner → motive (.grouping inner))
    (expression : Expression) : motive expression :=
  @Expression.rec motive (fun branches => ∀ branch ∈ branches, motive branch.1 ∧ motive branch.2)
    (fun otherwise => ∀ result, otherwise = some result → motive result)
    (fun arguments => ∀ argument ∈ arguments, motive argument)
    (fun branch => motive branch.1 ∧ motive branch.2)
    integer float text boolean null «variable» binary unary ternary binding conditional call cast
    grouping (fun _ member => absurd member List.not_mem_nil)
    (fun _ _ first rest => List.forall_mem_cons.mpr ⟨first, rest⟩)
    (fun _ same => absurd same (Option.some_ne_none _).symm)
    (fun _ holds _ same => Option.some.inj same ▸ holds)
    (fun _ member => absurd member List.not_mem_nil)
    (fun _ _ first rest => List.forall_mem_cons.mpr ⟨first, rest⟩)
    (fun _ _ condition result => ⟨condition, result⟩) expression

/-- Whether an expression occurs in another one; it does in itself. -/
inductive Within (part : Expression) : Expression → Prop where
  | itself : Within part part
  | left (operator : BinaryOperator) {left : Expression} (right : Expression) :
      Within part left → Within part (.binary operator left right)
  | right (operator : BinaryOperator) (left : Expression) {right : Expression} :
      Within part right → Within part (.binary operator left right)
  | operand (operator : UnaryOperator) {operand : Expression} :
      Within part operand → Within part (.unary operator operand)
  | condition {condition : Expression} (whenTrue whenFalse : Expression) :
      Within part condition → Within part (.ternary condition whenTrue whenFalse)
  | whenTrue (condition : Expression) {whenTrue : Expression} (whenFalse : Expression) :
      Within part whenTrue → Within part (.ternary condition whenTrue whenFalse)
  | whenFalse (condition whenTrue : Expression) {whenFalse : Expression} :
      Within part whenFalse → Within part (.ternary condition whenTrue whenFalse)
  | value (name : String) {value : Expression} (uses : UseLimit) (body : Expression) :
      Within part value → Within part (.binding name value uses body)
  | body (name : String) (value : Expression) (uses : UseLimit) {body : Expression} :
      Within part body → Within part (.binding name value uses body)
  | branchCondition {branches : List (Expression × Expression)} {condition result : Expression}
      (otherwise : Option Expression) (member : (condition, result) ∈ branches) :
      Within part condition → Within part (.conditional branches otherwise)
  | branchResult {branches : List (Expression × Expression)} {condition result : Expression}
      (otherwise : Option Expression) (member : (condition, result) ∈ branches) :
      Within part result → Within part (.conditional branches otherwise)
  | otherwise (branches : List (Expression × Expression)) {result : Expression} :
      Within part result → Within part (.conditional branches (some result))
  | argument (function : String) (hint : Option String) {arguments : List Expression}
      {argument : Expression} (member : argument ∈ arguments) :
      Within part argument → Within part (.call function hint arguments)
  | inner (typeName : String) {inner : Expression} :
      Within part inner → Within part (.cast typeName inner)
  | grouped {inner : Expression} : Within part inner → Within part (.grouping inner)

/-- Whether a variable of a name occurs in an expression. -/
def Mentions (expression : Expression) (name : String) : Prop :=
  (Expression.variable name).Within expression

theorem Within.trans {part middle whole : Expression} (first : part.Within middle)
    (second : middle.Within whole) : part.Within whole := by
  induction second with
  | itself => exact first
  | left operator right _ inner => exact .left operator right inner
  | right operator left _ inner => exact .right operator left inner
  | operand operator _ inner => exact .operand operator inner
  | condition whenTrue whenFalse _ inner => exact .condition whenTrue whenFalse inner
  | whenTrue condition whenFalse _ inner => exact .whenTrue condition whenFalse inner
  | whenFalse condition whenTrue _ inner => exact .whenFalse condition whenTrue inner
  | value name uses body _ inner => exact .value name uses body inner
  | body name value uses _ inner => exact .body name value uses inner
  | branchCondition otherwise member _ inner => exact .branchCondition otherwise member inner
  | branchResult otherwise member _ inner => exact .branchResult otherwise member inner
  | otherwise branches _ inner => exact .otherwise branches inner
  | argument function hint member _ inner => exact .argument function hint member inner
  | inner typeName _ inner => exact .inner typeName inner
  | grouped _ inner => exact .grouped inner

theorem Mentions.of_within {part whole : Expression} {name : String} (mentions : part.Mentions name)
    (within : part.Within whole) : whole.Mentions name :=
  mentions.trans within

/-- What is inside the parentheses around an expression occurs in it. -/
theorem withoutOuterGroups_within (expression : Expression) :
    expression.withoutOuterGroups.Within expression := by
  fun_induction withoutOuterGroups expression with
  | case1 inner within => exact .grouped within
  | case2 other _ => exact .itself

end Expression

end Reckon
