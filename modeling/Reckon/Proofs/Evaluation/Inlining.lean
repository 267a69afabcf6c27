/-
This file shows that a call of a function written in the language means the body
of the function, with a `let` of each parameter around it, if the types of the
parameters and of the result are left out. Nothing free in the body may be
anything but a parameter, and no parameter may be free in an argument.

The call evaluates the body in an environment of its own, where the `let`s put
their scopes around the environment of the caller. In the one the parameters
mean what they mean in the other, and reading them changes neither.

The `let`s lie at other depths than the call, some of them above and some below.
So both are compared with the call at a depth that is less than either.
-/

import Reckon.Proofs.Evaluation.Deeper

namespace Reckon

/-- An expression with a `let` of each of some names around it, the first one outermost. -/
def Expression.letting (bindings : List (String × Expression)) (body : Expression) : Expression :=
  bindings.foldr (fun binding inner => .binding binding.1 binding.2 .unlimited inner) body

/-- A definition in which the types of the parameters and of the result are left out. -/
structure FunctionDefinition.IsUntyped (definition : FunctionDefinition) : Prop where
  parameters : ∀ parameter ∈ definition.parameters, parameter.2 = .any
  returnType : definition.returnType = none

/-- The function `either(x, y) => let z = x; Out<bool>(z) or y`. -/
def FunctionDefinition.either : FunctionDefinition where
  name := "either"
  returnType := none
  parameters := [("x", .any), ("y", .any)]
  body := .binding "z" (.variable "x") .unlimited
    (.binary .or (.cast "bool" (.variable "z")) (.variable "y"))

namespace Environment

/-- Names that mean the same in two environments, where they are bound without a limit. The second
environment is a fixed one. -/
def Translation.unlimited (errors : EvaluationError → EvaluationError → Prop)
    (names : String → Prop) (fixed : Environment)
    (means : ∀ name, names name → ∃ value, fixed.find? name = some ⟨value, .unlimited⟩) :
    Translation errors where
  Alike first second := second = fixed ∧ ∀ name, names name → first.find? name = fixed.find? name
  names := names
  rename := id
  contains := by
    rintro first _ name ⟨rfl, same⟩ among
    unfold Environment.contains
    rw [id, same name among]
  bound _ _ changed := absurd rfl changed
  read := by
    rintro first _ name ⟨rfl, same⟩ among
    obtain ⟨value, bound⟩ := means name among
    rw [id, read_of_unlimited bound, read_of_unlimited ((same name among).trans bound)]
    exact ⟨.same _, rfl, same⟩

/-- Scopes that were opened for names that were bound, without limits, one after the other. -/
def Opens (opened : List Scope) (bound : List (String × Value)) : Prop :=
  ∀ name, opened.findSome? (fun scope => scope.get? name) =
    ((Dictionary.ofList bound).get? name).map fun value => .ofValue value .unlimited

theorem Opens.bind {opened : List Scope} {bound : List (String × Value)}
    (opens : Opens opened bound) (name : String) (value : Value) :
    Opens (bindingScope name value .unlimited :: opened) (bound ++ [(name, value)]) := by
  intro other
  rw [List.findSome?_cons, get?_bindingScope, Dictionary.get?_ofList_append]
  by_cases same : other = name
  · rw [if_pos same, if_pos same]
    rfl
  · rw [if_neg same, if_neg same]
    exact opens other

theorem Opens.unbound {opened : List Scope} {bound : List (String × Value)}
    (opens : Opens opened bound) {name : String} (other : name ∉ bound.map Prod.fst) :
    opened.findSome? (fun scope => scope.get? name) = none := by
  rw [← Dictionary.contains_ofList_iff, Dictionary.contains, Option.not_isSome_iff_eq_none] at other
  rw [opens name, other, Option.map_none]

/-- A name that was bound means the same inside the scopes and in the environment of the bindings
alone. -/
theorem Opens.find? {opened : List Scope} {bound : List (String × Value)}
    (opens : Opens opened bound) {name : String} (among : name ∈ bound.map Prod.fst)
    (outer : Environment) :
    ∃ value, (within opened outer).find? name = some ⟨value, .unlimited⟩ ∧
      (ofVariables (.ofList bound)).find? name = some ⟨value, .unlimited⟩ := by
  rw [← Dictionary.contains_ofList_iff, Dictionary.contains, Option.isSome_iff_exists] at among
  obtain ⟨value, means⟩ := among
  refine ⟨value, ?_, ?_⟩
  · rw [find?_within, opens name, means]
    rfl
  · unfold ofVariables Environment.find? scopes
    rw [List.nil_append, List.findSome?_singleton, Dictionary.get?_mapEntries, means]
    rfl

end Environment

variable {Memory : Type}

namespace Evaluation

/-! ### The call of an untyped function -/

variable {setting : NestedSetting Memory} {definition : FunctionDefinition}

/-- Arguments for parameters without types stay as they are. -/
theorem coerceArgumentsFrom_any {types : TypeRegistry} {function : String} {place : Nat}
    {parameters : List ValueType} {values : List Value} (untyped : ∀ type ∈ parameters, type = .any)
    (sameLength : parameters.length = values.length) :
    coerceArgumentsFrom types function place parameters values = .ok values := by
  induction parameters generalizing place values with
  | nil =>
    cases values with
    | nil => rfl
    | cons => cases sameLength
  | cons type rest inductionHypothesis =>
    cases values with
    | nil => cases sameLength
    | cons value later =>
      obtain ⟨rfl, others⟩ := List.forall_mem_cons.1 untyped
      have coerced := @inductionHypothesis (place + 1) later others (Nat.succ.inj sameLength)
      unfold coerceArgumentsFrom
      rw [coerced]
      rfl

/-- The call of an untyped function evaluates its body and gives the result as it is. -/
theorem callFunction_of_isUntyped (untyped : definition.IsUntyped) {values : List Value}
    (sameLength : definition.parameters.length = values.length) (depth : Nat)
    (body : Expression → Evaluation Memory Value) (name : String) :
    callFunction setting depth body name definition.toFunction none values =
      (do
        update fun machine => { machine with cacheable := machine.cacheable && true }
        update fun machine =>
          if setting.configuration.debugMode then machine.note (.called name values.length none)
          else machine
        atCallDepth depth (inEnvironment
          (parameterEnvironment (definition.parameters.map Prod.fst) values)
          (body definition.body))) := by
  have coerced : coerceArguments setting.types name definition.signature values = .ok values := by
    unfold coerceArguments FunctionDefinition.signature
    dsimp only
    rw [if_pos ((List.length_map _).trans sameLength)]
    refine coerceArgumentsFrom_any (fun type member => ?_) ((List.length_map _).trans sameLength)
    obtain ⟨parameter, among, rfl⟩ := List.mem_map.1 member
    exact untyped.parameters parameter among
  calc callFunction setting depth body name definition.toFunction none values
      = (do
          update fun machine => { machine with cacheable := machine.cacheable && true }
          Coupling.invokeTraced setting depth body name definition.toFunction none values) := by
        rw [Coupling.callFunction_eq, show coerceArguments setting.types name
          definition.toFunction.signature values = .ok values from coerced]
        rfl
    _ = _ := by
        rw [invokeTraced_toFunction untyped.returnType]
        simp only [Option.elim_none]
        rw [show (fun result => ofExcept (Except.ok result)) = (pure : _ → Evaluation Memory Value)
          from rfl, bind_pure]

end Evaluation

namespace Coupling

open Evaluation Environment

/-! ### The call and the `let`s -/

variable {setting : NestedSetting Memory}

variable {definition : FunctionDefinition} {opened : List Scope} {bound : List (String × Value)}
  {levels left : Nat}

/-- The body of a function, in the environment of its parameters, goes together with the body
inside the scopes of `let`s of the parameters. -/
theorem simulates_body (ignores : setting.IgnoresPlace) {body : Expression}
    (closed : ∀ name, body.HasFree name → name ∈ bound.map Prod.fst) (opens : Opens opened bound)
    (fewer : left ≤ levels) (depth : Nat) :
    (shallowerInside opened).Simulates 0
      (atCallDepth depth (inEnvironment (.ofVariables (.ofList bound))
        (evaluateWithin setting levels body)))
      (evaluateWithin setting left body) := by
  have carries := carries_shallower ignores
  refine ⟨fun machine machine' together => ?_, carries.keeps _⟩
  obtain ⟨inside, together⟩ := together
  let fixed : Translation fun _ _ => False :=
    .unlimited _ (· ∈ bound.map Prod.fst) (within opened machine.environment) fun name among =>
      (opens.find? among machine.environment).imp fun _ means => means.1
  have simulates := carries.evaluateWithin_of_unchanged fixed rfl fewer closed
  have entered : (shallower.translated fixed).together 0
      { machine with environment := .ofVariables (.ofList bound), callDepth := depth }
      machine' := by
    refine ⟨⟨inside, fun name among => ?_⟩, rfl, together.cacheable, together.engine⟩
    obtain ⟨value, means, same⟩ := opens.find? among machine.environment
    exact same.trans means.symm
  rcases simulates.1 _ _ entered with ⟨corresponds, ⟨unchanged, -⟩, after⟩ | parted
  · exact Or.inl ⟨corresponds, unchanged, rfl, after.cacheable, after.engine⟩
  · exact Or.inr parted

/-- What is done with the values of arguments goes together with the `let`s of the arguments around
a body, if it goes together with the body inside their scopes. The first of the parameters may be
bound already. -/
theorem simulates_letting (ignores : setting.IgnoresPlace)
    {run : List Value → Evaluation Memory Value} {body : Expression} {parameters : List String}
    (runs : ∀ {left opened bound}, bound.map Prod.fst = parameters → Opens opened bound →
      left ≤ levels → (shallowerInside opened).Simulates 0
        (run (bound.map Prod.snd)) (evaluateWithin setting left body))
    {rest : List (String × Expression)}
    (names : bound.map Prod.fst ++ rest.map Prod.fst = parameters)
    (apart : ∀ binding ∈ rest, ∀ name, binding.2.HasFree name → name ∉ parameters)
    (opens : Opens opened bound) (fewer : left ≤ levels) :
    (shallowerInside opened).Simulates 0
      (do
        run (bound.map Prod.snd ++
          (← each (evaluateWithin setting (levels + 1)) (rest.map Prod.snd))))
      (evaluateWithin setting left (.letting rest body)) := by
  induction rest generalizing left opened bound with
  | nil =>
    have all := runs ((List.append_nil _).symm.trans names) opens fewer
    rwa [← List.append_nil (bound.map Prod.snd)] at all
  | cons binding rest inductionHypothesis =>
    obtain ⟨name, argument⟩ := binding
    obtain ⟨notCaught, others⟩ := List.forall_mem_cons.1 apart
    cases left with
    | zero => exact simulates_shallowerInside_zero _ _
    | succ left =>
      have among : ∀ {known}, known ∈ bound.map Prod.fst → known ∈ parameters :=
        fun member => names ▸ List.mem_append_left _ member
      have value := simulates_shallowerInside ignores (show left ≤ levels + 1 by omega)
        fun free isFree => opens.unbound fun member => notCaught free isFree (among member)
      rw [evaluateWithin_succ]
      refine Simulates.before_visit ignoresPlace_shallowerInside ignores.noDeadline _ _ ?_
      have valueFirst : (do
          run (bound.map Prod.snd ++
            (← each (evaluateWithin setting (levels + 1))
              (((name, argument) :: rest).map Prod.snd)))) =
          (do
            let value ← evaluateWithin setting (levels + 1) argument
            run ((bound ++ [(name, value)]).map Prod.snd ++
              (← each (evaluateWithin setting (levels + 1)) (rest.map Prod.snd)))) := by
        simp [each]
      rw [valueFirst]
      refine value.bind fun value => ?_
      have names' : (bound ++ [(name, value)]).map Prod.fst ++ rest.map Prod.fst = parameters := by
        rw [← names, List.map_append, List.append_assoc]
        rfl
      exact (inductionHypothesis names' others (opens.bind name value)
        (show left ≤ levels by omega)).inside_binding

/-- The call of an untyped function with its arguments evaluated goes together with the body inside
the scopes of `let`s of the parameters. -/
theorem simulates_dispatch_inlined (ignores : setting.IgnoresPlace) {name : String}
    (found : setting.functions.get? name = some definition.toFunction)
    (allowed : setting.configuration.isFunctionAllowed name = true) (untyped : definition.IsUntyped)
    (closed : ∀ free, definition.body.HasFree free → free ∈ definition.parameters.map Prod.fst)
    (names : bound.map Prod.fst = definition.parameters.map Prod.fst) (opens : Opens opened bound)
    (fewer : left ≤ levels) (depth : Nat) :
    (shallowerInside opened).Simulates 0
      (dispatch setting depth (evaluateWithin setting levels) name none (bound.map Prod.snd))
      (evaluateWithin setting left definition.body) := by
  have sameLength : definition.parameters.length = (bound.map Prod.snd).length := by
    rw [List.length_map, ← List.length_map Prod.fst, ← names, List.length_map]
  have zipped : (definition.parameters.map Prod.fst).zip (bound.map Prod.snd) = bound := by
    rw [← names, List.zip_map', List.map_id']
  have body := simulates_body ignores (names ▸ closed) opens fewer depth
  unfold dispatch
  rw [allowed, found]
  dsimp only [Bool.not_true, Bool.false_eq_true, if_false]
  rw [callFunction_of_isUntyped untyped sameLength]
  unfold parameterEnvironment
  rw [zipped]
  refine Simulates.after_update (body.after_update (fun machine machine' together => ?_)
    fun _ _ _ parted => parted) (fun machine machine' together => ?_) fun _ _ _ parted => parted
  · split
    · exact ⟨together.1, { together.2 with engine := together.2.engine }⟩
    · exact together
  · have cacheable := (Bool.and_true _).trans together.2.cacheable
    exact ⟨together.1, { together.2 with cacheable }⟩

end Coupling

namespace Registries

open Evaluation Coupling FunctionDefinition

variable {registries : Registries Memory} {configuration : Configuration}

/-- A call of an untyped function means the body of the function with the parameters let-bound, in
every environment: both come to the same value or error, and leave the same environment and all
else but for the number of visits and the journal, unless one of them is too deep. -/
theorem evaluate_inlined (functions : registries.functions.IgnoresPlace)
    (noDeadline : configuration.timeout? = none) {name : String} {definition : FunctionDefinition}
    (found : registries.functions.get? name = some definition.toFunction)
    (allowed : configuration.isFunctionAllowed name = true) (untyped : definition.IsUntyped)
    (closed : ∀ free, definition.body.HasFree free → free ∈ definition.parameters.map Prod.fst)
    {arguments : List Expression} (sameLength : definition.parameters.length = arguments.length)
    (apart : ∀ argument ∈ arguments, ∀ free, argument.HasFree free →
      free ∉ definition.parameters.map Prod.fst)
    (begun reentries depth : Nat) (machine : Machine Memory) :
    let setting :=
      registries.setting begun (backThrough (registries.runWithin reentries)) configuration
    let called := evaluate setting depth (.call name none arguments) machine
    let inlined := evaluate setting depth
      (.letting ((definition.parameters.map Prod.fst).zip arguments) definition.body) machine
    (∀ limit, called.1 ≠ .error (.depthExceeded limit)) →
      (∀ limit, inlined.1 ≠ .error (.depthExceeded limit)) →
        inlined.1 = called.1 ∧ inlined.2.SameButPlace called.2 := by
  intro setting called inlined calledEnds inlinedEnds
  let within := setting.nested setting.nestings
  have ignores : within.IgnoresPlace :=
    (ignoresPlace_setting functions noDeadline begun reentries).nested _
  have sameLength' : (definition.parameters.map Prod.fst).length = arguments.length :=
    (List.length_map _).trans sameLength
  -- A call with two levels more is above the call and above the body.
  obtain ⟨levels, left⟩ : ∃ levels, setting.depthLimit + 1 - depth = levels := ⟨_, rfl⟩
  let above := evaluateWithin within (levels + 2) (.call name none arguments)
  have aboveCalled : shallower.Simulates 0 above
      (evaluateWithin within levels (.call name none arguments)) :=
    simulates_fewerLevels ignores (by omega) 0 _
  have aboveInlined : shallower.Simulates 0 above
      (evaluateWithin within levels
        (.letting ((definition.parameters.map Prod.fst).zip arguments) definition.body)) := by
    refine simulates_of_inside_nil ?_
    show Coupling.Simulates _ 0 (evaluateWithin within (levels + 2) _) _
    rw [evaluateWithin_succ, step_eq]
    refine Simulates.after_visit ignoresPlace_shallowerInside ignores.noDeadline
      (keeps_shallowerInside _) ?_
    have opens : Environment.Opens [] [] := fun _ => rfl
    have names : ([] : List (String × Value)).map Prod.fst ++
        ((definition.parameters.map Prod.fst).zip arguments).map Prod.fst =
          definition.parameters.map Prod.fst := List.map_fst_zip (Nat.le_of_eq sameLength')
    have letting := simulates_letting ignores
      (fun all opens fewer => simulates_dispatch_inlined ignores found allowed untyped closed all
        opens fewer (setting.depthLimit - (levels + 1) + 1))
      names (fun binding member => apart binding.2 (List.of_mem_zip member).2) opens
      (Nat.le_refl levels)
    rw [List.map_snd_zip (Nat.le_of_eq sameLength'.symm)] at letting
    exact letting
  subst left
  obtain ⟨sameCalled, afterCalled⟩ := aboveCalled.same_unless_tooDeep calledEnds
  obtain ⟨sameInlined, afterInlined⟩ := aboveInlined.same_unless_tooDeep inlinedEnds
  exact ⟨sameInlined.symm.trans sameCalled, afterInlined.symm.trans afterCalled⟩

/-- The call of a function with a variable of the caller and its negation, and the body with its
parameters let-bound to these. -/
theorem evaluate_inlined_either :
    let registries : Registries Unit := ⟨.empty, FunctionRegistry.empty.register either.toFunction,
      .empty, ⟨fun _ _ => .distant, 0⟩⟩
    let setting := registries.setting 0 (backThrough (registries.runWithin 1)) {}
    let machine := Machine.start (.ofVariables (.ofList [("flag", .boolean false)]))
      (.initial {} ())
    let flag : Expression := .variable "flag"
    let called := evaluate setting 0 (.call "either" none [flag, .unary .not flag]) machine
    let inlined := evaluate setting 0
      (.binding "x" flag .unlimited (.binding "y" (.unary .not flag) .unlimited either.body))
      machine
    called.1.toOption = some (.boolean true) ∧ inlined.1 = called.1 ∧
      inlined.2.SameButPlace called.2 ∧ called.2.visits = 10 ∧ inlined.2.visits = 11 := by
  intro registries setting machine flag called inlined
  have functions : registries.functions.IgnoresPlace :=
    FunctionRegistry.ignoresPlace_empty.register either
  have closed : ∀ free, either.body.HasFree free →
      free ∈ either.parameters.map Prod.fst := by
    intro free isFree
    have isX : free = "x" → free ∈ either.parameters.map Prod.fst := (· ▸ List.mem_cons_self)
    have isY : free = "y" → free ∈ either.parameters.map Prod.fst :=
      (· ▸ List.mem_cons_of_mem _ List.mem_cons_self)
    cases isFree with
    | part isPart isFree =>
      cases isPart with
      | value => exact isX isFree.eq_of_variable
    | body _ _ other isFree =>
      cases isFree with
      | part isPart isFree =>
        cases isPart with
        | left =>
          cases isFree with
          | part isPart isFree =>
            cases isPart with
            | inner => exact absurd isFree.eq_of_variable other
        | right => exact isY isFree.eq_of_variable
  have isFlag : ∀ argument ∈ [flag, .unary .not flag], ∀ free, argument.HasFree free →
      free = "flag" := by
    intro argument member free isFree
    simp only [List.mem_cons, List.not_mem_nil, or_false] at member
    rcases member with rfl | rfl
    · exact isFree.eq_of_variable
    · cases isFree with
      | part isPart isFree =>
        cases isPart with
        | operand => exact isFree.eq_of_variable
  have apart : ∀ argument ∈ [flag, .unary .not flag], ∀ free, argument.HasFree free →
      free ∉ either.parameters.map Prod.fst := by
    intro argument member free isFree
    rw [isFlag argument member free isFree]
    decide
  have result : called.1.toOption = some (.boolean true) := by decide +kernel
  have result' : inlined.1.toOption = some (.boolean true) := by decide +kernel
  have ends : ∀ {outcome : Except EvaluationError Value × Machine Unit},
      outcome.1.toOption = some (.boolean true) → ∀ limit,
        outcome.1 ≠ .error (.depthExceeded limit) := by
    intro outcome result limit tooDeep
    rw [tooDeep] at result
    cases result
  have found : registries.functions.get? "either" = some either.toFunction := rfl
  have allowed : ({} : Configuration).isFunctionAllowed "either" = true := rfl
  have untyped : either.IsUntyped := ⟨by decide, rfl⟩
  have same := evaluate_inlined functions rfl found allowed untyped closed rfl apart 0 1 0 machine
    (ends result) (ends result')
  exact ⟨result, same.1, same.2, by decide +kernel, by decide +kernel⟩

end Registries

end Reckon
