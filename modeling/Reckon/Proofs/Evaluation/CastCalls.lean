/-
This file compares the cast of a call with the cast of its result, bound to a
name. A call in a cast has the type of the cast for its hint, and a function
written in the language casts its result into the type of the hint itself. So a
call in a cast is cast twice, and the result that is bound only once.

The second cast makes no difference where a type is built in or unknown, or where
its resolver gives what it gives again. With other resolvers the cast of the call
is the cast of what the bound result was cast into.
-/

import Reckon.Proofs.Evaluation.Deeper

namespace Reckon

/-! ### Casting twice -/

/-- What a value was coerced into is coerced into itself. -/
theorem ValueType.coerce_of_coerce {type : ValueType} {value result : Value}
    (coerced : type.coerce value = .ok result) : type.coerce result = .ok result := by
  have wrapped : ∀ {Amount : Type} {found : Option Amount} {refusal : CastError}
      {wrap : Amount → Value},
      found.elim (Except.error refusal) (fun amount => Except.ok (wrap amount)) = .ok result →
        ∃ amount, result = wrap amount := by
    intro Amount found refusal wrap given
    cases found with
    | none => cases given
    | some amount => exact ⟨amount, (Except.ok.inj given).symm⟩
  cases type with
  | any => rfl
  | number =>
    obtain ⟨amount, rfl⟩ := wrapped coerced
    rfl
  | integer =>
    obtain ⟨amount, rfl⟩ := wrapped coerced
    rfl
  | text =>
    cases coerced
    rfl
  | boolean =>
    obtain ⟨truth, rfl⟩ := wrapped coerced
    rfl
  | named name =>
    have unchanged : result = value := by
      unfold coerce at coerced
      dsimp only at coerced
      split at coerced
      · split at coerced
        · exact (Except.ok.inj coerced).symm
        · cases coerced
      · cases coerced
    rw [unchanged] at coerced ⊢
    exact coerced

namespace TypeRegistry

variable {types : TypeRegistry} {typeName : String}

/-- Whether one cast into a type is enough: where a resolver decides, it gives members of the type,
or what it gives again for the text of what it gave. -/
def Settles (types : TypeRegistry) (typeName : String) : Prop :=
  ∀ domain resolver, ValueType.ofName typeName = .named domain →
    types.get? .variable domain = some resolver → ∀ raw value, resolver.resolve raw = some value →
      isMember domain value = true ∨ resolver.resolve (rawText value) = some value

/-- Where one cast is enough, a second one changes nothing. -/
theorem coerceTo_of_settles (settles : types.Settles typeName) {value result : Value}
    (coerced : types.coerceTo value typeName = .ok result) :
    types.coerceTo result typeName = .ok result := by
  have builtIn : ∀ {type : ValueType}, (type.coerce value).mapError EvaluationError.cast =
      .ok result → (type.coerce result).mapError EvaluationError.cast = .ok result := by
    intro type given
    cases outcome : type.coerce value with
    | error cause =>
      rw [outcome] at given
      cases given
    | ok other =>
      rw [outcome] at given
      cases given
      rw [ValueType.coerce_of_coerce outcome]
      rfl
  unfold coerceTo coerce at coerced ⊢
  cases type : ValueType.ofName typeName with
  | named domain =>
    rw [type] at coerced
    dsimp only at coerced ⊢
    split at coerced
    next member =>
      cases coerced
      rw [if_pos member]
    · unfold coerceNamed at coerced ⊢
      cases known : types.get? .variable domain with
      | none =>
        rw [known] at coerced
        cases coerced
      | some resolver =>
        rw [known] at coerced
        dsimp only at coerced ⊢
        cases resolved : resolver.resolve (rawText value) with
        | none =>
          rw [resolved] at coerced
          cases coerced
        | some given =>
          rw [resolved] at coerced
          cases coerced
          rcases settles domain resolver type known _ result resolved with member | again
          · rw [if_pos member]
          · rw [again]
            exact ite_self _
  | _ =>
    rw [type] at coerced
    exact builtIn coerced

/-- One cast into an enumeration is enough. -/
theorem settles_of_enumeration {domain own : String} {members : List String}
    (named : ValueType.ofName typeName = .named domain)
    (known : types.get? .variable domain = some (.enumeration own members))
    (same : sameIgnoringCase own domain = true) : types.Settles typeName := by
  intro domain' resolver named' known' raw value resolved
  cases named.symm.trans named'
  cases known.symm.trans known'
  obtain ⟨member, -, rfl⟩ := Option.map_eq_some_iff.1 resolved
  exact Or.inl same

end TypeRegistry

/-! ### What a cast gives -/

variable {Memory Result Other : Type}

namespace Evaluation

/-- A computation that gives results of a kind only. -/
def Gives (action : Evaluation Memory Result) (results : Result → Prop) : Prop :=
  ∀ machine result, (action machine).1 = .ok result → results result

theorem Gives.bind {action : Evaluation Memory Result} {next : Result → Evaluation Memory Other}
    {results : Other → Prop} (gives : ∀ result, (next result).Gives results) :
    (action >>= next).Gives results := by
  intro machine result ended
  change (andThen action next machine).1 = _ at ended
  unfold andThen at ended
  rcases outcome : action machine with ⟨error | middle, between⟩
  · rw [outcome] at ended
    cases ended
  · rw [outcome] at ended
    exact gives middle between result ended

variable {setting : NestedSetting Memory}

/-- A cast gives what some value is coerced into. -/
theorem gives_cast (levels : Nat) (typeName : String) (inner : Expression) :
    (evaluateWithin setting levels (.cast typeName inner)).Gives fun result =>
      ∃ value, setting.types.coerceTo value typeName = .ok result := by
  cases levels with
  | zero => exact fun _ _ ended => nomatch ended
  | succ levels =>
    rw [evaluateWithin_succ]
    exact .bind fun _ => .bind fun value machine result coerced => ⟨value, coerced⟩

/-- A `let` gives what its body gives. -/
theorem gives_binding {results : Value → Prop} (name : String) (value : Expression)
    (uses : UseLimit) {body : Expression}
    (gives : ∀ levels, (evaluateWithin setting levels body).Gives results) (levels : Nat) :
    (evaluateWithin setting levels (.binding name value uses body)).Gives results := by
  cases levels with
  | zero => exact fun _ _ ended => nomatch ended
  | succ levels =>
    rw [evaluateWithin_succ]
    exact .bind fun _ => .bind fun bound machine result ended => gives levels _ result ended

/-- A change of the result at the end changes the result and nothing else. -/
theorem bind_ofExcept_apply (action : Evaluation Memory Result)
    (change : Result → Except EvaluationError Other) (machine : Machine Memory) :
    (do
        let result ← action
        ofExcept (change result)) machine =
      ((action machine).1.bind change, (action machine).2) := by
  show andThen action (fun result => ofExcept (change result)) machine = _
  unfold andThen
  rcases action machine with ⟨error | result, after⟩ <;> rfl

end Evaluation

/-! ### The cast of a call -/

namespace Coupling

open Evaluation Environment

variable {setting : NestedSetting Memory} {level : Nat}

theorem contains_of_inside_binding {name : String} {value : Value}
    {machine machine' : Machine Memory} (together :
      (shallowerInside [bindingScope name value .unlimited]).together level machine machine') :
    machine'.environment.contains name = true := by
  rw [show machine'.environment = within _ machine.environment from together.1,
    contains_bindingScope, decide_eq_true rfl, Bool.true_or]

/-- The value of a binding without a limit goes together with the reading of its name. -/
theorem simulates_read_bound {name : String}
    (allowed : setting.configuration.isVariableAllowed name = true) (value : Value) :
    (shallowerInside [bindingScope name value .unlimited]).Simulates 0 (pure value)
      (readVariable setting.toSetting name) := by
  refine ⟨fun machine machine' together => Or.inl ?_, keeps_shallowerInside _⟩
  have reads : machine'.environment.read name = (.ok value, machine'.environment) := by
    rw [show machine'.environment = within _ machine.environment from together.1,
      read_bindingScope_self]
    rfl
  unfold readVariable
  rw [allowed, contains_of_inside_binding together, reads]
  exact ⟨.same _, together⟩

/-- A value that is cast goes together with the cast of a name that it is bound to. -/
theorem simulates_cast_bound (ignores : setting.IgnoresPlace) {bound : String}
    (allowed : setting.configuration.isVariableAllowed bound = true) (typeName : String)
    (value : Value) (left : Nat) :
    (shallowerInside []).Simulates level (ofExcept (setting.types.coerceTo value typeName))
      (inScope do
        update fun machine =>
          { machine with environment := machine.environment.define bound value .unlimited }
        evaluateWithin setting left (.cast typeName (.variable bound))) := by
  refine Simulates.inside_binding ?_
  have reads : ∀ left, (shallowerInside [bindingScope bound value .unlimited]).Simulates 0
      (pure value) (evaluateWithin setting left (.variable bound)) := by
    intro left
    cases left with
    | zero => exact simulates_shallowerInside_zero _ _
    | succ left =>
      rw [evaluateWithin_succ]
      exact (simulates_read_bound allowed value).before_visit ignoresPlace_shallowerInside
        ignores.noDeadline _ _
  cases left with
  | zero => exact simulates_shallowerInside_zero _ _
  | succ left =>
    rw [evaluateWithin_succ, step_eq]
    refine Simulates.before_visit ignoresPlace_shallowerInside ignores.noDeadline _ _ ?_
    show (shallowerInside _).Simulates 0
      (do
        let value ← pure value
        ofExcept (setting.types.coerceTo value typeName))
      (do
        let value ← castOperandWith _ (evaluateWithin setting left) typeName (.variable bound)
        ofExcept (setting.types.coerceTo value typeName))
    refine Simulates.bind ?_ fun value => simulates_ofExcept _
    unfold castOperandWith
    cases ValueType.ofName typeName with
    | named domain =>
      -- A domain type looks whether the name is bound.
      refine ⟨fun machine machine' together => ?_, keeps_shallowerInside _⟩
      show (shallowerInside _).Agree 0 _
        ((if machine'.environment.contains bound then evaluateWithin setting left (.variable bound)
          else pure (.text bound)) machine')
      rw [contains_of_inside_binding together]
      exact (reads left).1 machine machine' together
    | _ => exact reads left

variable {body body' : Expression → Evaluation Memory Value} {definition : FunctionDefinition}

/-- A call with a hint, of a function defined without a type of its result, goes together with the
call without a hint and a cast of what it comes to. -/
theorem simulates_dispatch_hint {name : String}
    (found : setting.functions.get? name = some definition.toFunction)
    (returnType : definition.returnType = none)
    (bodies : ∀ expression, shallower.Simulates level (body expression) (body' expression))
    {typeName : String} {cast : Value → Evaluation Memory Value}
    (casts : ∀ value, shallower.Simulates level
      (ofExcept (setting.types.coerceTo value typeName)) (cast value))
    (depth depth' : Nat) (values : List Value) :
    shallower.Simulates level (dispatch setting depth body name (some typeName) values)
      (do
        let value ← dispatch setting depth' body' name none values
        cast value) := by
  unfold dispatch
  split
  · exact simulates_fail _
  · rw [found]
    dsimp only
    rw [callFunction_eq, callFunction_eq]
    simp only [bind_assoc]
    refine (simulates_ofExcept _).bind fun arguments => ?_
    refine Simulates.bind (simulates_update
      (fun _ _ together => encloses_placeless.forbid _ together) fun _ _ _ parted => parted)
      fun _ => ?_
    show shallower.Simulates level
      (invokeTraced setting depth body name definition.toFunction (some typeName) arguments)
      (do
        let value ← invokeTraced setting depth' body' name definition.toFunction none arguments
        cast value)
    rw [invokeTraced_toFunction returnType, invokeTraced_toFunction returnType]
    simp only [bind_assoc]
    refine Simulates.bind (simulates_update (fun machine machine' together => ?_)
      fun _ _ _ parted => parted) fun _ => ?_
    · split
      · exact { together with engine := together.engine }
      · exact together
    · refine Simulates.bind ?_ casts
      have inside : shallower.Simulates level
          (inEnvironment (parameterEnvironment (definition.parameters.map Prod.fst) arguments)
            (body definition.body))
          (inEnvironment (parameterEnvironment (definition.parameters.map Prod.fst) arguments)
            (body' definition.body)) := by
        rw [inEnvironment_eq_bracketed, inEnvironment_eq_bracketed]
        exact (bodies definition.body).bracketed
          (fun _ _ together => { together with environment := rfl })
          fun _ _ _ _ before after => { after with environment := before.environment }
      rw [atCallDepth_eq_bracketed, atCallDepth_eq_bracketed]
      exact inside.bracketed (fun _ _ together => { together with engine := together.engine })
        fun _ _ _ _ _ after => { after with engine := after.engine }

/-- The cast of a call, before it is cast itself, goes together with the `let` of the call whose
name is cast. -/
theorem simulates_cast_call (ignores : setting.IgnoresPlace) {name bound : String}
    (found : setting.functions.get? name = some definition.toFunction)
    (returnType : definition.returnType = none)
    (allowed : setting.configuration.isVariableAllowed bound = true) (arguments : List Expression)
    (typeName : String) (levels : Nat) :
    shallower.Simulates 0
      (castOperandWith
        (dispatch setting (setting.depthLimit - levels + 1) (bodyWithin setting levels))
        (evaluateWithin setting levels) typeName (.call name none arguments))
      (step setting (setting.depthLimit - levels + 1) (evaluateWithin setting levels)
        (bodyWithin setting levels)
        (.binding bound (.call name none arguments) .unlimited
          (.cast typeName (.variable bound)))) := by
  cases levels with
  | zero => exact ⟨fun _ _ _ => Or.inr ⟨trivial, _, rfl⟩, quiet_placeless.keeps _⟩
  | succ levels =>
    have bodies : ∀ expression, shallower.Simulates 0 (bodyWithin setting (levels + 1) expression)
        (bodyWithin setting levels expression) := by
      intro expression
      rw [bodyWithin_eq, bodyWithin_eq]
      exact simulates_fewerLevels ignores (by omega) 0 expression
    show shallower.Simulates 0
      (do
        let values ← each (evaluateWithin setting (levels + 1)) arguments
        dispatch setting _ (bodyWithin setting (levels + 1)) name (some typeName) values)
      (do
        let value ← evaluateWithin setting (levels + 1) (.call name none arguments)
        inScope do
          update fun machine =>
            { machine with environment := machine.environment.define bound value .unlimited }
          evaluateWithin setting (levels + 1) (.cast typeName (.variable bound)))
    have called : evaluateWithin setting (levels + 1) (.call name none arguments) =
        (do
          visit setting (setting.depthLimit - levels) (.call name none arguments)
          let values ← each (evaluateWithin setting levels) arguments
          dispatch setting (setting.depthLimit - levels + 1) (bodyWithin setting levels) name none
            values) := by
      rw [evaluateWithin_succ, step_eq]
      rfl
    rw [called]
    simp only [bind_assoc]
    refine Simulates.before_visit ignoresPlace_placeless ignores.noDeadline _ _ ?_
    refine (simulates_each arguments fun argument _ =>
      simulates_fewerLevels ignores (by omega) 0 argument).bind fun values => ?_
    exact simulates_dispatch_hint found returnType bodies (fun value =>
      simulates_of_inside_nil (simulates_cast_bound ignores allowed typeName value _)) _ _ values

/-- The cast of a call casts what the cast of the bound result comes to once more. -/
theorem evaluateWithin_cast_call (ignores : setting.IgnoresPlace) {name bound : String}
    (found : setting.functions.get? name = some definition.toFunction)
    (returnType : definition.returnType = none)
    (allowed : setting.configuration.isVariableAllowed bound = true) (arguments : List Expression)
    (typeName : String) (levels : Nat) (machine : Machine Memory)
    (notTooDeep : ∀ limit,
      (evaluateWithin setting levels (.binding bound (.call name none arguments) .unlimited
        (.cast typeName (.variable bound))) machine).1 ≠ .error (.depthExceeded limit)) :
    let cast := evaluateWithin setting levels (.cast typeName (.call name none arguments)) machine
    let plain := evaluateWithin setting levels (.binding bound (.call name none arguments) .unlimited
      (.cast typeName (.variable bound))) machine
    cast.1 = plain.1.bind (setting.types.coerceTo · typeName) ∧ cast.2.SameButPlace plain.2 := by
  cases levels with
  | zero => exact absurd rfl (notTooDeep setting.depthLimit)
  | succ levels =>
    -- The two runs are compared up to the last cast of the one.
    let once : Evaluation Memory Value := do
      visit setting (setting.depthLimit - levels) (.cast typeName (.call name none arguments))
      castOperandWith
        (dispatch setting (setting.depthLimit - levels + 1) (bodyWithin setting levels))
        (evaluateWithin setting levels) typeName (.call name none arguments)
    have castOnceMore : evaluateWithin setting (levels + 1)
        (.cast typeName (.call name none arguments)) =
          (do
            let value ← once
            ofExcept (setting.types.coerceTo value typeName)) := by
      rw [evaluateWithin_succ, step_eq, bind_assoc]
      rfl
    have simulates : shallower.Simulates 0 once (evaluateWithin setting (levels + 1)
        (.binding bound (.call name none arguments) .unlimited
          (.cast typeName (.variable bound)))) := by
      rw [evaluateWithin_succ]
      exact (simulates_visit_placeless ignores.noDeadline _ _ _ _).bind fun _ =>
        simulates_cast_call ignores found returnType allowed arguments typeName levels
    obtain ⟨same, after⟩ := simulates.same_unless_tooDeep notTooDeep
    have cast := (congrFun castOnceMore machine).trans (bind_ofExcept_apply once _ machine)
    dsimp only
    rw [cast]
    exact ⟨congrArg (Except.bind · _) same, after⟩

end Coupling

/-- The function `same(x) => x`. -/
def FunctionDefinition.same : FunctionDefinition where
  name := "same"
  returnType := none
  parameters := [("x", .any)]
  body := .variable "x"

/-- A resolver that takes the letter `a` off the front of a text. -/
def Resolver.shortening : Resolver where
  resolve raw :=
    match raw.toList with
    | 'a' :: rest => some (.text (String.ofList rest))
    | _ => none

namespace Registries

open Evaluation Coupling

variable {registries : Registries Memory} {configuration : Configuration}

/-- The cast of a call, of a function defined without a type of its result, casts what the cast of
the bound result comes to once more. Where one cast is enough, the two come to the same. They leave
the same environment and all else but for the number of visits and the journal, unless the `let` is
too deep. -/
theorem evaluate_cast_call (functions : registries.functions.IgnoresPlace)
    (noDeadline : configuration.timeout? = none) {name : String} {definition : FunctionDefinition}
    (found : registries.functions.get? name = some definition.toFunction)
    (returnType : definition.returnType = none) {bound : String}
    (allowed : configuration.isVariableAllowed bound = true) (arguments : List Expression)
    (typeName : String) (begun reentries depth : Nat) (machine : Machine Memory) :
    let setting :=
      registries.setting begun (backThrough (registries.runWithin reentries)) configuration
    let call : Expression := .call name none arguments
    let cast := evaluate setting depth (.cast typeName call) machine
    let plain := evaluate setting depth
      (.binding bound call .unlimited (.cast typeName (.variable bound))) machine
    (∀ limit, plain.1 ≠ .error (.depthExceeded limit)) →
      cast.1 = plain.1.bind (registries.types.coerceTo · typeName) ∧
        (registries.types.Settles typeName → cast.1 = plain.1) ∧
        cast.2.SameButPlace plain.2 := by
  intro setting call cast plain notTooDeep
  have ignores : setting.IgnoresPlace := ignoresPlace_setting functions noDeadline begun reentries
  obtain ⟨again, after⟩ := evaluateWithin_cast_call (ignores.nested setting.nestings) found
    returnType allowed arguments typeName (setting.depthLimit + 1 - depth) machine notTooDeep
  refine ⟨again, fun settles => again.trans ?_, after⟩
  show plain.1.bind _ = plain.1
  cases ended : plain.1 with
  | error error => rfl
  | ok result =>
    obtain ⟨value, coerced⟩ := gives_binding bound call .unlimited
      (fun levels => gives_cast levels typeName (.variable bound)) _ machine result ended
    exact TypeRegistry.coerceTo_of_settles settles coerced

/-- One cast into an enumeration of the host is enough. -/
theorem evaluate_cast_call_enumeration :
    let types := TypeRegistry.empty.register .variable "Colour"
      (.enumeration "Colour" ["RED", "GREEN"])
    let registries : Registries Unit :=
      ⟨.empty, FunctionRegistry.empty.register FunctionDefinition.same.toFunction, types,
        ⟨fun _ _ => .distant, 0⟩⟩
    let setting := registries.setting 0 (backThrough (registries.runWithin 1)) {}
    let machine := Machine.start .empty (.initial {} ())
    let call : Expression := .call "same" none [.text "red"]
    let cast := evaluate setting 0 (.cast "colour" call) machine
    let plain := evaluate setting 0
      (.binding "r" call .unlimited (.cast "colour" (.variable "r"))) machine
    cast.1.toOption = some (.domain ⟨"Colour", "RED"⟩) ∧ types.Settles "colour" ∧
      cast.1 = plain.1 ∧ cast.2.SameButPlace plain.2 := by
  intro types registries setting machine call cast plain
  have functions : registries.functions.IgnoresPlace :=
    FunctionRegistry.ignoresPlace_empty.register .same
  have found : registries.functions.get? "same" = some FunctionDefinition.same.toFunction := rfl
  have allowed : ({} : Configuration).isVariableAllowed "r" = true := rfl
  have named : ValueType.ofName "colour" = .named "colour" := by decide +kernel
  have known : types.get? .variable "colour" = some (.enumeration "Colour" ["RED", "GREEN"]) := rfl
  have settles : types.Settles "colour" :=
    TypeRegistry.settles_of_enumeration named known (by decide +kernel)
  have result : cast.1.toOption = some (.domain ⟨"Colour", "RED"⟩) := by decide +kernel
  have result' : plain.1.toOption = some (.domain ⟨"Colour", "RED"⟩) := by decide +kernel
  have same := evaluate_cast_call functions rfl found rfl allowed [.text "red"] "colour" 0 1 0
    machine fun limit tooDeep => by
      have none : plain.1.toOption = none := congrArg _ tooDeep
      cases result'.symm.trans none
  exact ⟨result, settles, same.2.1 settles, same.2.2⟩

/-- A resolver that takes one letter off is asked twice for the cast of a call, and once for the
cast of the bound result. -/
theorem evaluate_cast_call_differs :
    let types := TypeRegistry.empty.register .variable "T" .shortening
    let registries : Registries Unit :=
      ⟨.empty, FunctionRegistry.empty.register FunctionDefinition.same.toFunction, types,
        ⟨fun _ _ => .distant, 0⟩⟩
    let setting := registries.setting 0 (backThrough (registries.runWithin 1)) {}
    let machine := Machine.start .empty (.initial {} ())
    let call : Expression := .call "same" none [.text "aab"]
    let cast := evaluate setting 0 (.cast "T" call) machine
    let plain := evaluate setting 0
      (.binding "r" call .unlimited (.cast "T" (.variable "r"))) machine
    registries.functions.IgnoresPlace ∧ FunctionDefinition.same.returnType = none ∧
      ({} : Configuration).timeout? = none ∧
      ({} : Configuration).isVariableAllowed "r" = true ∧
      cast.1.toOption = some (.text "b") ∧ plain.1.toOption = some (.text "ab") :=
  ⟨FunctionRegistry.ignoresPlace_empty.register .same, rfl, rfl, rfl, by decide +kernel,
    by decide +kernel⟩

end Registries

end Reckon
