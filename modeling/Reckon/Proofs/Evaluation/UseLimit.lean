/-
This file shows that use limits are exact. The evaluation of a binding without
a limit is watched: whenever it is about to read the binding, the machine of
the moment is written down in an extension of the host memory. If the moments
are no more than a limit allows, the evaluation with the limit comes to the
same; otherwise it ends at the first moment that the limit does not allow.

Only the names in the body of the binding can mean it. A name in the body of a
function that is called there means a parameter, or nothing.
-/

import Reckon.Proofs.Evaluation.Calls
import Reckon.Proofs.Evaluation.Extended
import Reckon.Proofs.Evaluation.Scopes

namespace Reckon

variable {Memory : Type}

/-! ### The watched evaluation -/

/-- The machines at the reads of a binding, the earliest first. -/
abbrev Moments (Memory : Type) := List (Machine Memory)

namespace Machine

/-- A machine under watch, with no moment written down. -/
def watched (machine : Machine Memory) : Machine (Moments Memory × Memory) :=
  { machine with engine := machine.engine.extend [] }

/-- The machines at the reads of the binding so far. -/
def moments (machine : Machine (Moments Memory × Memory)) : Moments Memory :=
  machine.engine.memory.1

/-- The machine with itself written down. -/
def remember (machine : Machine (Moments Memory × Memory)) :
    Machine (Moments Memory × Memory) :=
  { machine with
    engine := { machine.engine with
      memory := (machine.moments ++ [machine.forget], machine.engine.memory.2) } }

end Machine

namespace Evaluation

/-- Whether a node is about to read the binding that a name has in the scope at a height. -/
def isReadOf (setting : Setting Memory) (name : String) (height : Nat) (read : String)
    (machine : Machine (Moments Memory × Memory)) : Bool :=
  read == name && setting.configuration.isVariableAllowed name &&
    machine.environment.isBoundAt height name

/-- Writes down the moment at which a node is about to read a binding. -/
def watch (setting : Setting Memory) (name : String) (height : Nat) :
    Expression → Evaluation (Moments Memory × Memory) Unit
  | .variable read => update fun machine =>
    if isReadOf setting name height read machine then machine.remember else machine
  | _ => pure ()

/-- Evaluates an expression and watches the reads of a binding. -/
def watchWithin (setting : NestedSetting Memory) (name : String) (height : Nat) :
    Nat → Expression → Evaluation (Moments Memory × Memory) Value
  | 0, _ => fail (.depthExceeded setting.depthLimit)
  | levels + 1, expression => do
    let depth := setting.depthLimit - levels
    visit setting.toSetting.extended depth expression
    watch setting.toSetting name height expression
    step setting.extended (depth + 1) (watchWithin setting name height levels)
      (bodyWithin setting.extended levels) expression

/-- Evaluates a binding without a limit at a depth and watches its reads. -/
def watchBinding (setting : Setting Memory) (depth : Nat) (name : String)
    (value body : Expression) : Evaluation (Moments Memory × Memory) Value :=
  match setting.depthLimit + 1 - depth with
  | 0 => fail (.depthExceeded setting.depthLimit)
  | levels + 1 => do
    visit setting.extended (setting.depthLimit - levels) (.binding name value .unlimited body)
    let bound ← evaluateWithin (setting.nested setting.nestings).extended levels value
    let height ← inspect fun machine => machine.environment.inner.length
    inScope do
      update fun machine =>
        { machine with environment := machine.environment.define name bound .unlimited }
      watchWithin (setting.nested setting.nestings) name height levels body

theorem watch_of_other (setting : Setting Memory) (name : String) (height : Nat)
    {expression : Expression} (other : ∀ read, expression ≠ .variable read) :
    watch setting name height expression = pure () := by
  cases expression with
  | «variable» read => exact absurd rfl (other read)
  | _ => rfl

end Evaluation

namespace Coupling

open Evaluation

variable {coupling : Coupling (Moments Memory × Memory) Memory} {setting : NestedSetting Memory}
  {name : String} {height level : Nat}

/-- Settings with and without the extension make evaluations come out alike. -/
theorem settingsAlike_watched {likeness : Environment.Likeness} {allowed : Moments Memory → Prop}
    (setting : NestedSetting Memory) :
    SettingsAlike likeness (EngineState.Extends allowed) False setting.extended setting :=
  settingsAlike_extended setting.toSetting fun depth tree =>
    simulates_extended (setting.interpret depth tree)

theorem simulates_bodyWithin {likeness : Environment.Likeness} {allowed : Moments Memory → Prop}
    (levels : Nat) (expression : Expression) :
    (alike likeness (EngineState.Extends allowed) False).Simulates level
      (bodyWithin setting.extended levels expression) (bodyWithin setting levels expression) := by
  cases levels with
  | zero => exact simulates_fail _
  | succ deeper =>
    exact evaluateWithin_alike (EngineState.survivesNotes_extends allowed)
      (settingsAlike_watched setting) deeper expression

/-- A watched evaluation goes together with a plain one if the reads of variables and the calls
do. -/
theorem simulates_watchWithin (fits : coupling.Fits setting.extended setting)
    (sees : ∀ name, coupling.SeesAlike name)
    (reads : ∀ level read, coupling.Simulates level
      (do
        watch setting.toSetting name height (.variable read)
        readVariable setting.toSetting.extended read)
      (readVariable setting.toSetting read))
    (calls : ∀ depth levels, coupling.CallsAlike setting.extended setting depth
      (bodyWithin setting.extended levels) (bodyWithin setting levels))
    (levels level : Nat) (expression : Expression) :
    coupling.Simulates level (watchWithin setting name height levels expression)
      (evaluateWithin setting levels expression) := by
  induction levels generalizing level expression with
  | zero => exact simulates_fail _
  | succ levels inductionHypothesis =>
    rw [evaluateWithin_succ]
    refine (fits.records.visit fits.configuration fits.deadline _ rfl).bind fun _ => ?_
    by_cases isVariable : ∃ read, expression = .variable read
    · obtain ⟨read, rfl⟩ := isVariable
      exact reads level read
    · have other : ∀ read, expression ≠ .variable read := fun read is => isVariable ⟨read, is⟩
      rw [watch_of_other setting.toSetting name height other]
      exact simulates_step fits (calls _ levels) level expression
        (fun level part _ => inductionHypothesis level part) (fun name _ => sees name)
        fun read is => absurd is (other read)

/-! ### The watched evaluation and the one without a limit -/

theorem callFunction_extended {likeness : Environment.Likeness} {allowed : Moments Memory → Prop}
    (setting : NestedSetting Memory) (levels depth : Nat) (name : String)
    (function : RegisteredFunction Memory) (hint : Option String) (values : List Value) :
    (alike likeness (EngineState.Extends allowed) False).Simulates level
      (callFunction setting.extended depth (bodyWithin setting.extended levels) name
        function.extended hint values)
      (callFunction setting depth (bodyWithin setting levels) name function hint values) :=
  callFunction_alike (EngineState.survivesNotes_extends allowed) rfl rfl
    (functionsAlike_extended (answersAlike_extended setting.toSetting fun depth tree =>
      simulates_extended (setting.interpret depth tree)) function)
    (fun _ expression => simulates_bodyWithin levels expression) depth name hint values

/-- The watch makes no difference to an evaluation. -/
theorem simulates_watchWithin_forget (levels : Nat) (expression : Expression) :
    (alike .identity (EngineState.Extends fun _ => True) False).Simulates level
      (watchWithin setting name height levels expression)
      (evaluateWithin setting levels expression) := by
  refine simulates_watchWithin
    (fits_alike (EngineState.survivesNotes_extends _) rfl rfl rfl rfl) sees_alike
    (fun level read => ?_)
    (fun depth levels => callsAlike_extended (get?_extended setting.toSetting)
      fun other function _ level hint values =>
        callFunction_extended setting levels depth other function hint values)
    levels level expression
  have sameConfiguration : setting.configuration =
      (setting.toSetting.extended : Setting (Moments Memory × Memory)).configuration := rfl
  have reads : Simulates (alike .identity (EngineState.Extends fun _ => True) False) level
      (readVariable setting.toSetting.extended read) (readVariable setting.toSetting read) :=
    readVariable_alike sameConfiguration read
  refine reads.after_update (fun machine machine' together => ?_) fun _ _ _ parted =>
    parted.1.elim
  split
  · exact { together with engine := ⟨together.engine.forget, trivial⟩ }
  · exact together

/-! ### The watched evaluation and the one with a limit -/

/-- While a limit is not exceeded, the machines of the watched evaluation and of the one with the
limit differ in the binding alone: its limit allows as many more reads as are missing. -/
structure Counting (name : String) (bound : Value) (count height level : Nat)
    (machine : Machine (Moments Memory × Memory)) (machine' : Machine Memory) : Prop where
  environments : ∃ opened outer, opened.length = level ∧ outer.inner.length = height ∧
    machine.environment = .holding opened name bound .unlimited outer ∧
    machine'.environment =
      .holding opened name bound (.limited count (count - machine.moments.length)) outer
  within : machine.moments.length ≤ count
  visits : machine.visits = machine'.visits
  callDepth : machine.callDepth = machine'.callDepth
  cacheable : machine.cacheable = machine'.cacheable
  engine : machine.engine.forget = machine'.engine

/-- The evaluation with the limit has ended at a moment that the watched one has written down:
the first that the limit does not allow. -/
structure Exceeded (name : String) (count : Nat)
    (machine : Machine (Moments Memory × Memory)) (failure : Option EvaluationError)
    (machine' : Machine Memory) : Prop where
  failure : failure = some (.usesExceeded name count)
  moment : ∃ moment, machine.moments[count]? = some moment ∧ machine'.visits = moment.visits ∧
    machine'.cacheable = moment.cacheable ∧ machine'.engine = moment.engine

/-- The coupling that counts the reads of a binding. -/
def counting (name : String) (bound : Value) (count height : Nat) :
    Coupling (Moments Memory × Memory) Memory where
  together := Counting name bound count height
  parted := Exceeded name count
  parted_restore _ _ _ _ parted := ⟨parted.failure, parted.moment⟩
  parted_onward parted := by cases parted.failure

variable {bound : Value} {count : Nat}

theorem records_counting :
    (counting name bound count height : Coupling (Moments Memory × Memory) Memory).Records where
  visits together := together.visits
  count together := { together with visits := congrArg (· + 1) together.visits }
  note event together :=
    { together with engine := congrArg (EngineState.note · event) together.engine }
  keepsCount parted := ⟨parted.failure, parted.moment⟩
  keepsNote _ parted := ⟨parted.failure, parted.moment⟩

theorem fits_counting (setting : NestedSetting Memory) :
    (counting name bound count height).Fits setting.extended setting where
  configuration := rfl
  operations := rfl
  types := rfl
  deadline := rfl
  records := records_counting
  bind level inner value uses machine machine' together := by
    obtain ⟨opened, outer, length, around, environment, environment'⟩ := together.environments
    refine { together with environments :=
      ⟨Dictionary.empty.insert inner (Binding.ofValue value uses) :: opened, outer, ?_, around,
        ?_, ?_⟩ }
    · rw [List.length_cons, length]
    · rw [environment]
      rfl
    · rw [environment']
      rfl
  pop level machine machine' together := by
    obtain ⟨opened, outer, length, around, environment, environment'⟩ := together.environments
    cases opened with
    | nil => cases length
    | cons scope opened =>
      refine { together with environments :=
        ⟨opened, outer, Nat.succ.inj length, around, ?_, ?_⟩ }
      · rw [environment]
        rfl
      · rw [environment']
        rfl

theorem sees_counting (read : String) :
    (counting name bound count height : Coupling (Moments Memory × Memory) Memory).SeesAlike
      read := by
  intro level machine machine' together
  obtain ⟨opened, outer, -, -, environment, environment'⟩ := together.environments
  rw [environment, environment']
  exact Environment.contains_holding opened outer _ _

/-- Moments that are written down stay so, and with them what is known of the limit. -/
theorem keeps_of_prefix {Result : Type}
    {action : Evaluation (Moments Memory × Memory) Result}
    (adds : ∀ machine, machine.moments <+: (action machine).2.moments) :
    (counting name bound count height).Keeps action := by
  intro machine failure machine' parted
  obtain ⟨moment, written, known⟩ := parted.moment
  refine ⟨parted.failure, moment, ?_, known⟩
  obtain ⟨later, same⟩ := adds machine
  rw [← same]
  exact (List.getElem?_append_left (List.getElem?_eq_some_iff.1 written).1).trans written

/-! ### Reads -/

/-- A variable that is allowed and bound is read from the environment. -/
theorem readVariable_of_bound (setting : Setting Memory) {read : String} {machine : Machine Memory}
    (allowed : setting.configuration.isVariableAllowed read = true)
    (bound : machine.environment.contains read = true) :
    readVariable setting read machine =
      ((machine.environment.read read).1,
        { machine with environment := (machine.environment.read read).2 }) := by
  unfold readVariable
  rw [allowed, bound]
  rfl

/-- A read that does not concern the binding. -/
theorem agree_of_otherRead {setting : Setting Memory} {machine : Machine (Moments Memory × Memory)}
    {machine' : Machine Memory} (read : String)
    (together : Counting name bound count height level machine machine')
    (other : setting.configuration.isVariableAllowed read = true →
      ¬ (read = name ∧ machine.environment.isBoundAt height name = true)) :
    (counting name bound count height).Agree level (readVariable setting.extended read machine)
      (readVariable setting read machine') := by
  have sameContains := sees_counting read level machine machine' together
  obtain ⟨opened, outer, length, around, environment, environment'⟩ := together.environments
  rw [environment, ← around, Environment.isBoundAt_holding] at other
  unfold readVariable
  rw [sameContains, show setting.extended.configuration = setting.configuration from rfl]
  cases allowed : setting.configuration.isVariableAllowed read with
  | false => exact Or.inl ⟨.of_eq rfl, together⟩
  | true =>
    cases machine'.environment.contains read with
    | false =>
      cases setting.configuration.strictMode with
      | true => exact Or.inl ⟨.of_eq rfl, together⟩
      | false => exact Or.inl ⟨.of_eq rfl, together⟩
    | true =>
      dsimp only
      rw [environment, environment']
      cases caught : Environment.readInner? read opened with
      | some opened' =>
        obtain ⟨result, reads⟩ := Environment.read_holding_of_bound caught
        rw [reads, reads]
        refine Or.inl ⟨.of_eq rfl, { together with environments :=
          ⟨opened', outer, ?_, around, rfl, rfl⟩ }⟩
        rw [Environment.length_readInner? caught, length]
      | none =>
        have different : read ≠ name := by
          rintro rfl
          exact other allowed ⟨rfl, by rw [caught]; rfl⟩
        rw [Environment.read_holding_of_ne caught different,
          Environment.read_holding_of_ne caught different]
        refine Or.inl ⟨.of_eq rfl, { together with environments :=
          ⟨opened, (outer.read read).2, length, ?_, rfl, rfl⟩ }⟩
        rw [Environment.length_inner_read, around]

/-- A read of the binding: one more moment, and one more read counted, unless that is one too
many. -/
theorem agree_of_read {setting : Setting Memory} {machine : Machine (Moments Memory × Memory)}
    {machine' : Machine Memory}
    (together : Counting name bound count height level machine machine')
    (allowed : setting.configuration.isVariableAllowed name = true)
    (means : machine.environment.isBoundAt height name = true) :
    (counting name bound count height).Agree level
      (readVariable setting.extended name machine.remember)
      (readVariable setting name machine') := by
  obtain ⟨opened, outer, length, around, environment, environment'⟩ := together.environments
  have unbound : Environment.readInner? name opened = none := by
    rw [environment, ← around, Environment.isBoundAt_holding, Option.isNone_iff_eq_none] at means
    exact means
  have contains : machine.remember.environment.contains name = true := by
    show machine.environment.contains name = true
    rw [environment, Environment.contains_holding_self]
  have contains' : machine'.environment.contains name = true := by
    rw [environment', Environment.contains_holding_self]
  rw [readVariable_of_bound setting.extended allowed contains,
    readVariable_of_bound setting allowed contains',
    show machine.remember.environment = _ from environment, environment',
    Environment.read_holding_self unbound, Environment.read_holding_self unbound]
  have written : machine.remember.moments = machine.moments ++ [machine.forget] := rfl
  have withinLimit := together.within
  rcases Nat.lt_or_ge machine.moments.length count with more | full
  · obtain ⟨left, missing⟩ : ∃ left, count - machine.moments.length = left + 1 :=
      ⟨count - machine.moments.length - 1, by omega⟩
    rw [missing]
    refine Or.inl ⟨.of_eq rfl, ?_, ?_, together.visits, together.callDepth, together.cacheable,
      together.engine⟩
    · refine ⟨opened, outer, length, around, rfl, ?_⟩
      show _ = Environment.holding opened name bound
        (.limited count (count - machine.remember.moments.length)) outer
      rw [written, List.length_append, List.length_singleton,
        show count - (machine.moments.length + 1) = left by omega]
      rfl
    · show machine.remember.moments.length ≤ count
      rw [written, List.length_append, List.length_singleton]
      omega
  · rw [show count - machine.moments.length = 0 by omega]
    refine Or.inr ⟨rfl, machine.forget, ?_, together.visits.symm, together.cacheable.symm,
      together.engine.symm⟩
    show machine.remember.moments[count]? = some machine.forget
    rw [written, List.getElem?_append_right withinLimit,
      show count - machine.moments.length = 0 by omega]
    rfl

theorem simulates_read {setting : Setting Memory} (read : String) :
    (counting name bound count height).Simulates level
      (do watch setting name height (.variable read); readVariable setting.extended read)
      (readVariable setting read) := by
  constructor
  · intro machine machine' together
    show Coupling.Agree _ level (readVariable setting.extended read
      (if isReadOf setting name height read machine then machine.remember else machine)) _
    unfold isReadOf
    split
    next noted =>
      simp only [Bool.and_eq_true, beq_iff_eq] at noted
      obtain ⟨⟨rfl, allowed⟩, means⟩ := noted
      exact agree_of_read together allowed means
    next unnoted =>
      refine agree_of_otherRead read together fun allowed => ?_
      rintro ⟨rfl, means⟩
      exact unnoted (by rw [allowed, means, beq_self_eq_true]; rfl)
  · refine keeps_of_prefix fun machine => ?_
    show machine.moments <+: (readVariable setting.extended read
      (if isReadOf setting name height read machine then machine.remember else
        machine)).2.engine.memory.1
    rw [engine_readVariable]
    split
    · exact List.prefix_append _ _
    · exact List.prefix_refl _

/-! ### Calls -/

/-- A call under watch comes to what it comes to without, and writes nothing down. -/
theorem callFunction_alike_watched (setting : NestedSetting Memory) (levels depth : Nat)
    (called : String) (function : RegisteredFunction Memory) (hint : Option String)
    (values : List Value) {machine : Machine (Moments Memory × Memory)} {machine' : Machine Memory}
    (alike : Machine.Alike .identity (EngineState.Extends (· = machine.moments)) machine machine') :
    let watched := callFunction setting.extended depth (bodyWithin setting.extended levels) called
      function.extended hint values machine
    let plain := callFunction setting depth (bodyWithin setting levels) called function hint values
      machine'
    watched.1 = plain.1 ∧
      Machine.Alike .identity (EngineState.Extends (· = machine.moments)) watched.2 plain.2 := by
  have simulates : (Coupling.alike .identity (EngineState.Extends (· = machine.moments))
      False).Simulates 0 _ _ :=
    callFunction_extended setting levels depth called function hint values
  rcases (simulates.1 machine machine' alike).equal fun _ _ => id with same | parted
  · exact same
  · exact parted.1.elim

theorem simulates_callFunction (levels depth : Nat) (called : String)
    (function : RegisteredFunction Memory) (hint : Option String) (values : List Value) :
    (counting name bound count height).Simulates level
      (callFunction setting.extended depth (bodyWithin setting.extended levels) called
        function.extended hint values)
      (callFunction setting depth (bodyWithin setting levels) called function hint values) := by
  constructor
  · intro machine machine' together
    -- The call of the second run does not see that it is put into the environment of the first.
    have alike : Machine.Alike .identity (EngineState.Extends (· = machine.moments)) machine
        { machine' with environment := machine.environment } :=
      ⟨rfl, together.visits, together.callDepth, together.cacheable, together.engine, rfl⟩
    obtain ⟨same, after⟩ := callFunction_alike_watched setting levels depth called function hint
      values alike
    have stays := (isBlind_callFunction setting.extended depth (bodyWithin setting.extended levels)
      called function.extended hint values).environment machine
    have blind := isBlind_callFunction setting depth (bodyWithin setting levels) called function
      hint values { machine' with environment := machine.environment } machine'.environment
    have sameMoments : Machine.moments _ = machine.moments := after.engine.allowed
    refine Or.inl ⟨?_, ?_⟩
    · exact .of_eq (same.trans (congrArg Prod.fst blind).symm)
    · rw [show callFunction setting depth (bodyWithin setting levels) called function hint values
        machine' = _ from blind]
      refine ⟨?_, ?_, after.visits, after.callDepth, after.cacheable, after.engine.forget⟩
      · rw [stays, sameMoments]
        exact together.environments
      · rw [sameMoments]
        exact together.within
  · refine keeps_of_prefix fun machine => ?_
    obtain ⟨-, after⟩ := callFunction_alike_watched setting levels depth called function hint
      values (alike_forget machine)
    exact ⟨[], (List.append_nil _).trans after.engine.allowed.symm⟩

theorem simulates_watchWithin_counting (levels : Nat) (expression : Expression) :
    (counting name bound count height).Simulates level
      (watchWithin setting name height levels expression)
      (evaluateWithin setting levels expression) := by
  refine simulates_watchWithin (fits_counting setting) sees_counting (fun _ => simulates_read)
    (fun depth levels => callsAlike_extended (get?_extended setting.toSetting)
      fun other function _ level hint values => ?_) levels level expression
  exact simulates_callFunction levels depth other function hint values

/-! ### The binding -/

/-- What a watched evaluation of a binding without a limit tells of the evaluation without the
watch, and of the one with a limit. -/
structure Exact (name : String) (count : Nat)
    (watched : Except EvaluationError Value × Machine (Moments Memory × Memory))
    (unlimited limited : Except EvaluationError Value × Machine Memory) : Prop where
  forgotten : unlimited = (watched.1, watched.2.forget)
  within : watched.2.moments.length ≤ count → limited = unlimited
  exceeded : ∀ moment, watched.2.moments[count]? = some moment →
    limited.1 = .error (.usesExceeded name count) ∧ limited.2.visits = moment.visits ∧
      limited.2.cacheable = moment.cacheable ∧ limited.2.engine = moment.engine

theorem exact_of_noMoment {result : Except EvaluationError Value}
    {machine : Machine (Moments Memory × Memory)} {machine' : Machine Memory}
    (alike : Machine.Alike .identity (EngineState.Extends (· = [])) machine machine') :
    Exact name count (result, machine) (result, machine') (result, machine') := by
  refine ⟨congrArg (Prod.mk result) (eq_forget_of_alike alike), fun _ => rfl,
    fun moment found => ?_⟩
  rw [show machine.moments = [] from alike.engine.allowed] at found
  cases found

/-- Up to the scope of the binding the three evaluations go the same way. -/
theorem exact_bind {Result : Type} {first : Evaluation (Moments Memory × Memory) Result}
    {second : Evaluation Memory Result}
    {next : Result → Evaluation (Moments Memory × Memory) Value}
    {next' next'' : Result → Evaluation Memory Value}
    (simulates : (alike .identity (EngineState.Extends (· = [])) False).Simulates 0 first second)
    (rest : ∀ result machine machine',
      Machine.Alike .identity (EngineState.Extends (· = [])) machine machine' →
        Exact name count (next result machine) (next' result machine') (next'' result machine'))
    {machine : Machine (Moments Memory × Memory)} {machine' : Machine Memory}
    (alike : Machine.Alike .identity (EngineState.Extends (· = [])) machine machine') :
    Exact name count ((first >>= next) machine) ((second >>= next') machine')
      ((second >>= next'') machine') := by
  show Exact name count (andThen first next machine) (andThen second next' machine')
    (andThen second next'' machine')
  unfold andThen
  have agree := (simulates.1 machine machine' alike).equal fun _ _ => id
  generalize first machine = outcome at agree ⊢
  generalize second machine' = outcome' at agree ⊢
  rcases outcome with ⟨result, later⟩
  rcases outcome' with ⟨result', later'⟩
  rcases agree with ⟨same, after⟩ | parted
  · obtain rfl : result = result' := same
    cases result with
    | error error => exact exact_of_noMoment after
    | ok result => exact rest result later later' after
  · exact parted.1.elim

/-- After the scope of the binding is dropped, nothing is left of the limit. -/
theorem exact_of_agree {watched : Except EvaluationError Value × Machine (Moments Memory × Memory)}
    {unlimited limited : Except EvaluationError Value × Machine Memory}
    (plain : watched.1 = unlimited.1 ∧
      Machine.Alike .identity (EngineState.Extends fun _ => True) watched.2 unlimited.2)
    (counted : (counting name bound count height).Agree 0 watched limited) :
    Exact name count (watched.1, { watched.2 with environment := watched.2.environment.pop })
      (unlimited.1, { unlimited.2 with environment := unlimited.2.environment.pop })
      (limited.1, { limited.2 with environment := limited.2.environment.pop }) := by
  obtain ⟨same, after⟩ := plain
  have forgotten := eq_forget_of_alike after
  rw [forgotten, ← same]
  refine ⟨rfl, fun withinLimit => ?_, fun moment found => ?_⟩
  · rcases counted.equal fun _ _ => id with ⟨sameLimited, together⟩ | parted
    · obtain ⟨opened, outer, length, -, environment, environment'⟩ := together.environments
      obtain rfl : opened = [] := List.length_eq_zero_iff.1 length
      have popped : limited.2.environment.pop = watched.2.environment.pop := by
        rw [environment, environment']
        rfl
      dsimp only
      rw [← sameLimited, popped, ← together.visits, ← together.callDepth, ← together.cacheable,
        ← together.engine]
      rfl
    · obtain ⟨moment, written, -⟩ := parted.moment
      have more := (List.getElem?_eq_some_iff.1 written).1
      have few : watched.2.moments.length ≤ count := withinLimit
      omega
  · rcases counted with ⟨-, together⟩ | parted
    · have more : count < watched.2.moments.length := (List.getElem?_eq_some_iff.1 found).1
      have few := together.within
      omega
    · obtain ⟨moment', written, visits, cacheable, engine⟩ := parted.moment
      obtain rfl : moment' = moment := Option.some.inj (written.symm.trans found)
      have failed := parted.failure
      rcases limited with ⟨error | result, machine⟩
      · exact ⟨congrArg Except.error (Option.some.inj failed), visits, cacheable, engine⟩
      · cases failed

/-- The three evaluations of the scope of a binding. -/
theorem exact_scope (setting : NestedSetting Memory) (levels : Nat) (name : String) (count : Nat)
    (bound : Value) (body : Expression) {machine : Machine (Moments Memory × Memory)}
    {machine' : Machine Memory}
    (alike : Machine.Alike .identity (EngineState.Extends (· = [])) machine machine') :
    Exact name count
      (inScope (do
        update fun machine =>
          { machine with environment := machine.environment.define name bound .unlimited }
        watchWithin setting name machine.environment.inner.length levels body) machine)
      (inScope (do
        update fun machine =>
          { machine with environment := machine.environment.define name bound .unlimited }
        evaluateWithin setting levels body) machine')
      (inScope (do
        update fun machine =>
          { machine with environment := machine.environment.define name bound (.limited count) }
        evaluateWithin setting levels body) machine') := by
  rw [inScope_define_eq_bracketed, inScope_define_eq_bracketed, inScope_define_eq_bracketed]
  obtain rfl := eq_forget_of_alike alike
  have plain : (Coupling.alike .identity (EngineState.Extends fun _ => True) False).Simulates 0
      (watchWithin setting name machine.environment.inner.length levels body)
      (evaluateWithin setting levels body) := simulates_watchWithin_forget levels body
  have counted : (counting name bound count machine.environment.inner.length).Simulates 0
      (watchWithin setting name machine.environment.inner.length levels body)
      (evaluateWithin setting levels body) := simulates_watchWithin_counting levels body
  let entered : Machine (Moments Memory × Memory) :=
    { machine with environment := machine.environment.push.define name bound .unlimited }
  have noMoments : entered.moments = [] := alike.engine.allowed
  have begun : Counting name bound count machine.environment.inner.length 0 entered
      { machine.forget with
        environment := machine.environment.push.define name bound (.limited count) } := by
    refine ⟨⟨[], machine.environment, rfl, rfl, rfl, ?_⟩, ?_, rfl, rfl, rfl, rfl⟩
    · rw [noMoments]
      rfl
    · rw [noMoments]
      exact Nat.zero_le count
  rcases (plain.1 entered entered.forget ⟨rfl, rfl, rfl, rfl, rfl, trivial⟩).equal
    fun _ _ => id with same | parted
  · exact exact_of_agree same (counted.1 _ _ begun)
  · exact parted.1.elim

end Coupling

namespace Evaluation

open Coupling

/-- Use limits are exact. Let the evaluation of a binding without a limit be watched. If it reads
the binding no more often than a limit allows, the evaluation with the limit comes to the same and
leaves the same machine. Otherwise that evaluation ends, with the limit exceeded, where the first
read takes place that the limit does not allow. -/
theorem exact_evaluate_binding (setting : Setting Memory) (depth : Nat) (name : String)
    (value body : Expression) (count : Nat) (machine : Machine Memory) :
    Exact name count (watchBinding setting depth name value body machine.watched)
      (evaluate setting depth (.binding name value .unlimited body) machine)
      (evaluate setting depth (.binding name value (.limited count) body) machine) := by
  have alike : Machine.Alike .identity (EngineState.Extends (· = [])) machine.watched machine :=
    ⟨rfl, rfl, rfl, rfl, rfl, rfl⟩
  unfold evaluate evaluateAt watchBinding
  rw [show (setting.nested setting.nestings).depthLimit = setting.depthLimit from rfl]
  cases setting.depthLimit + 1 - depth with
  | zero => exact exact_of_noMoment alike
  | succ levels =>
    rw [evaluateWithin_succ, evaluateWithin_succ]
    refine exact_bind ?_ (fun _ machine machine' alike => ?_) alike
    · exact (records_alike (EngineState.survivesNotes_extends _)).visit rfl rfl _ rfl
    · refine exact_bind ?_ (fun bound machine machine' alike => ?_) alike
      · exact evaluateWithin_alike (EngineState.survivesNotes_extends _)
          (settingsAlike_watched (setting.nested setting.nestings)) levels value
      · exact exact_scope (setting.nested setting.nestings) levels name count bound body alike

end Evaluation

end Reckon
