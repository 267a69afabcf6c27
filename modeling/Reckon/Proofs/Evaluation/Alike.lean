/-
This file shows when two evaluations of an expression come out alike though
they run in engines that differ, or keep different host memories: the settings
agree, the functions of one name have one signature, and those of the host do
alike in both runs.

What the engines have in common is left open, as a relation that survives an
entry made in both journals, and so is the way in which the environments are
alike. They may be the same, or bind the same names alike; the order in which
the outermost scope lists them is free then.

In one reading the comparison ends at the first call of a function whose result
may not be kept. What holds then is that the first evaluation knows it may not
keep its own.
-/

import Reckon.Proofs.Evaluation.Calling

namespace Reckon

/-! ### Environments that bind the same names -/

namespace Environment

/-- Two environments with the same inner scopes, and outermost scopes with the same bindings. -/
structure SameBindings (first second : Environment) : Prop where
  inner : first.inner = second.inner
  outermost : ∀ name, first.outermost.get? name = second.outermost.get? name

variable {first second : Environment}

theorem SameBindings.refl (environment : Environment) : environment.SameBindings environment :=
  ⟨rfl, fun _ => rfl⟩

theorem SameBindings.find? (same : first.SameBindings second) (name : String) :
    first.find? name = second.find? name := by
  unfold Environment.find? scopes
  rw [same.inner, List.findSome?_append, List.findSome?_append, List.findSome?_singleton,
    List.findSome?_singleton, same.outermost]

theorem SameBindings.contains (same : first.SameBindings second) (name : String) :
    first.contains name = second.contains name :=
  congrArg Option.isSome (same.find? name)

theorem SameBindings.afterRead (same : first.SameBindings second) (name : String) :
    (first.afterRead name).SameBindings (second.afterRead name) := by
  unfold Environment.afterRead
  rw [same.inner]
  cases readInner? name second.inner with
  | some inner => exact ⟨rfl, same.outermost⟩
  | none =>
    refine ⟨rfl, fun other => ?_⟩
    rw [Dictionary.get?_modify, Dictionary.get?_modify, same.outermost]

theorem SameBindings.read (same : first.SameBindings second) (name : String) :
    (first.read name).1 = (second.read name).1 ∧
      (first.read name).2.SameBindings (second.read name).2 := by
  unfold Environment.read
  rw [same.find?]
  cases second.find? name with
  | some binding => exact ⟨rfl, same.afterRead name⟩
  | none => exact ⟨rfl, same⟩

theorem SameBindings.pop (same : first.SameBindings second) : first.pop.SameBindings second.pop :=
  ⟨congrArg (List.drop 1) same.inner, same.outermost⟩

theorem SameBindings.push_define (same : first.SameBindings second) (name : String) (value : Value)
    (uses : UseLimit) :
    (first.push.define name value uses).SameBindings (second.push.define name value uses) :=
  ⟨congrArg (fun inner => Dictionary.empty.insert name (Binding.ofValue value uses) :: inner)
    same.inner, same.outermost⟩

/-- Variables that are the same map make environments with the same bindings. -/
theorem sameBindings_ofVariables {given given' : Dictionary String Value}
    (same : ∀ name, given.get? name = given'.get? name) :
    (ofVariables given).SameBindings (ofVariables given') := by
  refine ⟨rfl, fun name => ?_⟩
  unfold ofVariables
  rw [Dictionary.get?_mapEntries, Dictionary.get?_mapEntries, same]

/-- A way in which two environments may be alike while evaluations go on in them. -/
structure Likeness where
  Alike : Environment → Environment → Prop
  refl : ∀ environment, Alike environment environment
  contains : ∀ {first second} name, Alike first second →
    first.contains name = second.contains name
  read : ∀ {first second} name, Alike first second →
    (first.read name).1 = (second.read name).1 ∧ Alike (first.read name).2 (second.read name).2
  pop : ∀ {first second}, Alike first second → Alike first.pop second.pop
  push_define : ∀ {first second} name value uses, Alike first second →
    Alike (first.push.define name value uses) (second.push.define name value uses)

/-- Environments that bind the same names alike. -/
def Likeness.bindings : Likeness where
  Alike := SameBindings
  refl := .refl
  contains name same := same.contains name
  read name same := same.read name
  pop same := same.pop
  push_define name value uses same := same.push_define name value uses

/-- Environments that are the same. -/
def Likeness.identity : Likeness where
  Alike := Eq
  refl _ := rfl
  contains _ same := by rw [same]
  read _ same := by
    rw [same]
    exact ⟨rfl, rfl⟩
  pop same := by rw [same]
  push_define _ _ _ same := by rw [same]

end Environment

/-! ### The coupling -/

variable {Memory Memory' : Type}

/-- Two machines alike in everything but their engines, which are related. -/
structure Machine.Alike (likeness : Environment.Likeness)
    (related : EngineState Memory → EngineState Memory' → Prop) (machine : Machine Memory)
    (machine' : Machine Memory') : Prop where
  environment : likeness.Alike machine.environment machine'.environment
  visits : machine.visits = machine'.visits
  callDepth : machine.callDepth = machine'.callDepth
  cacheable : machine.cacheable = machine'.cacheable
  engine : related machine.engine machine'.engine

namespace Coupling

/-- The coupling of evaluations that come out alike. If the runs may part, they do so where the
first one learns that its result may not be kept. -/
def alike (likeness : Environment.Likeness)
    (related : EngineState Memory → EngineState Memory' → Prop) (mayPart : Prop) :
    Coupling Memory Memory' where
  together _ := Machine.Alike likeness related
  parted machine _ _ := mayPart ∧ machine.cacheable = false
  parted_restore _ _ _ _ parted := parted
  parted_onward parted _ _ := parted

/-- Relations between engines that one more entry in both journals leaves as they are. -/
structure SurvivesNotes (related : EngineState Memory → EngineState Memory' → Prop) : Prop where
  note : ∀ state state' event, related state state' →
    related (state.note event) (state'.note event)

variable {likeness : Environment.Likeness}
  {related : EngineState Memory → EngineState Memory' → Prop} {mayPart : Prop}
  {setting : NestedSetting Memory} {setting' : NestedSetting Memory'} {level : Nat}

theorem records_alike (survives : SurvivesNotes related) :
    (alike likeness related mayPart).Records where
  visits together := together.visits
  count together := { together with visits := congrArg (· + 1) together.visits }
  note event together := { together with engine := survives.note _ _ event together.engine }
  keepsCount parted := parted
  keepsNote _ parted := parted

theorem readVariable_alike {setting : Setting Memory} {setting' : Setting Memory'}
    (configuration : setting'.configuration = setting.configuration) (name : String) :
    (alike likeness related mayPart).Simulates level (Evaluation.readVariable setting name)
      (Evaluation.readVariable setting' name) := by
  constructor
  · intro machine machine' together
    refine Or.inl ?_
    unfold Evaluation.readVariable
    rw [configuration, likeness.contains name together.environment]
    split
    · exact ⟨.same _, together⟩
    · split
      · have read := likeness.read name together.environment
        exact ⟨.of_eq read.1, { together with environment := read.2 }⟩
      · split <;> exact ⟨.same _, together⟩
  · intro machine failure machine' parted
    unfold Evaluation.readVariable
    split
    · exact parted
    · split
      · exact parted
      · split <;> exact parted

/-- The coupling fits settings that agree in all but functions and the way back into the
engine. -/
theorem fits_alike (survives : SurvivesNotes related)
    (configuration : setting'.configuration = setting.configuration)
    (operations : setting'.operations = setting.operations)
    (types : setting'.types = setting.types) (deadline : setting'.deadline = setting.deadline) :
    (alike likeness related mayPart).Fits setting setting' where
  configuration := configuration
  operations := operations
  types := types
  deadline := deadline
  records := records_alike survives
  bind _ name value uses _ _ together :=
    { together with environment := likeness.push_define name value uses together.environment }
  pop _ _ _ together := { together with environment := likeness.pop together.environment }

theorem sees_alike (name : String) : (alike likeness related mayPart).SeesAlike name :=
  fun _ _ _ together => likeness.contains name together.environment

/-! ### Calls -/

theorem encloses_alike (survives : SurvivesNotes related) :
    (alike likeness related mayPart).Encloses where
  forbid may together := { together with cacheable := congrArg (· && may) together.cacheable }
  note _ together := { together with engine := survives.note _ _ _ together.engine }
  environment environment together := { together with environment := likeness.refl environment }
  environmentBack before after := { after with environment := before.environment }
  callDepth _ together := { together with callDepth := rfl }
  callDepthBack before after := { after with callDepth := before.callDepth }
  keepsForbid {machine _ _} may parted := by
    refine ⟨parted.1, ?_⟩
    rw [show machine.cacheable = false from parted.2, Bool.false_and]
  keepsNote _ parted := parted

variable {body : Expression → Evaluation Memory Value}
  {body' : Expression → Evaluation Memory' Value}

/-- Two functions that do alike. Where the runs may part, nothing is asked of the host functions
whose results may not be kept. -/
structure FunctionsAlike (likeness : Environment.Likeness)
    (related : EngineState Memory → EngineState Memory' → Prop)
    (mayPart : Prop) (setting : NestedSetting Memory) (setting' : NestedSetting Memory')
    (function : RegisteredFunction Memory) (function' : RegisteredFunction Memory') : Prop where
  signature : function'.signature = function.signature
  callable : CallablesAlike (alike likeness related mayPart) setting setting'
    (mayPart → function.signature.cacheable = true) function.callable function'.callable

theorem callFunction_alike (survives : SurvivesNotes related)
    (configuration : setting'.configuration = setting.configuration)
    (types : setting'.types = setting.types) {function : RegisteredFunction Memory}
    {function' : RegisteredFunction Memory'}
    (functions : FunctionsAlike likeness related mayPart setting setting' function function')
    (bodies : ∀ level expression,
      (alike likeness related mayPart).Simulates level (body expression) (body' expression))
    (depth : Nat) (name : String) (hint : Option String) (values : List Value) :
    (alike likeness related mayPart).Simulates level
      (Evaluation.callFunction setting depth body name function hint values)
      (Evaluation.callFunction setting' depth body' name function' hint values) := by
  have encloses : (alike likeness related mayPart).Encloses := encloses_alike survives
  have keeps := keeps_invoke functions.callable fun expression => (bodies level expression).2
  rw [callFunction_eq, callFunction_eq, functions.signature, types]
  refine (simulates_ofExcept _).bind fun arguments => ?_
  by_cases part : mayPart ∧ function.signature.cacheable = false
  · refine simulates_bind_of_parted (fun machine machine' _ => ?_)
      (fun machine failure machine' parted => encloses.keepsForbid _ parted)
      fun _ => keeps_invokeTraced encloses (keeps arguments _) depth name
    show mayPart ∧ (machine.cacheable && function.signature.cacheable) = false
    exact ⟨part.1, by rw [part.2, Bool.and_false]⟩
  · have called : mayPart → function.signature.cacheable = true := fun may =>
      Bool.not_eq_false _ ▸ fun uncacheable => part ⟨may, uncacheable⟩
    refine Simulates.bind (simulates_update (fun _ _ together => encloses.forbid _ together)
      fun _ _ _ parted => encloses.keepsForbid _ parted) fun _ => ?_
    exact simulates_invokeTraced encloses (congrArg Configuration.debugMode configuration) types
      functions.signature
      (simulates_invoke encloses types functions.callable called (bodies level) arguments _) depth
      name

/-- Two settings in which evaluations come out alike. -/
structure SettingsAlike (likeness : Environment.Likeness)
    (related : EngineState Memory → EngineState Memory' → Prop)
    (mayPart : Prop) (setting : NestedSetting Memory) (setting' : NestedSetting Memory') :
    Prop where
  configuration : setting'.configuration = setting.configuration
  operations : setting'.operations = setting.operations
  types : setting'.types = setting.types
  deadline : setting'.deadline = setting.deadline
  unknown : ∀ name, setting.functions.get? name = none → setting'.functions.get? name = none
  known : ∀ name function, setting.functions.get? name = some function →
    ∃ function', setting'.functions.get? name = some function' ∧
      FunctionsAlike likeness related mayPart setting setting' function function'

/-- Settings that agree but for their functions, of which the first ones come from the second ones
by a change that makes no difference. -/
theorem settingsAlike_of_map {change : RegisteredFunction Memory' → RegisteredFunction Memory}
    (configuration : setting'.configuration = setting.configuration)
    (operations : setting'.operations = setting.operations)
    (types : setting'.types = setting.types) (deadline : setting'.deadline = setting.deadline)
    (changed : ∀ name, setting.functions.get? name = (setting'.functions.get? name).map change)
    (same : ∀ function,
      FunctionsAlike likeness related mayPart setting setting' (change function) function) :
    SettingsAlike likeness related mayPart setting setting' where
  configuration := configuration
  operations := operations
  types := types
  deadline := deadline
  unknown name unknown := by
    rw [changed] at unknown
    exact Option.map_eq_none_iff.1 unknown
  known name function found := by
    rw [changed] at found
    obtain ⟨plain, known, rfl⟩ := Option.map_eq_some_iff.1 found
    exact ⟨plain, known, same plain⟩

/-- In such settings evaluations come out alike, however many levels are left. -/
theorem evaluateWithin_alike (survives : SurvivesNotes related)
    (settings : SettingsAlike likeness related mayPart setting setting') (levels : Nat)
    (expression : Expression) :
    (alike likeness related mayPart).Simulates level
      (Evaluation.evaluateWithin setting levels expression)
      (Evaluation.evaluateWithin setting' levels expression) := by
  refine simulates_evaluateWithin
    (fits_alike survives settings.configuration settings.operations settings.types
      settings.deadline)
    sees_alike (fun _ => readVariable_alike settings.configuration)
    (fun depth body body' bodies => ⟨settings.unknown, fun name function found => ?_⟩) levels
    level expression
  obtain ⟨function', found', functions⟩ := settings.known name function found
  exact ⟨function', found', fun level hint values =>
    callFunction_alike survives settings.configuration settings.types functions bodies depth name
      hint values⟩

/-- The depth limit is the same in such settings, and so evaluations come out alike at a depth. -/
theorem evaluateAt_alike (survives : SurvivesNotes related)
    (settings : SettingsAlike likeness related mayPart setting setting') (depth : Nat)
    (expression : Expression) :
    (alike likeness related mayPart).Simulates level
      (Evaluation.evaluateAt setting depth expression)
      (Evaluation.evaluateAt setting' depth expression) := by
  have sameLimit : setting'.depthLimit = setting.depthLimit :=
    congrArg Configuration.depthLimit settings.configuration
  unfold Evaluation.evaluateAt
  rw [sameLimit]
  exact evaluateWithin_alike survives settings _ expression

/-! ### Host functions -/

/-- No request makes a result one that may be kept. -/
theorem keeps_respond
    (keeps : ∀ depth tree,
      (alike likeness related mayPart).Keeps (setting.interpret depth tree))
    (request : Request Memory) :
    (alike likeness related mayPart).Keeps (Evaluation.respond setting request) := by
  intro machine failure machine' parted
  cases request with
  | forbidCaching => exact ⟨parted.1, rfl⟩
  | interpret tree environment depth =>
    exact keeps_interpret keeps tree environment depth machine failure machine' parted
  | _ => exact parted

theorem keeps_runProgram
    (keeps : ∀ depth tree,
      (alike likeness related mayPart).Keeps (setting.interpret depth tree))
    (program : HostProgram Memory) :
    (alike likeness related mayPart).Keeps (Evaluation.runProgram setting program) := by
  induction program with
  | done result => exact keeps_ofExcept result
  | ask request next inductionHypothesis =>
    exact (keeps_respond keeps request).bind inductionHypothesis

/-- An evaluation for a host function comes out alike if it does in one environment. -/
theorem interpret_alike
    (interprets : (alike .identity related mayPart).InterpretsAlike setting setting')
    (tree : Expression) (environment : Environment) (depth : Nat) :
    (alike likeness related mayPart).Simulates level
      (Evaluation.respond setting (.interpret tree environment depth))
      (Evaluation.respond setting' (.interpret tree environment depth)) := by
  refine simulates_interpret interprets (fun _ _ => id) (fun _ _ together => together.environment)
    (fun _ _ _ parted => parted) ?_ ?_ (fun _ _ _ together => ?_)
    (fun _ _ _ _ before after => ?_) tree environment depth
  · rfl
  · rfl
  · exact { together with environment := rfl }
  · exact { after with environment := before.environment }

/-- A text that the engine is asked for comes out alike if the ways back into it do. -/
theorem evaluateText_alike
    (reenter : ∀ source given state state', related state state' →
      (setting.reenter source given state).1 = (setting'.reenter source given state').1 ∧
        related (setting.reenter source given state).2 (setting'.reenter source given state').2)
    (source : String) (given : Dictionary String Value) :
    (alike likeness related mayPart).Simulates level
      (Evaluation.respond setting (.evaluate source given))
      (Evaluation.respond setting' (.evaluate source given)) := by
  refine ⟨fun machine machine' together => Or.inl ?_, fun _ _ _ parted => parted⟩
  obtain ⟨result, engine⟩ := reenter source given _ _ together.engine
  unfold Evaluation.respond
  dsimp only
  rw [result]
  exact ⟨.same _, { together with engine }⟩

/-- A program goes together with itself if the requests it can come to do. -/
theorem simulates_runProgram {coupling : Coupling Memory Memory}
    {setting setting' : NestedSetting Memory} {allowed : Request Memory → Prop}
    (answers : ∀ request, allowed request → coupling.Simulates level
      (Evaluation.respond setting request) (Evaluation.respond setting' request))
    (program : HostProgram Memory) (asks : program.AsksOnly allowed) :
    coupling.Simulates level (Evaluation.runProgram setting program)
      (Evaluation.runProgram setting' program) := by
  induction program with
  | done result => exact simulates_ofExcept result
  | ask request next inductionHypothesis =>
    exact (answers request asks.1).bind fun answer => inductionHypothesis answer (asks.2 answer)

/-! ### Nested evaluations -/

/-- Two settings in which evaluations come out alike, if those do that host functions ask for. -/
def NestingsAlike (likeness : Environment.Likeness)
    (related : EngineState Memory → EngineState Memory' → Prop) (mayPart : Prop)
    (setting : Setting Memory) (setting' : Setting Memory') : Prop :=
  ∀ interpret interpret',
    (∀ depth tree, (alike .identity related mayPart).Simulates 0 (interpret depth tree)
      (interpret' depth tree)) →
      SettingsAlike likeness related mayPart (setting.answering interpret)
        (setting'.answering interpret')

variable {setting : Setting Memory} {setting' : Setting Memory'}

theorem interpretWithin_alike (survives : SurvivesNotes related)
    (settings : NestingsAlike .identity related mayPart setting setting') (nestings depth : Nat)
    (tree : Expression) :
    (alike .identity related mayPart).Simulates 0
      (Evaluation.interpretWithin setting nestings depth tree)
      (Evaluation.interpretWithin setting' nestings depth tree) := by
  induction nestings generalizing depth tree with
  | zero => exact simulates_fail _
  | succ nestings inductionHypothesis =>
    exact evaluateAt_alike survives (settings _ _ inductionHypothesis) depth tree

/-- Evaluations come out alike in such settings, however deep host functions nest others in
them. -/
theorem evaluate_alike (survives : SurvivesNotes related)
    (nestings : setting'.nestings = setting.nestings)
    (settings : ∀ likeness, NestingsAlike likeness related mayPart setting setting') (depth : Nat)
    (expression : Expression) :
    (alike likeness related mayPart).Simulates level (Evaluation.evaluate setting depth expression)
      (Evaluation.evaluate setting' depth expression) := by
  unfold Evaluation.evaluate
  rw [nestings]
  exact evaluateAt_alike survives
    (settings likeness _ _ (interpretWithin_alike survives (settings .identity) _)) depth expression

end Coupling

end Reckon
