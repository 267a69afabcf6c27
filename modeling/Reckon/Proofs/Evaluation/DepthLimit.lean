/-
This file shows that a larger depth limit changes no answer. An evaluation is
surveyed: the depth of each node is written down when the evaluation arrives at
the node, before it is known whether the node is too deep. The evaluation in a
setting with a smaller limit keeps pace until the survey arrives at a node below
that limit; there the other evaluation ends.

So the smaller limit is exceeded exactly if the survey has been below it,
provided that nothing but the depth of a node raises the error, and that no host
function goes on after an evaluation it has asked for has ended in it. A host
function may ask for an evaluation at any depth, and one that makes something of
the error can tell the limits apart.
-/

import Reckon.Proofs.Evaluation.Descent
import Reckon.Proofs.Evaluation.Errors
import Reckon.Proofs.Evaluation.Invariant
import Reckon.Proofs.Evaluation.Overlooked
import Reckon.Proofs.Evaluation.Pace

namespace Reckon

variable {Memory : Type}

namespace Setting

/-- The setting with another recursion depth. -/
def withMaxDepth (setting : Setting Memory) (limit : UInt64) : Setting Memory :=
  { setting with configuration := { setting.configuration with maxRecursionDepth := limit } }

/-- Whether neither the functions of the host nor the operations raise the error of depth. A
function may end in it if an evaluation that it has asked for has. -/
structure LeavesDepth (setting : Setting Memory) : Prop where
  functions : ∀ name function host, setting.functions.get? name = some function →
    function.callable = .host host → ∀ interpret,
      (∀ depth tree machine limit, (interpret depth tree machine).1 ≠
        .error (.depthExceeded limit)) →
      ∀ arguments hint machine limit,
        (Evaluation.runProgram (setting.answering interpret) (host arguments hint) machine).1 ≠
          .error (.depthExceeded limit)
  operations : ∀ name first second limit,
    setting.operations.perform name first second ≠ .error (.depthExceeded limit)

end Setting

/-- Whether an error is the one of depth. -/
def EvaluationError.IsOfDepth : EvaluationError → Prop
  | .depthExceeded _ => True
  | _ => False

/-- Settings that differ at most in the depth limit. -/
def Configuration.SameButMaxDepth (first second : Configuration) : Prop :=
  second = { first with maxRecursionDepth := second.maxRecursionDepth }

/-! ### The survey -/

namespace Evaluation

/-- Writes the depth of a node down before the node is evaluated. -/
def arriveAt (depth : Nat) (evaluator : Expression → Evaluation (Depths × Memory) Value)
    (expression : Expression) : Evaluation (Depths × Memory) Value := do
  recordDepth depth
  evaluator expression

section Rules

variable (setting : Setting Memory)
  (interpret : Nat → Expression → Evaluation (Depths × Memory) Value)

/-- Evaluates an expression whose depth is written down, with so many levels left, and writes the
depths of all nodes down that it arrives at. The trees that host functions ask about are evaluated
in a way that is given. -/
def surveyFrom : Nat → Nat → Expression → Evaluation (Depths × Memory) Value
  | 0, _, _ => fail (.depthExceeded setting.depthLimit)
  | levels + 1, depth, expression => do
    let evaluateBody : Expression → Evaluation (Depths × Memory) Value :=
      match levels with
      | 0 => fun _ => fail (.depthExceeded setting.depthLimit)
      | deeper + 1 => surveyFrom deeper (depth + 2)
    visit setting.extended depth expression
    step (setting.extended.answering interpret) (depth + 1)
      (arriveAt (depth + 1) (surveyFrom levels (depth + 1)))
      (arriveAt (depth + 2) evaluateBody) expression

/-- Evaluates an expression at a depth and writes the depths of all nodes down that it arrives at,
the one that is too deep included. -/
def surveyAt (depth : Nat) : Expression → Evaluation (Depths × Memory) Value :=
  arriveAt depth (surveyFrom setting interpret (setting.depthLimit + 1 - depth) depth)

end Rules

/-- Evaluates a tree for a host function in the same way, with so many evaluations allowed inside
each other. -/
def surveyFor (setting : Setting Memory) :
    Nat → Nat → Expression → Evaluation (Depths × Memory) Value
  | 0, _, _ => fail .unfinished
  | nestings + 1, depth, tree => surveyAt setting (surveyFor setting nestings) depth tree

/-- Evaluates an expression at a depth and writes the depths of all nodes down that it arrives at,
and that evaluations for host functions arrive at. -/
def survey (setting : Setting Memory) (depth : Nat) :
    Expression → Evaluation (Depths × Memory) Value :=
  surveyAt setting (surveyFor setting setting.nestings) depth

variable {setting : Setting Memory}
  {interpret : Nat → Expression → Evaluation (Depths × Memory) Value}

theorem surveyFrom_of_lt {depth : Nat} (tooDeep : setting.depthLimit < depth)
    (expression : Expression) :
    surveyFrom setting interpret (setting.depthLimit + 1 - depth) depth expression =
      fail (.depthExceeded setting.depthLimit) := by
  rw [show setting.depthLimit + 1 - depth = 0 by omega]
  rfl

theorem surveyFrom_of_le {depth : Nat} (within : depth ≤ setting.depthLimit)
    (expression : Expression) :
    surveyFrom setting interpret (setting.depthLimit + 1 - depth) depth expression =
      (do
        visit setting.extended depth expression
        step (setting.extended.answering interpret) (depth + 1)
          (surveyAt setting interpret (depth + 1)) (surveyAt setting interpret (depth + 2))
          expression) := by
  obtain ⟨levels, left⟩ : ∃ levels, setting.depthLimit + 1 - depth = levels + 1 :=
    ⟨setting.depthLimit - depth, by omega⟩
  have below : setting.depthLimit + 1 - (depth + 1) = levels := by omega
  have belowCall : setting.depthLimit + 1 - (depth + 2) = levels - 1 := by omega
  rw [left]
  unfold surveyAt
  rw [below, belowCall]
  cases levels with
  | zero => rfl
  | succ deeper => rfl

end Evaluation

namespace Coupling

open Evaluation

variable {setting : Setting Memory}
  {interpret : Nat → Expression → Evaluation (Depths × Memory) Value}
  {interpret' : Nat → Expression → Evaluation Memory Value} {allowed : Depths → Prop} {level : Nat}

/-- What is true of the depths that are written down stays true with one depth more. -/
theorem simulates_surveyAt_of_from
    (grows : ∀ depth depths, allowed depths → allowed (depth :: depths))
    {depth : Nat} {plain : Expression → Evaluation Memory Value}
    (simulates : ∀ level expression,
      (alike .identity (EngineState.Extends allowed) False).Simulates level
        (surveyFrom setting interpret (setting.depthLimit + 1 - depth) depth expression)
        (plain expression)) (level : Nat) (expression : Expression) :
    (alike .identity (EngineState.Extends allowed) False).Simulates level
      (surveyAt setting interpret depth expression) (plain expression) := by
  refine (simulates level expression).after_update (fun machine machine' together => ?_)
    fun _ _ _ parted => parted.1.elim
  exact { together with
    engine := ⟨together.engine.forget, grows depth _ together.engine.allowed⟩ }

/-- A survey comes to what the evaluation comes to, and what is true of the depths that are
written down stays true if it does with each depth more. -/
theorem simulates_surveyFrom (grows : ∀ depth depths, allowed depths → allowed (depth :: depths))
    (interprets : ∀ depth tree, (alike .identity (EngineState.Extends allowed) False).Simulates 0
      (interpret depth tree) (interpret' depth tree))
    (depth level : Nat) (expression : Expression) :
    (alike .identity (EngineState.Extends allowed) False).Simulates level
      (surveyFrom setting interpret (setting.depthLimit + 1 - depth) depth expression)
      (evaluateAt (setting.answering interpret') depth expression) := by
  induction depth using induction_on_depth setting.depthLimit generalizing level expression with
  | tooDeep depth tooDeep =>
    rw [surveyFrom_of_lt tooDeep, evaluateAt_of_lt tooDeep]
    exact simulates_fail _
  | within depth within parts bodies =>
    rw [surveyFrom_of_le within, evaluateAt_of_le within]
    have fits : (alike .identity (EngineState.Extends allowed) False).Fits
        (setting.extended.answering interpret) (setting.answering interpret') :=
      fits_alike (EngineState.survivesNotes_extends _) rfl rfl rfl rfl
    refine (fits.records.visit rfl rfl depth rfl).bind fun _ => ?_
    refine simulates_step fits
      (callsAlike_extended (get?_extended setting) fun name function _ level hint values => ?_)
      level expression (fun level part _ => simulates_surveyAt_of_from grows parts level part)
      (fun name _ => sees_alike name) fun name _ => readVariable_alike (by rfl) name
    exact callFunction_alike (EngineState.survivesNotes_extends _) rfl rfl
      (functionsAlike_extended (answersAlike_extended setting interprets) function)
      (simulates_surveyAt_of_from grows bodies) _ _ _ _

theorem simulates_surveyAt (grows : ∀ depth depths, allowed depths → allowed (depth :: depths))
    (interprets : ∀ depth tree, (alike .identity (EngineState.Extends allowed) False).Simulates 0
      (interpret depth tree) (interpret' depth tree))
    (depth level : Nat) (expression : Expression) :
    (alike .identity (EngineState.Extends allowed) False).Simulates level
      (surveyAt setting interpret depth expression)
      (evaluateAt (setting.answering interpret') depth expression) :=
  simulates_surveyAt_of_from grows (simulates_surveyFrom grows interprets depth) level expression

theorem simulates_surveyFor (grows : ∀ depth depths, allowed depths → allowed (depth :: depths))
    (nestings depth : Nat) (tree : Expression) :
    (alike .identity (EngineState.Extends allowed) False).Simulates 0
      (surveyFor setting nestings depth tree) (interpretWithin setting nestings depth tree) := by
  induction nestings generalizing depth tree with
  | zero => exact simulates_fail _
  | succ nestings inductionHypothesis =>
    exact simulates_surveyAt grows inductionHypothesis depth 0 tree

end Coupling

/-- A survey that begins with an empty list comes to what the evaluation comes to, and leaves the
same machine but for the depths that it has written down. -/
theorem Evaluation.survey_eq_evaluate (setting : Setting Memory) (depth : Nat)
    (expression : Expression) (machine : Machine Memory) :
    ∃ arrivals : Depths,
      survey setting depth expression (machine.extend []) =
        ((evaluate setting depth expression machine).1,
          (evaluate setting depth expression machine).2.extend arrivals) := by
  have grows : ∀ (depth : Nat) (depths : Depths), True → True := fun _ _ _ => trivial
  rcases ((Coupling.simulates_surveyAt grows (Coupling.simulates_surveyFor grows setting.nestings)
    depth 0 expression).1 (machine.extend []) machine ⟨rfl, rfl, rfl, rfl, rfl, trivial⟩).equal
      fun _ _ => id with ⟨same, alike⟩ | parted
  · obtain ⟨arrivals, -, left⟩ := Coupling.eq_extend_of_alike alike
    exact ⟨arrivals, Prod.ext same left⟩
  · exact parted.1.elim

/-! ### The survey beside the evaluation with the smaller limit -/

/-- A survey and an evaluation with a limit: they keep pace while the survey stays within that
limit, and part when it arrives at a node below. -/
def Pace.surveyed (limit : Nat) : Pace (Depths × Memory) Memory where
  linked machine machine' := machine.visits = machine'.visits ∧
    machine.cacheable = machine'.cacheable ∧ machine.engine.forget = machine'.engine ∧
    ∀ visited ∈ machine.engine.memory.1, visited ≤ limit
  parted machine failure _ := failure = some (.depthExceeded limit) ∧
    ∃ visited ∈ machine.engine.memory.1, limit < visited
  linked_restore _ _ linked := linked
  linked_forbid may linked := ⟨linked.1, congrArg (· && may) linked.2.1, linked.2.2⟩
  linked_note event linked :=
    ⟨linked.1, linked.2.1, congrArg (EngineState.note · event) linked.2.2.1, linked.2.2.2⟩
  parted_restore _ _ _ _ parted := parted
  parted_forbid _ parted := parted
  parted_note _ parted := parted
  parted_failure parted := by cases parted.1

namespace Pace

open Coupling Evaluation

variable {setting : Setting Memory} {limit level : Nat}

theorem eq_forget_of_surveyed {machine : Machine (Depths × Memory)} {machine' : Machine Memory}
    (together : (surveyed limit).Together machine machine') : machine' = machine.forget := by
  obtain ⟨visits, cacheable, engine, -⟩ := together.linked
  exact Machine.eq_of_fields together.environment.symm visits.symm together.callDepth.symm
    cacheable.symm engine.symm

/-- A survey that has been below the limit has been there whatever it does next. -/
theorem keeps_of_grows {Result : Type} {action : Evaluation (Depths × Memory) Result}
    {plain : Evaluation Memory Result}
    (simulates : ∀ allowed : Depths → Prop,
      (∀ depth depths, allowed depths → allowed (depth :: depths)) →
        (alike .identity (EngineState.Extends allowed) False).Simulates 0 action plain) :
    (surveyed limit : Pace (Depths × Memory) Memory).coupling.Keeps action := by
  intro machine failure machine' parted
  refine ⟨parted.1, ?_⟩
  have grows : ∀ (depth : Nat) (depths : Depths), (∃ visited ∈ depths, limit < visited) →
      ∃ visited ∈ depth :: depths, limit < visited :=
    fun depth depths ⟨visited, member, below⟩ => ⟨visited, .tail depth member, below⟩
  rcases (simulates _ grows).1 machine machine.forget ⟨rfl, rfl, rfl, rfl, rfl, parted.2⟩ with
    ⟨-, alike⟩ | parted
  · exact alike.engine.allowed
  · exact parted.1.elim

variable {interpret : Nat → Expression → Evaluation (Depths × Memory) Value}
  {interpret' : Nat → Expression → Evaluation Memory Value}

/-- What leaves the depths alone that are written down keeps pace with what it does without
them. -/
theorem simulates_extended_surveyed {Result : Type} (action : Evaluation Memory Result) :
    (surveyed limit).coupling.Simulates level action.extended action := by
  refine ⟨fun machine machine' together => Or.inl ?_, fun _ _ _ parted => parted⟩
  have allWithin := together.linked.2.2.2
  obtain rfl := eq_forget_of_surveyed together
  exact ⟨.same _, rfl, rfl, rfl, rfl, rfl, allWithin⟩

/-- What a host function asks for is answered in pace, unless an evaluation of a tree is too deep
for the smaller limit. -/
theorem answersAlike_surveyed {shallow : UInt64}
    (interprets : ∀ depth tree, (surveyed limit).coupling.Simulates 0 (interpret depth tree)
      (interpret' depth tree)) (request : Request Memory) :
    (surveyed limit).AnswersAlike (Request.AlikeIn Configuration.SameButMaxDepth)
      EvaluationError.IsOfDepth request
      (respondBeside (setting.extended.answering interpret) request)
      (respond ((setting.withMaxDepth shallow).answering interpret') request) := by
  have plainly : ¬ request.IsForTree → request ≠ .configuration →
      (surveyed limit).AnswersAlike (Request.AlikeIn Configuration.SameButMaxDepth)
        EvaluationError.IsOfDepth request
        (respondBeside (setting.extended.answering interpret) request)
        (respond ((setting.withMaxDepth shallow).answering interpret') request) := by
    intro plain other
    have same : respond ((setting.withMaxDepth shallow).answering interpret') request =
        respond (setting.answering interpret') request :=
      respond_withConfiguration setting _ interpret' other
    rw [respondBeside_eq_extended setting interpret interpret' plain, same]
    refine .of_simulates (simulates_extended_surveyed _) fun quick machine failure machine'
      parted => ?_
    obtain ⟨given, after, asked, -⟩ :=
      respond_of_plain (setting.answering interpret') quick machine'
    exact ⟨given, after, asked, parted⟩
  cases request with
  | configuration =>
    exact ⟨fun _ _ _ parted => parted, fun machine machine' _ => Or.inr (Or.inl
      ⟨setting.configuration, (setting.withMaxDepth shallow).configuration, rfl, rfl, rfl⟩),
      fun _ _ _ machine' parted => ⟨_, machine', rfl, parted⟩⟩
  | interpret tree environment depth =>
    have inner : (surveyed limit).coupling.InterpretsAlike (setting.extended.answering interpret)
      ((setting.withMaxDepth shallow).answering interpret') := interprets
    refine AnswersAlike.interpret inner (fun parted => ?_) tree environment depth
    obtain rfl := Option.some.inj parted.1
    exact ⟨trivial, nofun⟩
  | _ => exact plainly id nofun

theorem callablesAlike_surveyed {shallow : UInt64}
    (interprets : ∀ depth tree, (surveyed limit).coupling.Simulates 0 (interpret depth tree)
      (interpret' depth tree))
    (overlooks : setting.functions.Overlooks (Request.AlikeIn Configuration.SameButMaxDepth))
    (passesOn : setting.functions.PassesOn EvaluationError.IsOfDepth) {name : String}
    {function : RegisteredFunction Memory}
    (found : setting.functions.get? name = some function) :
    CallablesAlike (surveyed limit).coupling (setting.extended.answering interpret)
      ((setting.withMaxDepth shallow).answering interpret') True function.callable.extended
      function.callable := by
  cases callable : function.callable with
  | defined parameters body => exact .defined parameters body
  | host host =>
    have simulates : ∀ level arguments hint, (surveyed limit).coupling.Simulates level
        (runProgram (setting.extended.answering interpret) (host arguments hint).extended)
        (runProgram ((setting.withMaxDepth shallow).answering interpret')
          (host arguments hint)) := by
      intro level arguments hint
      rw [runProgram_extended_eq_runWith, runProgram_eq_runWith]
      exact simulates_runWith (answersAlike_surveyed interprets)
        (overlooks name function host found callable arguments hint)
        (passesOn name function host found callable arguments hint)
    exact .host (fun arguments hint => (simulates 0 arguments hint).2) fun _ => simulates

section Nested

variable {shallow : UInt64} {nestings : Nat}

/-- A survey arrives at a node within the limit in pace, and parts at a node below. -/
theorem simulates_surveyAt_of_from {depth : Nat}
    (simulates : depth ≤ (setting.withMaxDepth shallow).depthLimit → ∀ level expression,
      (surveyed (setting.withMaxDepth shallow).depthLimit).coupling.Simulates level
        (surveyFrom setting (surveyFor setting nestings) (setting.depthLimit + 1 - depth) depth
          expression)
        (evaluateAt ((setting.withMaxDepth shallow).answering interpret') depth expression))
    (level : Nat) (expression : Expression) :
    (surveyed (setting.withMaxDepth shallow).depthLimit).coupling.Simulates level
      (surveyAt setting (surveyFor setting nestings) depth expression)
      (evaluateAt ((setting.withMaxDepth shallow).answering interpret') depth expression) := by
  have recorded : ∀ (machine : Machine (Depths × Memory)) failure (machine' : Machine Memory),
      (surveyed (setting.withMaxDepth shallow).depthLimit).parted machine failure machine' →
        (surveyed (setting.withMaxDepth shallow).depthLimit).parted (recordDepth depth machine).2
          failure machine' :=
    fun _ _ _ ⟨failed, visited, member, below⟩ => ⟨failed, visited, .tail depth member, below⟩
  have keeps : (surveyed (setting.withMaxDepth shallow).depthLimit).coupling.Keeps
      (surveyFrom setting (surveyFor setting nestings) (setting.depthLimit + 1 - depth) depth
        expression) :=
    keeps_of_grows fun allowed grows => Coupling.simulates_surveyFrom grows
      (Coupling.simulates_surveyFor grows nestings) depth 0 expression
  rcases Nat.lt_or_ge (setting.withMaxDepth shallow).depthLimit depth with below | within
  · rw [evaluateAt_of_lt below]
    refine ⟨fun machine machine' together => Or.inr ?_, Keeps.bind recorded fun _ => keeps⟩
    exact keeps (recordDepth depth machine).2 _ machine' ⟨rfl, depth, .head _, below⟩
  · refine (simulates within level expression).after_update (fun machine machine' together => ?_)
      recorded
    obtain ⟨visits, cacheable, engine, allWithin⟩ := together.linked
    exact ⟨together.environment, together.callDepth, visits, cacheable, engine,
      List.forall_mem_cons.2 ⟨within, allWithin⟩⟩

theorem simulates_surveyAt
    (interprets : ∀ depth tree,
      (surveyed (setting.withMaxDepth shallow).depthLimit).coupling.Simulates 0
        (surveyFor setting nestings depth tree) (interpret' depth tree))
    (overlooks : setting.functions.Overlooks (Request.AlikeIn Configuration.SameButMaxDepth))
    (passesOn : setting.functions.PassesOn EvaluationError.IsOfDepth)
    (lower : (setting.withMaxDepth shallow).depthLimit ≤ setting.depthLimit)
    (depth level : Nat) (expression : Expression) :
    (surveyed (setting.withMaxDepth shallow).depthLimit).coupling.Simulates level
      (surveyAt setting (surveyFor setting nestings) depth expression)
      (evaluateAt ((setting.withMaxDepth shallow).answering interpret') depth expression) := by
  refine simulates_surveyAt_of_from (fun within => ?_) level expression
  induction depth using induction_on_depth (setting.withMaxDepth shallow).depthLimit with
  | tooDeep depth tooDeep => exact absurd within (Nat.not_le_of_lt tooDeep)
  | within depth _ parts bodies =>
    intro level expression
    have below : depth ≤ setting.depthLimit := Nat.le_trans within lower
    have records : (surveyed (setting.withMaxDepth shallow).depthLimit :
        Pace (Depths × Memory) Memory).coupling.Records :=
      Pace.records (fun linked => linked.1)
        (fun linked => ⟨congrArg (· + 1) linked.1, linked.2⟩) fun parted => parted
    have visits : (surveyed (setting.withMaxDepth shallow).depthLimit).coupling.Simulates level
        (visit setting.extended depth expression) (visit setting depth expression) :=
      records.visit rfl rfl depth rfl
    have calls : (surveyed (setting.withMaxDepth shallow).depthLimit).coupling.CallsAlike
        (setting.extended.answering (surveyFor setting nestings))
        ((setting.withMaxDepth shallow).answering interpret') (depth + 1)
        (surveyAt setting (surveyFor setting nestings) (depth + 2))
        (evaluateAt ((setting.withMaxDepth shallow).answering interpret') (depth + 2)) :=
      callsAlike_extended (get?_extended setting) fun name function found level =>
        simulates_callFunction_of_callable encloses (by rfl) (by rfl) (by rfl)
          (callablesAlike_surveyed interprets overlooks passesOn found)
          (simulates_surveyAt_of_from bodies) _ name
    rw [surveyFrom_of_le below, evaluateAt_of_le within]
    refine visits.bind fun _ => ?_
    rw [step_eq, step_eq]
    have suits : (surveyed (setting.withMaxDepth shallow).depthLimit).coupling.Suits
        (setting.extended.answering (surveyFor setting nestings))
        ((setting.withMaxDepth shallow).answering interpret') := Pace.suits rfl rfl
    refine simulates_stepWith suits level expression
      (fun level part _ => simulates_surveyAt_of_from parts level part) (fun name _ => sees name)
      (fun name _ => simulates_readVariable (by rfl) (by rfl) (by rfl) name)
      fun name hint values => ?_
    exact simulates_dispatch (by rfl) (by rfl) (by rfl) calls name hint values

theorem simulates_surveyFor
    (overlooks : setting.functions.Overlooks (Request.AlikeIn Configuration.SameButMaxDepth))
    (passesOn : setting.functions.PassesOn EvaluationError.IsOfDepth)
    (lower : (setting.withMaxDepth shallow).depthLimit ≤ setting.depthLimit)
    (nestings depth : Nat) (tree : Expression) :
    (surveyed (setting.withMaxDepth shallow).depthLimit).coupling.Simulates 0
      (surveyFor setting nestings depth tree)
      (interpretWithin (setting.withMaxDepth shallow) nestings depth tree) := by
  induction nestings generalizing depth tree with
  | zero => exact simulates_fail _
  | succ nestings inductionHypothesis =>
    exact simulates_surveyAt inductionHypothesis overlooks passesOn lower depth 0 tree

end Nested

end Pace

/-! ### The error of depth -/

/-- The coupling of a survey with an evaluation in which no error of depth is seen. They part when
the survey has been below the limit. -/
def Coupling.masked (limit : Nat) : Coupling (Depths × Memory) Memory where
  together _ machine machine' := machine.forget = machine'
  parted machine _ _ := ∃ visited ∈ machine.engine.memory.1, limit < visited
  parted_restore _ _ _ _ parted := parted
  parted_onward parted _ _ := parted

namespace Evaluation

open Coupling

/-- The error of depth is raised only after the survey has arrived at a node below the limit. -/
def OnlyBelow (limit : Nat) (error : EvaluationError) (machine : Machine (Depths × Memory)) :
    Prop :=
  ∀ exceeded, error = .depthExceeded exceeded →
    ∃ visited ∈ machine.engine.memory.1, limit < visited

variable {setting : Setting Memory} {limit : Nat}
  {interpret : Nat → Expression → Evaluation (Depths × Memory) Value}
  {plain : Nat → Expression → Evaluation Memory Value}

theorem foresees_onlyBelow (leaves : setting.LeavesDepth) (limit : Nat) :
    Foresees (setting.extended.answering interpret)
      (OnlyBelow limit : _ → Machine (Depths × Memory) → Prop) where
  restore _ _ only := only
  rules machine ofRules := by
    rintro exceeded rfl
    cases ofRules
  operations machine _ performed := by
    rintro exceeded rfl
    exact absurd performed (leaves.operations _ _ _ exceeded)

/-- The outcome with another error in place of the one of depth. -/
def maskDepth : Except EvaluationError Value → Except EvaluationError Value
  | .error (.depthExceeded _) => .error .noBranchMatched
  | outcome => outcome

theorem maskDepth_ne (outcome : Except EvaluationError Value) (exceeded : Nat) :
    maskDepth outcome ≠ .error (.depthExceeded exceeded) := by
  unfold maskDepth
  split
  · exact nofun
  next other => exact other exceeded

theorem maskDepth_of_ne {outcome : Except EvaluationError Value}
    (other : ∀ exceeded, outcome ≠ .error (.depthExceeded exceeded)) :
    maskDepth outcome = outcome := by
  unfold maskDepth
  split
  next exceeded => exact absurd rfl (other exceeded)
  · rfl

/-- A survey goes together with the masked evaluation if it raises the error of depth only after it
has been below the limit. -/
theorem simulates_masked {action : Evaluation (Depths × Memory) Value}
    {plain : Evaluation Memory Value}
    (simulates : ∀ allowed : Depths → Prop,
      (∀ depth depths, allowed depths → allowed (depth :: depths)) →
        (alike .identity (EngineState.Extends allowed) False).Simulates 0 action plain)
    (raises : action.RaisesOnly (OnlyBelow limit)) :
    (masked limit).Simulates 0 action fun machine =>
      (maskDepth (plain machine).1, (plain machine).2) := by
  constructor
  · rintro machine _ rfl
    rcases ((simulates (fun _ => True) fun _ _ => id).1 machine machine.forget
      ⟨rfl, rfl, rfl, rfl, rfl, trivial⟩).equal fun _ _ => id with ⟨same, alike⟩ | parted
    · have after := eq_forget_of_alike alike
      by_cases isDepth : ∃ exceeded, (action machine).1 = .error (.depthExceeded exceeded)
      · obtain ⟨exceeded, failed⟩ := isDepth
        exact Or.inr (raises machine _ failed exceeded rfl)
      · refine Or.inl ⟨.of_eq ?_, after.symm⟩
        rw [same] at isDepth
        exact same.trans (maskDepth_of_ne fun exceeded failed => isDepth ⟨exceeded, failed⟩).symm
    · exact parted.1.elim
  · intro machine failure machine' parted
    have grows : ∀ (depth : Nat) (depths : Depths), (∃ visited ∈ depths, limit < visited) →
        ∃ visited ∈ depth :: depths, limit < visited :=
      fun depth depths ⟨visited, member, below⟩ => ⟨visited, .tail depth member, below⟩
    rcases (simulates _ grows).1 machine machine.forget ⟨rfl, rfl, rfl, rfl, rfl, parted⟩ with
      ⟨-, alike⟩ | apart
    · exact alike.engine.allowed
    · exact apart.1.elim

/-- A host function raises the error of depth only after the survey has been below the limit, if
the evaluations do that it asks for. -/
theorem raisesOnly_host (leaves : setting.LeavesDepth)
    (simulates : ∀ (allowed : Depths → Prop),
      (∀ depth depths, allowed depths → allowed (depth :: depths)) → ∀ depth tree,
        (alike .identity (EngineState.Extends allowed) False).Simulates 0 (interpret depth tree)
          (plain depth tree))
    (raises : ∀ depth tree, (interpret depth tree).RaisesOnly (OnlyBelow limit)) {name : String}
    {function : RegisteredFunction (Depths × Memory)} {host : HostFunction (Depths × Memory)}
    (found : (setting.extended : Setting (Depths × Memory)).functions.get? name = some function)
    (callable : function.callable = .host host) (arguments : List Value) (hint : Option String) :
    (runProgram (setting.extended.answering interpret) (host arguments hint)).RaisesOnly
      (OnlyBelow limit) := by
  rw [get?_extended] at found
  obtain ⟨original, known, rfl⟩ := Option.map_eq_some_iff.1 found
  unfold RegisteredFunction.extended Callable.extended at callable
  cases isHost : original.callable with
  | defined parameters body =>
    rw [isHost] at callable
    cases callable
  | host program =>
    rw [isHost] at callable
    obtain rfl := Callable.host.inj callable
    -- The program cannot tell that the errors of depth are masked before one is raised.
    let without : Nat → Expression → Evaluation Memory Value := fun depth tree machine =>
      (maskDepth (plain depth tree machine).1, (plain depth tree machine).2)
    have together : (masked limit).Simulates 0
        (runProgram (setting.extended.answering interpret) (program arguments hint).extended)
        (runProgram (setting.answering without) (program arguments hint)) := by
      rw [runProgram_extended_eq_runWith, runProgram_eq_runWith]
      refine Coupling.simulates_runWith (fun request => ?_) (program arguments hint)
      have plainly : ¬ request.IsForTree → (masked limit).Simulates 0
          (respondBeside (setting.extended.answering interpret) request)
          (respond (setting.answering without) request) := by
        intro plain
        rw [respondBeside_eq_extended setting interpret without plain]
        exact ⟨fun machine machine' together => Or.inl ⟨.of_eq (by rw [← together]; rfl),
          by rw [← together]; rfl⟩, fun _ _ _ parted => parted⟩
      cases request with
      | interpret tree environment depth =>
        have inner : (masked limit).InterpretsAlike (setting.extended.answering interpret)
            (setting.answering without) := fun depth tree =>
          simulates_masked (fun allowed grows => simulates allowed grows depth tree)
            (raises depth tree)
        refine simulates_interpret inner (fun _ _ => id) (fun _ _ together => ?_)
          (fun _ _ _ parted => parted) ?_ ?_ (fun _ _ _ together => ?_)
          (fun _ _ _ _ before after => ?_) tree environment depth
        · rw [← together]
          rfl
        · rfl
        · rfl
        · rw [← together]
          rfl
        · rw [← before, ← after]
          rfl
      | _ => exact plainly id
    intro machine error failed exceeded isDepth
    subst isDepth
    rcases (together.1 machine machine.forget rfl).equal fun _ _ => id with ⟨same, -⟩ | below
    · refine absurd (same.symm.trans failed) ?_
      exact leaves.functions name original program known isHost without
        (fun _ _ _ exceeded => maskDepth_ne _ exceeded) arguments hint machine.forget exceeded
    · exact below

theorem raisesOnly_surveyAt (leaves : setting.LeavesDepth)
    (simulates : ∀ (allowed : Depths → Prop),
      (∀ depth depths, allowed depths → allowed (depth :: depths)) → ∀ depth tree,
        (alike .identity (EngineState.Extends allowed) False).Simulates 0 (interpret depth tree)
          (plain depth tree))
    (raises : ∀ depth tree,
      (interpret depth tree).RaisesOnly (OnlyBelow setting.depthLimit))
    (depth : Nat) (expression : Expression) :
    (surveyAt setting interpret depth expression).RaisesOnly (OnlyBelow setting.depthLimit) := by
  have foresees : Foresees (setting.extended.answering interpret)
      (OnlyBelow setting.depthLimit) := foresees_onlyBelow leaves setting.depthLimit
  induction depth using induction_on_depth setting.depthLimit generalizing expression with
  | tooDeep depth tooDeep =>
    unfold surveyAt arriveAt
    rw [surveyFrom_of_lt tooDeep]
    exact fun _ _ _ _ _ => ⟨depth, .head _, tooDeep⟩
  | within depth within parts bodies =>
    unfold surveyAt arriveAt
    rw [surveyFrom_of_le within, step_eq]
    refine (raisesOnly_update _).bind fun _ => ?_
    refine (raisesOnly_visit (fun _ _ => nofun) depth expression).bind fun _ => ?_
    exact raisesOnly_stepWith foresees expression (fun part _ => parts part)
      (raisesOnly_readVariable foresees)
      (raisesOnly_dispatch foresees (fun _ _ _ => raisesOnly_host leaves simulates raises)
        (fun _ _ _ inner _ _ => bodies inner) _)
      fun _ _ _ _ => nofun

theorem raisesOnly_surveyFor (leaves : setting.LeavesDepth) (nestings depth : Nat)
    (tree : Expression) :
    (surveyFor setting nestings depth tree).RaisesOnly (OnlyBelow setting.depthLimit) := by
  induction nestings generalizing depth tree with
  | zero =>
    intro machine error failed exceeded isDepth
    rw [isDepth] at failed
    cases failed
  | succ nestings inductionHypothesis =>
    exact raisesOnly_surveyAt leaves
      (fun _ grows => Coupling.simulates_surveyFor grows nestings) inductionHypothesis depth
      tree

theorem raisesOnly_survey (leaves : setting.LeavesDepth) (depth : Nat) (expression : Expression) :
    (survey setting depth expression).RaisesOnly (OnlyBelow setting.depthLimit) :=
  raisesOnly_surveyAt leaves
    (fun _ grows => Coupling.simulates_surveyFor grows setting.nestings)
    (raisesOnly_surveyFor leaves setting.nestings) depth expression

end Evaluation

/-- A larger depth limit changes no answer, as long as host functions pass the error of depth on.
Let an evaluation be surveyed, and let the same evaluation have a smaller limit. If that one does
not end in the error of depth, the two come to the same and leave the same machine. It ends in that
error, with its own limit, exactly if the survey has arrived at a node below that limit. -/
theorem Evaluation.evaluate_withMaxDepth (setting : Setting Memory)
    (overlooks : setting.functions.Overlooks (Request.AlikeIn Configuration.SameButMaxDepth))
    (passesOn : setting.functions.PassesOn EvaluationError.IsOfDepth)
    (leaves : setting.LeavesDepth) (limit : UInt64)
    (smaller : limit ≤ setting.configuration.maxRecursionDepth) (depth : Nat)
    (expression : Expression) (machine : Machine Memory) :
    let shallow := evaluate (setting.withMaxDepth limit) depth expression machine
    let deep := evaluate setting depth expression machine
    let lowest := min limit.toNat evaluationCeiling
    ∃ arrivals : Depths,
      survey setting depth expression (machine.extend []) = (deep.1, deep.2.extend arrivals) ∧
        ((∀ exceeded, shallow.1 ≠ .error (.depthExceeded exceeded)) → deep = shallow) ∧
        (shallow.1 = .error (.depthExceeded lowest) ↔ ∃ arrival ∈ arrivals, lowest < arrival) := by
  intro shallow deep lowest
  obtain ⟨arrivals, surveyed⟩ := survey_eq_evaluate setting depth expression machine
  refine ⟨arrivals, surveyed, ?_⟩
  have lower : (setting.withMaxDepth limit).depthLimit ≤ setting.depthLimit := by
    have fewer := UInt64.le_iff_toNat_le.1 smaller
    show min limit.toNat evaluationCeiling ≤
      min setting.configuration.maxRecursionDepth.toNat evaluationCeiling
    omega
  have begun : (Pace.surveyed lowest).Together (machine.extend []) machine :=
    ⟨rfl, rfl, rfl, rfl, rfl, fun _ member => (List.not_mem_nil member).elim⟩
  have agree := ((Pace.simulates_surveyAt
    (Pace.simulates_surveyFor overlooks passesOn lower setting.nestings) overlooks passesOn lower
    depth 0 expression).1 (machine.extend []) machine begun).equal fun _ _ => id
  change (survey setting depth expression _).1 = shallow.1 ∧
    (Pace.surveyed lowest).Together (survey setting depth expression _).2 shallow.2 ∨
      (Pace.surveyed lowest).parted (survey setting depth expression _).2 _ shallow.2 at agree
  rw [surveyed] at agree
  rcases agree with ⟨same, together⟩ | ⟨failed, arrival, member, below⟩
  · have within : ∀ arrival ∈ arrivals, arrival ≤ lowest := together.linked.2.2.2
    refine ⟨fun _ => Prod.ext same (Pace.eq_forget_of_surveyed together).symm,
      fun exceeded => ?_, fun ⟨arrival, member, below⟩ => ?_⟩
    · -- The survey has ended in the same error, and so it has been below its own limit.
      have ended : (survey setting depth expression (machine.extend [])).1 =
          .error (.depthExceeded lowest) := by
        rw [surveyed]
        exact same.trans exceeded
      obtain ⟨arrival, member, below⟩ :=
        raisesOnly_survey leaves depth expression _ _ ended lowest rfl
      rw [surveyed] at member
      exact ⟨arrival, member, Nat.lt_of_le_of_lt lower below⟩
    · exact absurd below (Nat.not_lt_of_le (within arrival member))
  · have ended : shallow.1 = .error (.depthExceeded lowest) := eq_error_of_failure? failed
    exact ⟨fun other => absurd ended (other lowest),
      fun _ => ⟨arrival, member, below⟩, fun _ => ended⟩

/-- Without the condition that errors are passed on, the answer may change with the limit. A
function that has the number one evaluated below its call, and otherwise gives nothing, neither
reads the limit nor raises the error of depth. -/
theorem Evaluation.evaluate_withMaxDepth_attempting :
    let setting := Setting.attempting { maxRecursionDepth := 2 } (.integer 1) .null
    let machine := Machine.start .empty (.initial {} ())
    setting.functions.Overlooks (Request.AlikeIn Configuration.SameButMaxDepth) ∧
      setting.LeavesDepth ∧
      (evaluate (setting.withMaxDepth 1) 0 (.call "attempt" none []) machine).1 = .ok .null ∧
      (evaluate setting 0 (.call "attempt" none []) machine).1 = .ok (.integer 1) := by
  refine ⟨FunctionRegistry.overlooks_attempting (fun _ _ => False.elim) fun _ _ _ _ _ =>
    False.elim, ⟨?_, fun _ _ _ _ => nofun⟩, ?_, ?_⟩
  · intro name function host found callable interpret _ arguments hint machine limit
    exact FunctionRegistry.ne_error_attempting found callable _ arguments hint machine nofun
  · rfl
  · rfl

/-- Neither the three functions nor an operation, of which there is none, raise the error of
depth. -/
theorem Setting.leavesDepth_few (configuration : Configuration) :
    (Setting.few configuration).LeavesDepth where
  functions name function host found callable interpret _ arguments hint machine limit := by
    rw [FunctionRegistry.eq_visited_of_few found callable]
    exact nofun
  operations _ _ _ _ := nofun

/-- A function that calls itself without end goes below any limit. -/
theorem Evaluation.evaluate_withMaxDepth_endless :
    FunctionRegistry.few.Overlooks (Request.AlikeIn Configuration.SameButMaxDepth) ∧
      FunctionRegistry.few.PassesOn EvaluationError.IsOfDepth ∧
      (Setting.few { maxRecursionDepth := 9 }).LeavesDepth ∧ (5 : UInt64) ≤ 9 ∧
      (evaluate ((Setting.few { maxRecursionDepth := 9 }).withMaxDepth 5) 0
        (.call "endless" none []) (.start .empty (.initial {} ()))).1 =
          .error (.depthExceeded 5) := by
  have overlooks : FunctionRegistry.few.Overlooks
      (Request.AlikeIn Configuration.SameButMaxDepth) :=
    FunctionRegistry.overlooks_few fun _ _ => False.elim
  obtain ⟨arrivals, surveyed, -, exceeds⟩ :=
    evaluate_withMaxDepth (Setting.few { maxRecursionDepth := 9 }) overlooks
      (FunctionRegistry.passesOn_few _) (Setting.leavesDepth_few _) 5 (by decide) 0
      (.call "endless" none []) (.start .empty (.initial {} ()))
  have arrived : 6 ∈ (survey (Setting.few { maxRecursionDepth := 9 }) 0 (.call "endless" none [])
      ((Machine.start .empty (.initial {} ())).extend [])).2.engine.memory.1 := by
    decide +kernel
  rw [surveyed] at arrived
  exact ⟨overlooks, FunctionRegistry.passesOn_few _, Setting.leavesDepth_few _, by decide,
    exceeds.2 ⟨6, arrived, by decide⟩⟩

end Reckon
