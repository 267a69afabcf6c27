/-
This file shows that an environment is a stack of finite maps, whatever is
asked of it and in whatever order.

The stack is described on its own. It is a list of maps, the innermost first;
a name means what the innermost map with an entry for it says. Where the
environment counts down the uses a binding has left, an entry of the stack
counts up the reads that succeeded since the name was defined. The replies of
the two to any requests are the same, and after them the maps agree: so the
successful reads and the uses left of a limited binding add up to its limit as
long as the binding lasts.
-/

import Mathlib.Data.List.Forall2
import Reckon.Proofs.Evaluation.Scopes

namespace Reckon

namespace Environment

/-! ### Requests -/

/-- What can be asked of an environment. -/
inductive Request where
  | define (name : String) (value : Value) (uses : UseLimit)
  | read (name : String)
  | peek (name : String)
  | contains (name : String)
  | usesLeft (name : String)
  | push
  | pop

/-- What a request is replied with. -/
inductive Reply where
  | done
  | read (result : Except EvaluationError Value)
  | peeked (value : Option Value)
  | bound (isBound : Bool)
  | left (count : Option Nat)

/-- The reply to a request, and the environment after it. -/
def respond (environment : Environment) : Request → Reply × Environment
  | .define name value uses => (.done, environment.define name value uses)
  | .read name => (.read (environment.read name).1, (environment.read name).2)
  | .peek name => (.peeked (environment.peek? name), environment)
  | .contains name => (.bound (environment.contains name), environment)
  | .usesLeft name => (.left (environment.usesLeft? name), environment)
  | .push => (.done, environment.push)
  | .pop => (.done, environment.pop)

/-- The replies to requests made one after the other, and what is left after them. -/
def converse {State : Type} (respond : State → Request → Reply × State) :
    State → List Request → List Reply × State
  | state, [] => ([], state)
  | state, request :: rest =>
    let (reply, next) := respond state request
    let (replies, last) := converse respond next rest
    (reply :: replies, last)

/-- The environment to begin with: without variables, or with the given ones. -/
def initial : Option (Dictionary String Value) → Environment
  | none => .empty
  | some given => .ofVariables given

/-! ### The stack of maps -/

/-- An entry of a stack: a value, how often it may be read, and how often it was read with
success since the name was defined. -/
structure Record where
  value : Value
  uses : UseLimit
  reads : Nat
  allowed : ∀ count, uses = .limited count → reads ≤ count

namespace Record

/-- The entry of a name that was just defined. -/
def ofValue (value : Value) (uses : UseLimit) : Record :=
  ⟨value, uses, 0, fun count _ => Nat.zero_le count⟩

/-- Whether an entry was read as often as it may be. -/
def IsExhausted (record : Record) : Prop :=
  record.uses = .limited record.reads

instance (record : Record) : Decidable record.IsExhausted :=
  inferInstanceAs (Decidable (record.uses = .limited record.reads))

/-- The entry after one more read that succeeded. -/
def afterSuccess (record : Record) (mayBeRead : ¬record.IsExhausted) : Record where
  value := record.value
  uses := record.uses
  reads := record.reads + 1
  allowed count limit := by
    refine Nat.lt_of_le_of_ne (record.allowed count limit) fun all => mayBeRead ?_
    rw [IsExhausted, limit, all]

/-- The uses an entry has left, if they are limited. -/
def left? (record : Record) : Option Nat :=
  record.uses.count?.map (· - record.reads)

end Record

/-- One map of a stack. -/
abbrev Frame := Dictionary String Record

/-- A stack of maps, the innermost first. -/
abbrev Stack := List Frame

namespace Stack

/-- What a name means: what the innermost map with an entry for it says. -/
def meaning? (stack : Stack) (name : String) : Option Record :=
  stack.findSome? fun frame => frame.get? name

/-- The stack with an entry in its innermost map. -/
def define (name : String) (record : Record) : Stack → Stack
  | [] => []
  | frame :: outer => frame.insert name record :: outer

/-- The stack with the entry that a name means replaced. -/
def replace (name : String) (record : Record) : Stack → Stack
  | [] => []
  | frame :: outer =>
    if frame.contains name then frame.insert name record :: outer
    else frame :: replace name record outer

/-- The stack without its innermost map, unless that is the only one. -/
def pop : Stack → Stack
  | _ :: frame :: outer => frame :: outer
  | single => single

/-- The reply to a request, and the stack after it. -/
def respond (stack : Stack) : Request → Reply × Stack
  | .define name value uses => (.done, stack.define name (.ofValue value uses))
  | .read name =>
    match stack.meaning? name with
    | none => (.read (.error (.undefinedVariable name)), stack)
    | some record =>
      if exhausted : record.IsExhausted then
        (.read (.error (.usesExceeded name record.reads)), stack)
      else (.read (.ok record.value), stack.replace name (record.afterSuccess exhausted))
  | .peek name => (.peeked ((stack.meaning? name).map Record.value), stack)
  | .contains name => (.bound (stack.meaning? name).isSome, stack)
  | .usesLeft name => (.left ((stack.meaning? name).bind Record.left?), stack)
  | .push => (.done, .empty :: stack)
  | .pop => (.done, stack.pop)

/-- The stack to begin with: one map, without entries or with the given variables. -/
def initial : Option (Dictionary String Value) → Stack
  | none => [.empty]
  | some given => [given.mapEntries fun value => .ofValue value .unlimited]

end Stack

/-! ### What an environment shows of a stack -/

/-- The binding that stands for an entry: of the uses that were allowed it has those left that
were not used. -/
def Record.binding (record : Record) : Binding where
  value := record.value
  allowance :=
    match record.uses with
    | .unlimited => .unlimited
    | .limited count => .limited count (count - record.reads)

/-- Whether a scope binds the names of a map, as its entries say, and no others. -/
def Frame.Shows (frame : Frame) (scope : Scope) : Prop :=
  ∀ name, scope.get? name = (frame.get? name).map Record.binding

/-- Whether the scopes of an environment are those of a stack. -/
def Stack.Shows (stack : Stack) (environment : Environment) : Prop :=
  List.Forall₂ Frame.Shows stack environment.scopes

variable {name : String} {record : Record} {frame : Frame} {scope : Scope} {stack : Stack}
  {environment : Environment}

theorem Record.left?_binding (record : Record) :
    record.binding.allowance.left? = record.left? := by
  unfold binding left?
  cases record.uses <;> rfl

theorem Record.binding_ofValue (value : Value) (uses : UseLimit) :
    (Record.ofValue value uses).binding = .ofValue value uses := by
  cases uses <;> rfl

theorem Record.allowance_of_isExhausted (exhausted : record.IsExhausted) :
    record.binding.allowance = .limited record.reads 0 := by
  unfold IsExhausted at exhausted
  unfold binding
  rw [exhausted]
  exact congrArg _ (Nat.sub_self record.reads)

/-- A binding that was read as often as it may be refuses to be read. -/
theorem Record.answer_of_isExhausted (exhausted : record.IsExhausted) :
    record.binding.answer name = .error (.usesExceeded name record.reads) := by
  unfold Binding.answer
  rw [allowance_of_isExhausted exhausted]
  rfl

/-- A read that is refused does not change the binding. -/
theorem Record.afterRead_of_isExhausted (exhausted : record.IsExhausted) :
    record.binding.afterRead = record.binding := by
  have same := allowance_of_isExhausted exhausted
  unfold Binding.afterRead
  rw [same]
  show (⟨record.binding.value, .limited record.reads 0⟩ : Binding) = record.binding
  rw [← same]

theorem Record.answer_of_not_isExhausted (mayBeRead : ¬record.IsExhausted) :
    record.binding.answer name = .ok record.value := by
  unfold IsExhausted at mayBeRead
  unfold binding Binding.answer
  dsimp only
  cases limit : record.uses with
  | unlimited => rfl
  | limited count =>
    have fewer : record.reads ≠ count := fun all => mayBeRead (by rw [limit, all])
    have usesLeft : count - record.reads ≠ 0 :=
      Nat.sub_ne_zero_of_lt (Nat.lt_of_le_of_ne (record.allowed count limit) fewer)
    dsimp only
    split
    next none => exact absurd (Allowance.limited.inj none).2 usesLeft
    · rfl

theorem Record.binding_afterSuccess (mayBeRead : ¬record.IsExhausted) :
    (record.afterSuccess mayBeRead).binding = record.binding.afterRead := by
  unfold binding Binding.afterRead afterSuccess
  dsimp only
  cases record.uses <;> rfl

/-! ### One request -/

theorem Frame.Shows.insert (shows : Frame.Shows frame scope) (name : String) (record : Record) :
    Frame.Shows (frame.insert name record) (scope.insert name record.binding) := by
  intro other
  rw [Dictionary.get?_insert, Dictionary.get?_insert, shows]
  split <;> rfl

theorem Frame.Shows.empty : Frame.Shows .empty .empty :=
  fun _ => rfl

theorem Frame.Shows.contains (shows : Frame.Shows frame scope) (name : String) :
    scope.contains name = frame.contains name := by
  unfold Dictionary.contains
  rw [shows, Option.isSome_map]

theorem findSome?_of_shows {scopes : List Scope} (shows : List.Forall₂ Frame.Shows stack scopes)
    (name : String) :
    scopes.findSome? (fun scope => scope.get? name) =
      (stack.meaning? name).map Record.binding := by
  unfold Stack.meaning?
  induction shows with
  | nil => rfl
  | @cons frame scope stack scopes shows _ inductionHypothesis =>
    rw [List.findSome?_cons, List.findSome?_cons, shows]
    cases frame.get? name with
    | none => exact inductionHypothesis
    | some record => rfl

/-- A name means in an environment what it means in the stack that the environment shows. -/
theorem Stack.Shows.find? (shows : stack.Shows environment) (name : String) :
    environment.find? name = (stack.meaning? name).map Record.binding :=
  findSome?_of_shows shows name

theorem shows_replace {scopes scopes' : List Scope}
    (shows : List.Forall₂ Frame.Shows stack scopes) (means : stack.meaning? name = some record)
    (mayBeRead : ¬record.IsExhausted) (found : readInner? name scopes = some scopes') :
    List.Forall₂ Frame.Shows (stack.replace name (record.afterSuccess mayBeRead)) scopes' := by
  unfold Stack.meaning? at means
  -- Both walk outward to the first map that has the name, past the same maps.
  induction shows generalizing scopes' with
  | nil => cases found
  | @cons frame scope stack scopes shows rest inductionHypothesis =>
    rw [readInner?_cons, shows.contains] at found
    rw [List.findSome?_cons] at means
    unfold Stack.replace
    unfold Dictionary.contains at found ⊢
    cases bound : frame.get? name with
    | some held =>
      rw [bound] at means found
      cases means
      cases found
      refine .cons (fun other => ?_) rest
      rw [Dictionary.get?_modify, Dictionary.get?_insert, shows]
      by_cases same : other = name
      · rw [if_pos same, if_pos same, same, bound, Option.map_some, Option.map_some,
          Option.map_some, Record.binding_afterSuccess]
      · rw [if_neg same, if_neg same]
    | none =>
      rw [bound] at means found
      obtain ⟨later, foundLater, rfl⟩ := Option.map_eq_some_iff.1 found
      exact .cons shows (inductionHypothesis means foundLater)

/-- A read of a name that is bound is a read of the scopes. -/
theorem readInner?_scopes {binding : Binding} (means : environment.find? name = some binding) :
    readInner? name environment.scopes = some (environment.afterRead name).scopes := by
  unfold scopes afterRead
  rw [readInner?_append]
  cases found : readInner? name environment.inner with
  | some inner => rfl
  | none =>
    unfold find? scopes at means
    rw [List.findSome?_append, (readInner?_eq_none_iff environment.inner).1 found,
      List.findSome?_singleton, Option.none_or] at means
    dsimp only
    rw [readInner?_cons]
    unfold Dictionary.contains
    rw [means]
    rfl

theorem scopes_define (environment : Environment) (name : String) (value : Value)
    (uses : UseLimit) :
    ∃ scope outer, environment.scopes = scope :: outer ∧
      (environment.define name value uses).scopes =
        scope.insert name (.ofValue value uses) :: outer := by
  obtain ⟨inner, outermost⟩ := environment
  cases inner with
  | nil => exact ⟨outermost, [], rfl, rfl⟩
  | cons scope rest => exact ⟨scope, rest ++ [outermost], rfl, rfl⟩

theorem Stack.Shows.define (shows : stack.Shows environment) (name : String) (value : Value)
    (uses : UseLimit) :
    (stack.define name (.ofValue value uses)).Shows (environment.define name value uses) := by
  obtain ⟨scope, outer, before, after⟩ := scopes_define environment name value uses
  unfold Stack.Shows at shows ⊢
  rw [before] at shows
  cases shows with
  | cons first rest =>
    rw [after, ← Record.binding_ofValue]
    exact .cons (first.insert name _) rest

theorem Stack.Shows.pop (shows : stack.Shows environment) :
    (Stack.pop stack).Shows environment.pop := by
  obtain ⟨inner, outermost⟩ := environment
  unfold Stack.Shows at shows ⊢
  cases inner with
  | nil =>
    cases shows with
    | cons first rest =>
      cases rest
      exact .cons first .nil
  | cons scope rest =>
    cases shows with
    | cons first outer =>
      change List.Forall₂ Frame.Shows _ (rest ++ [outermost]) at outer
      generalize same : rest ++ [outermost] = scopes at outer
      cases outer with
      | nil => cases List.append_eq_nil_iff.1 same |>.2
      | cons second outer =>
        show List.Forall₂ Frame.Shows _ (rest ++ [outermost])
        rw [same]
        exact .cons second outer

/-- The replies of an environment and of the stack it shows to one request are the same, and
afterwards the environment shows the stack again. -/
theorem Stack.Shows.respond (shows : stack.Shows environment) (request : Request) :
    (environment.respond request).1 = (stack.respond request).1 ∧
      (stack.respond request).2.Shows (environment.respond request).2 := by
  cases request with
  | define name value uses => exact ⟨rfl, shows.define name value uses⟩
  | push => exact ⟨rfl, .cons .empty shows⟩
  | pop => exact ⟨rfl, shows.pop⟩
  | peek name =>
    refine ⟨congrArg Reply.peeked ?_, shows⟩
    unfold peek?
    rw [shows.find?, Option.map_map]
    rfl
  | contains name =>
    refine ⟨congrArg Reply.bound ?_, shows⟩
    unfold Environment.contains
    rw [shows.find?, Option.isSome_map]
  | usesLeft name =>
    refine ⟨congrArg Reply.left ?_, shows⟩
    unfold usesLeft?
    rw [shows.find?, Option.bind_map]
    exact congrArg _ (funext Record.left?_binding)
  | read name =>
    have found := shows.find? name
    unfold Environment.respond Stack.respond
    dsimp only
    cases means : stack.meaning? name with
    | none =>
      rw [means] at found
      unfold Environment.read
      rw [found]
      exact ⟨rfl, shows⟩
    | some record =>
      rw [means] at found
      dsimp only
      by_cases exhausted : record.IsExhausted
      · rw [dif_pos exhausted,
          read_of_unchanged found (Record.afterRead_of_isExhausted exhausted),
          Record.answer_of_isExhausted exhausted]
        exact ⟨rfl, shows⟩
      · have after := shows_replace shows means exhausted (readInner?_scopes found)
        rw [dif_neg exhausted]
        unfold Environment.read
        rw [found]
        dsimp only [Option.map_some]
        rw [Record.answer_of_not_isExhausted exhausted]
        exact ⟨rfl, after⟩

end Environment

end Reckon
