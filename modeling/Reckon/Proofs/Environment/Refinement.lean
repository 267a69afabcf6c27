/-
This file follows an environment through any requests. Its replies are those
of a stack of maps from the beginning on, and whatever was asked before, the
same can be said of what it holds: the innermost binding of a name answers for
the name, successful reads and uses left add up to the limit, the outermost
scope stays, and a binding that was covered comes back as it was.

The last is seen by looking at one name in all scopes at once. A request that
stays inside a scope that binds the name changes the column of the name in that
scope and inside it, and leaves the part outside alone.
-/

import Reckon.Proofs.Environment.Stack

namespace Reckon

namespace Environment

variable {name : String} {record : Record} {scope : Scope} {stack : Stack}
  {environment : Environment}

/-! ### Any number of requests -/

theorem Stack.shows_initial (given? : Option (Dictionary String Value)) :
    (Stack.initial given?).Shows (Environment.initial given?) := by
  cases given? with
  | none => exact .cons .empty .nil
  | some given =>
    refine .cons (fun name => ?_) .nil
    unfold Environment.initial ofVariables
    dsimp only
    rw [Dictionary.get?_mapEntries, Dictionary.get?_mapEntries, Option.map_map]
    rfl

/-- The replies of an environment and of the stack it shows to any requests are the same, and
afterwards the environment shows the stack again. -/
theorem Stack.Shows.converse (shows : stack.Shows environment) (requests : List Request) :
    (Environment.converse Environment.respond environment requests).1 =
        (Environment.converse Stack.respond stack requests).1 ∧
      (Environment.converse Stack.respond stack requests).2.Shows
        (Environment.converse Environment.respond environment requests).2 := by
  induction requests generalizing stack environment with
  | nil => exact ⟨rfl, shows⟩
  | cons request rest inductionHypothesis =>
    obtain ⟨reply, next⟩ := shows.respond request
    obtain ⟨replies, last⟩ := inductionHypothesis next
    exact ⟨congrArg₂ List.cons reply replies, last⟩

/-- The environment after requests. -/
def after (environment : Environment) (requests : List Request) : Environment :=
  (converse respond environment requests).2

theorem after_cons (environment : Environment) (request : Request) (rest : List Request) :
    environment.after (request :: rest) = (environment.respond request).2.after rest :=
  rfl

theorem after_append (environment : Environment) (requests later : List Request) :
    environment.after (requests ++ later) = (environment.after requests).after later := by
  induction requests generalizing environment with
  | nil => rfl
  | cons request rest inductionHypothesis =>
    rw [List.cons_append, after_cons, after_cons, inductionHypothesis]

/-! ### The innermost binding -/

theorem findSome?_opened {opened outer : List Scope} {binding : Binding}
    (unbound : ∀ inside ∈ opened, inside.contains name = false)
    (bound : scope.get? name = some binding) :
    (opened ++ scope :: outer).findSome? (fun scope => scope.get? name) = some binding := by
  have none : opened.findSome? (fun scope => scope.get? name) = none :=
    List.findSome?_eq_none_iff.2 fun inside member =>
      Option.isSome_eq_false_iff.1 (unbound inside member) |> Option.isNone_iff_eq_none.1
  rw [List.findSome?_append, none, Option.none_or, List.findSome?_cons, bound]

theorem readInner?_opened {opened outer : List Scope}
    (unbound : ∀ inside ∈ opened, inside.contains name = false)
    (bound : scope.contains name = true) :
    readInner? name (opened ++ scope :: outer) =
      some (opened ++ scope.modify name Binding.afterRead :: outer) := by
  induction opened with
  | nil => rw [List.nil_append, readInner?_cons, if_pos bound, List.nil_append]
  | cons first opened inductionHypothesis =>
    obtain ⟨here, later⟩ := List.forall_mem_cons.1 unbound
    rw [List.cons_append, readInner?_cons, if_neg (Bool.eq_false_iff.1 here),
      inductionHypothesis later, Option.map_some, List.cons_append]

/-! ### The column of a name -/

/-- What the scopes say about a name, the innermost first. -/
def column (environment : Environment) (name : String) : List (Option Binding) :=
  environment.scopes.map fun scope => scope.get? name

/-- A column with a read of its first binding counted. -/
def countFirst : List (Option Binding) → List (Option Binding)
  | [] => []
  | none :: rest => none :: countFirst rest
  | some binding :: rest => some binding.afterRead :: rest

theorem find?_eq_column (environment : Environment) (name : String) :
    environment.find? name = (environment.column name).findSome? id := by
  unfold column
  rw [List.findSome?_map]
  rfl

theorem map_get?_readInner? {scopes scopes' : List Scope} {read : String}
    (found : readInner? read scopes = some scopes') (name : String) :
    scopes'.map (fun scope => scope.get? name) =
      if name = read then countFirst (scopes.map fun scope => scope.get? name)
      else scopes.map fun scope => scope.get? name := by
  induction scopes generalizing scopes' with
  | nil => cases found
  | cons scope rest inductionHypothesis =>
    rw [readInner?_cons] at found
    unfold Dictionary.contains at found
    cases bound : scope.get? read with
    | some binding =>
      rw [bound] at found
      cases found
      rw [List.map_cons, List.map_cons, Dictionary.get?_modify]
      by_cases same : name = read
      · rw [if_pos same, if_pos same, same, bound]
        rfl
      · rw [if_neg same, if_neg same]
    | none =>
      rw [bound] at found
      obtain ⟨rest', foundRest, rfl⟩ := Option.map_eq_some_iff.1 found
      rw [List.map_cons, List.map_cons, inductionHypothesis foundRest]
      by_cases same : name = read
      · rw [if_pos same, if_pos same, same, bound]
        rfl
      · rw [if_neg same, if_neg same]

theorem column_read (environment : Environment) (read name : String) :
    (environment.read read).2.column name = environment.column name ∨
      name = read ∧
        (environment.read read).2.column name = countFirst (environment.column name) := by
  unfold Environment.read
  cases means : environment.find? read with
  | none => exact .inl rfl
  | some binding =>
    have counted := map_get?_readInner? (readInner?_scopes means) name
    by_cases same : name = read
    · rw [if_pos same] at counted
      exact .inr ⟨same, counted⟩
    · rw [if_neg same] at counted
      exact .inl counted

/-! ### Covered bindings -/

/-- How many scopes are open inside a scope after a request, unless the request leaves it. -/
def levelAfter : Nat → Request → Option Nat
  | level, .push => some (level + 1)
  | 0, .pop => none
  | level + 1, .pop => some level
  | level, _ => some level

/-- Whether a scope binds a name, so many scopes further in, and what lies around it says so much
about the name. -/
def Covers (environment : Environment) (name : String) (level : Nat)
    (outer : List (Option Binding)) : Prop :=
  ∃ opened binding, environment.column name = opened ++ some binding :: outer ∧
    opened.length = level

variable {level : Nat} {outer : List (Option Binding)}

theorem countFirst_covered (opened : List (Option Binding)) (binding : Binding) :
    ∃ opened' binding', countFirst (opened ++ some binding :: outer) =
      opened' ++ some binding' :: outer ∧ opened'.length = opened.length := by
  induction opened with
  | nil => exact ⟨[], binding.afterRead, rfl, rfl⟩
  | cons first opened inductionHypothesis =>
    cases first with
    | some inside => exact ⟨some inside.afterRead :: opened, binding, rfl, rfl⟩
    | none =>
      obtain ⟨opened', binding', same, length⟩ := inductionHypothesis
      exact ⟨none :: opened', binding', congrArg (none :: ·) same, congrArg (· + 1) length⟩

theorem Covers.read (covers : environment.Covers name level outer) (read : String) :
    (environment.read read).2.Covers name level outer := by
  rcases column_read environment read name with same | ⟨-, counted⟩
  · unfold Covers
    rw [same]
    exact covers
  · obtain ⟨opened, binding, parts, rfl⟩ := covers
    obtain ⟨opened', binding', same, length⟩ := countFirst_covered opened binding
    exact ⟨opened', binding', by rw [counted, parts, same], length⟩

theorem column_define (environment : Environment) (defined name : String) (value : Value)
    (uses : UseLimit) :
    ∃ first rest, environment.column name = first :: rest ∧
      (environment.define defined value uses).column name =
        (if name = defined then some (.ofValue value uses) else first) :: rest := by
  obtain ⟨scope, outer, before, after⟩ := scopes_define environment defined value uses
  refine ⟨scope.get? name, outer.map fun scope => scope.get? name, ?_, ?_⟩
  · unfold column
    rw [before, List.map_cons]
  · unfold column
    rw [after, List.map_cons, Dictionary.get?_insert]

theorem Covers.define (covers : environment.Covers name level outer) (defined : String)
    (value : Value) (uses : UseLimit) :
    (environment.define defined value uses).Covers name level outer := by
  obtain ⟨opened, binding, parts, rfl⟩ := covers
  obtain ⟨first, rest, before, after⟩ := column_define environment defined name value uses
  rw [parts] at before
  cases opened with
  | nil =>
    obtain ⟨rfl, rfl⟩ := List.cons.inj before
    by_cases same : name = defined
    · exact ⟨[], .ofValue value uses, by rw [after, if_pos same]; rfl, rfl⟩
    · exact ⟨[], binding, by rw [after, if_neg same]; rfl, rfl⟩
  | cons inside opened =>
    obtain ⟨rfl, rfl⟩ := List.cons.inj before
    exact ⟨_ :: opened, binding, after, rfl⟩

theorem column_pop (environment : Environment) (name : String) {first second : Option Binding}
    {rest : List (Option Binding)} (parts : environment.column name = first :: second :: rest) :
    environment.pop.column name = second :: rest := by
  obtain ⟨inner, outermost⟩ := environment
  cases inner with
  | nil => cases parts
  | cons scope inner => exact (List.cons.inj parts).2

/-- A request that does not leave a scope that binds a name changes nothing about the name around
the scope. -/
theorem Covers.respond (covers : environment.Covers name level outer) {request : Request}
    {level' : Nat} (stays : levelAfter level request = some level') :
    (environment.respond request).2.Covers name level' outer := by
  cases request with
  | define defined value uses =>
    cases stays
    exact covers.define defined value uses
  | read read =>
    cases stays
    exact covers.read read
  | peek | contains | usesLeft =>
    cases stays
    exact covers
  | push =>
    cases stays
    obtain ⟨opened, binding, parts, rfl⟩ := covers
    exact ⟨none :: opened, binding, congrArg (none :: ·) parts, rfl⟩
  | pop =>
    obtain ⟨opened, binding, parts, rfl⟩ := covers
    cases opened with
    | nil => cases stays
    | cons first opened =>
      cases stays
      refine ⟨opened, binding, ?_, rfl⟩
      cases opened with
      | nil => exact column_pop environment name parts
      | cons second opened => exact column_pop environment name parts

/-- Requests that do not leave a scope that binds a name change nothing about the name around the
scope. -/
theorem Covers.after (covers : environment.Covers name level outer) {requests : List Request}
    {level' : Nat} (stay : requests.foldlM levelAfter level = some level') :
    (environment.after requests).Covers name level' outer := by
  induction requests generalizing environment level with
  | nil =>
    cases stay
    exact covers
  | cons request rest inductionHypothesis =>
    rw [List.foldlM_cons] at stay
    obtain ⟨next, stays, later⟩ := Option.bind_eq_some_iff.1 stay
    exact inductionHypothesis (covers.respond stays) later

/-- A name that is bound in a scope means around the scope what it meant before, when the scope is
left. -/
theorem find?_after_define_pop (opened : environment.inner ≠ []) (name : String) (value : Value)
    (uses : UseLimit) {requests : List Request} (stay : requests.foldlM levelAfter 0 = some 0) :
    (environment.after (.define name value uses :: requests ++ [.pop])).find? name =
      environment.pop.find? name := by
  obtain ⟨first, outer, before, defined⟩ := column_define environment name name value uses
  rw [if_pos rfl] at defined
  -- The new binding covers the column around it until its scope is left.
  have covers : (environment.define name value uses).Covers name 0 outer :=
    ⟨[], _, defined, rfl⟩
  obtain ⟨inside, binding, parts, length⟩ := covers.after stay
  obtain rfl := List.length_eq_zero_iff.1 length
  obtain ⟨second, rest, rfl⟩ : ∃ second rest, outer = second :: rest := by
    obtain ⟨inner, outermost⟩ := environment
    cases inner with
    | nil => exact absurd rfl opened
    | cons scope inner =>
      have same := (List.cons.inj before).2
      cases inner with
      | nil => exact ⟨_, _, same.symm⟩
      | cons next inner => exact ⟨_, _, same.symm⟩
  rw [List.cons_append, after_cons, after_append]
  show ((environment.define name value uses).after requests).pop.find? name = _
  rw [find?_eq_column, find?_eq_column, column_pop _ name parts, column_pop _ name before]

/-- A read in an inner scope counts there, and not for the binding around it. -/
example : (empty.after [.define "x" .null (.limited 2), .read "x", .push,
    .define "x" .null (.limited 5), .read "x", .pop]).usesLeft? "x" = some 1 := by
  decide +kernel

/-! ### The outermost scope -/

theorem contains_outermost_respond (request : Request)
    (bound : environment.outermost.contains name = true) :
    (environment.respond request).2.outermost.contains name = true := by
  cases request with
  | define defined value uses =>
    obtain ⟨inner, outermost⟩ := environment
    cases inner with
    | nil =>
      show (outermost.insert defined (.ofValue value uses)).contains name = true
      unfold Dictionary.contains at bound ⊢
      rw [Dictionary.get?_insert]
      split
      · rfl
      · exact bound
    | cons scope inner => exact bound
  | read read =>
    show (environment.read read).2.outermost.contains name = true
    unfold Environment.read afterRead
    cases environment.find? read with
    | none => exact bound
    | some binding =>
      dsimp only
      cases readInner? read environment.inner with
      | some inner => exact bound
      | none =>
        dsimp only
        unfold Dictionary.contains at bound ⊢
        rw [Dictionary.get?_modify]
        split
        · rwa [Option.isSome_map]
        · exact bound
  | peek | contains | usesLeft | push | pop => exact bound

/-- What the outermost scope binds stays bound there. -/
theorem contains_outermost_after (requests : List Request)
    (bound : environment.outermost.contains name = true) :
    (environment.after requests).outermost.contains name = true := by
  induction requests generalizing environment with
  | nil => exact bound
  | cons request rest inductionHypothesis =>
    exact inductionHypothesis (contains_outermost_respond request bound)

/-! ### Whatever was asked -/

/-- An environment is a stack of maps. -/
structure Refines (environment : Environment) (stack : Stack) : Prop where
  /-- Scope by scope the environment binds the names of the stack. Of a limit it has those uses
  left that were not read with success. -/
  shows : stack.Shows environment
  /-- What is asked about a name is told of its innermost binding, and a read changes that one
  alone. -/
  resolves {opened outer : List Scope} {scope : Scope} {name : String} {binding : Binding}
    (parts : environment.scopes = opened ++ scope :: outer)
    (unbound : ∀ inside ∈ opened, inside.contains name = false)
    (bound : scope.get? name = some binding) :
    (environment.read name).1 = binding.answer name ∧
      (environment.read name).2.scopes =
        opened ++ scope.modify name Binding.afterRead :: outer ∧
      environment.peek? name = some binding.value ∧ environment.contains name = true ∧
      environment.usesLeft? name = binding.allowance.left?
  /-- A name that no scope binds means nothing. -/
  misses {name : String}
    (unbound : ∀ scope ∈ environment.scopes, scope.contains name = false) :
    environment.read name = (.error (.undefinedVariable name), environment) ∧
      environment.peek? name = none ∧ environment.contains name = false ∧
      environment.usesLeft? name = none
  /-- The reads that succeeded and the uses left add up to the limit. While uses are left a read
  succeeds; afterwards it is refused and changes nothing. -/
  counts {name : String} {record : Record} {count : Nat}
    (means : stack.meaning? name = some record) (limit : record.uses = .limited count) :
    ∃ left, environment.usesLeft? name = some left ∧ record.reads + left = count ∧
      (left ≠ 0 → (environment.read name).1 = .ok record.value) ∧
      (left = 0 → environment.read name = (.error (.usesExceeded name count), environment))
  /-- The outermost scope is not left, and what it binds stays bound there. -/
  keepsOutermost : (environment.depth = 1 → environment.pop = environment) ∧
    ∀ requests name, environment.outermost.contains name = true →
      (environment.after requests).outermost.contains name = true
  /-- Every other scope can be left; the ones around it are then as they were. -/
  pops {scope : Scope} {outer : List Scope} (parts : environment.scopes = scope :: outer)
    (around : outer ≠ []) :
    environment.pop.scopes = outer
  /-- A name that is bound in a scope means around it what it meant before, with the uses it had
  left, when the scope is left. -/
  uncovers {name : String} {value : Value} {uses : UseLimit} {requests : List Request}
    (opened : environment.inner ≠ []) (stay : requests.foldlM levelAfter 0 = some 0) :
    (environment.after (.define name value uses :: requests ++ [.pop])).find? name =
      environment.pop.find? name

theorem Stack.Shows.counts (shows : stack.Shows environment) {count : Nat}
    (means : stack.meaning? name = some record) (limit : record.uses = .limited count) :
    ∃ left, environment.usesLeft? name = some left ∧ record.reads + left = count ∧
      (left ≠ 0 → (environment.read name).1 = .ok record.value) ∧
      (left = 0 → environment.read name = (.error (.usesExceeded name count), environment)) := by
  have found := shows.find? name
  rw [means] at found
  have allowed := record.allowed count limit
  refine ⟨count - record.reads, ?_, Nat.add_sub_cancel' allowed, fun usesLeft => ?_,
    fun none => ?_⟩
  · unfold usesLeft?
    rw [found]
    show record.binding.allowance.left? = _
    rw [Record.left?_binding]
    unfold Record.left?
    rw [limit]
    rfl
  · have mayBeRead : ¬record.IsExhausted := by
      intro exhausted
      rw [Record.IsExhausted, limit] at exhausted
      exact usesLeft (Nat.sub_eq_zero_of_le (Nat.le_of_eq (UseLimit.limited.inj exhausted)))
    unfold Environment.read
    rw [found]
    exact Record.answer_of_not_isExhausted mayBeRead
  · obtain rfl : record.reads = count := Nat.le_antisymm allowed (Nat.le_of_sub_eq_zero none)
    rw [read_of_unchanged found (Record.afterRead_of_isExhausted limit),
      Record.answer_of_isExhausted limit]

theorem Stack.Shows.refines (shows : stack.Shows environment) : environment.Refines stack where
  shows := shows
  resolves := by
    intro opened scope outer name binding parts unbound bound
    have means : environment.find? name = some binding := by
      unfold Environment.find?
      rw [parts, findSome?_opened unbound bound]
    have read := readInner?_scopes means
    rw [parts, readInner?_opened unbound (by unfold Dictionary.contains; rw [bound]; rfl)] at read
    unfold Environment.read peek? Environment.contains usesLeft?
    rw [means]
    exact ⟨rfl, (Option.some.inj read).symm, rfl, rfl, rfl⟩
  misses := by
    intro name unbound
    have means : environment.find? name = none :=
      List.findSome?_eq_none_iff.2 fun scope member =>
        Option.isNone_iff_eq_none.1 (Option.isSome_eq_false_iff.1 (unbound scope member))
    unfold Environment.read peek? Environment.contains usesLeft?
    rw [means]
    exact ⟨rfl, rfl, rfl, rfl⟩
  counts := shows.counts
  keepsOutermost := by
    refine ⟨fun single => ?_, fun requests name bound => contains_outermost_after requests bound⟩
    obtain ⟨inner, outermost⟩ := environment
    cases inner with
    | nil => rfl
    | cons scope inner => cases single
  pops := by
    intro scope outer parts around
    obtain ⟨inner, outermost⟩ := environment
    cases inner with
    | nil => exact absurd (List.cons.inj parts).2.symm around
    | cons first inner => exact (List.cons.inj parts).2
  uncovers opened stay := find?_after_define_pop opened _ _ _ stay

/-- An environment replies to any requests as a stack of maps does, and is one afterwards. -/
theorem refines_stack (given? : Option (Dictionary String Value)) (requests : List Request) :
    (converse respond (initial given?) requests).1 =
        (converse Stack.respond (Stack.initial given?) requests).1 ∧
      (converse respond (initial given?) requests).2.Refines
        (converse Stack.respond (Stack.initial given?) requests).2 := by
  obtain ⟨replies, shows⟩ := (Stack.shows_initial given?).converse requests
  exact ⟨replies, shows.refines⟩

end Environment

end Reckon
