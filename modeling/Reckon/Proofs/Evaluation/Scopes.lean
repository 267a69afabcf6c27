/-
This file follows a binding through the scopes that are opened inside its own.
An environment is taken apart into the scopes opened since the binding was
made, the scope that holds the binding alone, and what lies around it. A name
is read in the first of these parts that binds it, and the read changes only
that part.
-/

import Reckon.Environment

namespace Reckon

namespace Environment

variable {name : String}

/-- An environment with scopes opened inside it, the innermost first. -/
def within (opened : List Scope) (environment : Environment) : Environment :=
  { environment with inner := opened ++ environment.inner }

/-- The scope of a binding: it holds nothing else. -/
def bindingScope (name : String) (value : Value) (allowance : Allowance) : Scope :=
  Dictionary.empty.insert name ⟨value, allowance⟩

/-- An environment with the scope of a binding inside it, and scopes opened inside that. -/
def holding (opened : List Scope) (name : String) (value : Value) (allowance : Allowance)
    (outer : Environment) : Environment :=
  within opened (within [bindingScope name value allowance] outer)

/-- Whether a name means the binding it has in the scope at a height, the number of inner scopes
around that scope: no scope opened inside it binds the name. -/
def isBoundAt (environment : Environment) (height : Nat) (name : String) : Bool :=
  (readInner? name (environment.inner.take (environment.inner.length - (height + 1)))).isNone

/-! ### The innermost scope that binds a name -/

theorem readInner?_cons (scope : Scope) (rest : List Scope) :
    readInner? name (scope :: rest) =
      if scope.contains name then some (scope.modify name Binding.afterRead :: rest)
      else (readInner? name rest).map (scope :: ·) := rfl

theorem readInner?_append (opened rest : List Scope) :
    readInner? name (opened ++ rest) =
      match readInner? name opened with
      | some opened' => some (opened' ++ rest)
      | none => (readInner? name rest).map (opened ++ ·) := by
  induction opened with
  | nil =>
    show readInner? name rest = (readInner? name rest).map id
    rw [Option.map_id_fun, id]
  | cons scope opened inductionHypothesis =>
    rw [List.cons_append, readInner?_cons, readInner?_cons]
    split
    · rfl
    · rw [inductionHypothesis]
      cases readInner? name opened with
      | some opened' => rfl
      | none =>
        dsimp only [Option.map_none]
        rw [Option.map_map]
        rfl

theorem length_readInner? {opened opened' : List Scope}
    (found : readInner? name opened = some opened') : opened'.length = opened.length := by
  induction opened generalizing opened' with
  | nil => cases found
  | cons scope opened inductionHypothesis =>
    rw [readInner?_cons] at found
    split at found
    · cases found
      rfl
    · obtain ⟨rest, foundRest, rfl⟩ := Option.map_eq_some_iff.1 found
      rw [List.length_cons, List.length_cons, inductionHypothesis foundRest]

/-- Inner scopes can be read if and only if one of them has a binding of the name. -/
theorem readInner?_eq_none_iff (opened : List Scope) :
    readInner? name opened = none ↔ opened.findSome? (fun scope => scope.get? name) = none := by
  induction opened with
  | nil => exact ⟨fun _ => rfl, fun _ => rfl⟩
  | cons scope opened inductionHypothesis =>
    rw [readInner?_cons, List.findSome?_cons]
    unfold Dictionary.contains
    cases scope.get? name with
    | some binding => simp
    | none => simpa using inductionHypothesis

/-- What a name means inside scopes: what it means in them, or else around them. -/
theorem find?_within (opened : List Scope) (environment : Environment) :
    (within opened environment).find? name =
      (opened.findSome? fun scope => scope.get? name).or (environment.find? name) := by
  unfold find? scopes within
  rw [List.append_assoc, List.findSome?_append]

/-! ### Reading through scopes -/

/-- A name bound in the scopes that were opened is read there, whatever lies around them. -/
theorem read_within_of_bound {opened opened' : List Scope}
    (bound : readInner? name opened = some opened') :
    ∃ result, ∀ environment,
      (within opened environment).read name = (result, within opened' environment) := by
  cases found : opened.findSome? fun scope => scope.get? name with
  | none =>
    rw [(readInner?_eq_none_iff opened).2 found] at bound
    cases bound
  | some binding =>
    refine ⟨binding.answer name, fun environment => ?_⟩
    have means : (within opened environment).find? name = some binding := by
      rw [find?_within, found, Option.some_or]
    unfold read afterRead
    rw [means]
    dsimp only
    unfold within
    rw [readInner?_append, bound]

/-- A name not bound in the scopes that were opened is read outside. -/
theorem read_within_of_unbound {opened : List Scope} (unbound : readInner? name opened = none)
    (environment : Environment) :
    (within opened environment).read name =
      ((environment.read name).1, within opened (environment.read name).2) := by
  have means : (within opened environment).find? name = environment.find? name := by
    rw [find?_within, (readInner?_eq_none_iff opened).1 unbound, Option.none_or]
  unfold read
  rw [means]
  cases environment.find? name with
  | none => rfl
  | some binding =>
    dsimp only
    unfold afterRead within
    rw [readInner?_append, unbound]
    dsimp only
    cases readInner? name environment.inner with
    | none => rfl
    | some inner => rfl

theorem contains_within (opened : List Scope) (environment : Environment) :
    (within opened environment).contains name =
      ((opened.findSome? fun scope => scope.get? name).isSome || environment.contains name) := by
  unfold contains
  rw [find?_within, Option.isSome_or]

theorem length_inner_read (environment : Environment) :
    (environment.read name).2.inner.length = environment.inner.length := by
  unfold read
  cases environment.find? name with
  | none => rfl
  | some binding =>
    dsimp only
    unfold afterRead
    cases found : readInner? name environment.inner with
    | none => rfl
    | some inner => exact length_readInner? found

/-! ### What names mean after a read -/

/-- A read of inner scopes changes what the name means, and nothing about other names. -/
theorem findSome?_readInner? {scopes scopes' : List Scope}
    (found : readInner? name scopes = some scopes') (other : String) :
    scopes'.findSome? (fun scope => scope.get? other) =
      if other = name then
        (scopes.findSome? fun scope => scope.get? name).map Binding.afterRead
      else scopes.findSome? fun scope => scope.get? other := by
  induction scopes generalizing scopes' with
  | nil => cases found
  | cons scope rest inductionHypothesis =>
    rw [readInner?_cons] at found
    unfold Dictionary.contains at found
    rw [List.findSome?_cons, List.findSome?_cons]
    cases bound : scope.get? name with
    | some binding =>
      rw [bound, Option.isSome_some, if_pos rfl] at found
      cases found
      rw [List.findSome?_cons, Dictionary.get?_modify]
      by_cases same : other = name
      · rw [if_pos same, if_pos same, same, bound]
        rfl
      · rw [if_neg same, if_neg same]
    | none =>
      rw [bound, Option.isSome_none, if_neg Bool.false_ne_true] at found
      obtain ⟨rest', foundRest, rfl⟩ := Option.map_eq_some_iff.1 found
      rw [List.findSome?_cons, inductionHypothesis foundRest]
      by_cases same : other = name
      · rw [if_pos same, if_pos same, same, bound]
      · rw [if_neg same, if_neg same]

/-- A read of an environment changes what the name means, and nothing about other names. -/
theorem find?_afterRead (environment : Environment) (name other : String) :
    (environment.afterRead name).find? other =
      if other = name then (environment.find? name).map Binding.afterRead
      else environment.find? other := by
  unfold afterRead find? scopes
  rw [List.findSome?_append, List.findSome?_append, List.findSome?_singleton,
    List.findSome?_singleton]
  cases found : readInner? name environment.inner with
  | some inner =>
    have bound : environment.inner.findSome? (fun scope => scope.get? name) ≠ none := by
      rw [Ne, ← readInner?_eq_none_iff, found]
      exact Option.some_ne_none _
    obtain ⟨binding, means⟩ := Option.ne_none_iff_exists'.1 bound
    dsimp only
    rw [List.findSome?_append, List.findSome?_singleton, findSome?_readInner? found, means]
    by_cases same : other = name
    · rw [if_pos same, if_pos same]
      rfl
    · rw [if_neg same, if_neg same]
  | none =>
    have unbound := (readInner?_eq_none_iff environment.inner).1 found
    dsimp only
    rw [List.findSome?_append, List.findSome?_singleton, Dictionary.get?_modify, unbound]
    by_cases same : other = name
    · rw [if_pos same, if_pos same, same, unbound]
      rfl
    · rw [if_neg same, if_neg same]

theorem find?_read (environment : Environment) (name other : String) :
    (environment.read name).2.find? other =
      if other = name then (environment.find? name).map Binding.afterRead
      else environment.find? other := by
  unfold read
  cases means : environment.find? name with
  | some binding =>
    have after := find?_afterRead environment name other
    rwa [means] at after
  | none =>
    by_cases same : other = name
    · rw [if_pos same, same]
      exact means
    · rw [if_neg same]

/-! ### Bindings that a read does not change -/

variable {binding : Binding}

theorem modify_of_unchanged {scope : Scope} (means : scope.get? name = some binding)
    (unchanged : binding.afterRead = binding) :
    scope.modify name Binding.afterRead = scope := by
  have unchanged : ∀ entry ∈ scope.entries,
      (if entry.1 = name then (entry.1, entry.2.afterRead) else entry) = entry := by
    rintro ⟨key, other⟩ member
    split
    next same =>
      have bound : key = name := same
      rw [bound, Dictionary.mem_entries_iff, means] at member
      cases member
      rw [unchanged]
    · rfl
  obtain ⟨entries, distinct⟩ := scope
  unfold Dictionary.modify
  congr
  exact (List.map_congr_left unchanged).trans (List.map_id' entries)

theorem readInner?_of_unchanged {scopes scopes' : List Scope}
    (means : scopes.findSome? (fun scope => scope.get? name) = some binding)
    (unchanged : binding.afterRead = binding)
    (found : readInner? name scopes = some scopes') : scopes' = scopes := by
  induction scopes generalizing scopes' with
  | nil => cases found
  | cons scope rest inductionHypothesis =>
    rw [readInner?_cons] at found
    unfold Dictionary.contains at found
    rw [List.findSome?_cons] at means
    cases bound : scope.get? name with
    | some inside =>
      rw [bound] at means found
      cases means
      cases found
      rw [modify_of_unchanged bound unchanged]
    | none =>
      rw [bound] at means found
      obtain ⟨rest', foundRest, rfl⟩ := Option.map_eq_some_iff.1 found
      rw [inductionHypothesis means foundRest]

/-- Reading a binding that a read does not change leaves the environment as it is. -/
theorem read_of_unchanged {environment : Environment}
    (means : environment.find? name = some binding) (unchanged : binding.afterRead = binding) :
    environment.read name = (binding.answer name, environment) := by
  have same : environment.afterRead name = environment := by
    unfold find? scopes at means
    rw [List.findSome?_append, List.findSome?_singleton] at means
    unfold afterRead
    cases found : readInner? name environment.inner with
    | some inner =>
      have bound : environment.inner.findSome? (fun scope => scope.get? name) ≠ none := by
        rw [Ne, ← readInner?_eq_none_iff, found]
        exact Option.some_ne_none _
      obtain ⟨inside, held⟩ := Option.ne_none_iff_exists'.1 bound
      rw [held] at means
      cases means
      dsimp only
      rw [readInner?_of_unchanged held unchanged found]
    | none =>
      rw [(readInner?_eq_none_iff environment.inner).1 found] at means
      dsimp only
      rw [modify_of_unchanged means unchanged]
  unfold read
  rw [means, same]

/-- Reading a binding without a limit gives its value and changes nothing. -/
theorem read_of_unlimited {environment : Environment} {unlimited : Value}
    (means : environment.find? name = some ⟨unlimited, .unlimited⟩) :
    environment.read name = (.ok unlimited, environment) :=
  read_of_unchanged means rfl

/-! ### Reading a binding of its own scope -/

variable {bound : String} {value : Value} {allowance : Allowance}

theorem get?_bindingScope :
    (bindingScope bound value allowance).get? name =
      if name = bound then some ⟨value, allowance⟩ else none := by
  unfold bindingScope
  rw [Dictionary.get?_insert, Dictionary.get?_empty]

theorem modify_bindingScope :
    (bindingScope name value allowance).modify name Binding.afterRead =
      bindingScope name value allowance.afterUse := by
  unfold bindingScope Dictionary.modify Dictionary.insert Dictionary.erase Dictionary.empty
  simp [Binding.afterRead]

theorem readInner?_bindingScope_self :
    readInner? name [bindingScope name value allowance] =
      some [bindingScope name value allowance.afterUse] := by
  rw [readInner?_cons]
  unfold Dictionary.contains
  rw [get?_bindingScope, if_pos rfl, modify_bindingScope]
  rfl

theorem readInner?_bindingScope_of_ne (other : name ≠ bound) :
    readInner? name [bindingScope bound value allowance] = none := by
  rw [readInner?_cons]
  unfold Dictionary.contains
  rw [get?_bindingScope, if_neg other]
  rfl

/-- A name is bound inside the scope of a binding if it is the name of the binding or is bound
around it. -/
theorem contains_bindingScope (outer : Environment) :
    (within [bindingScope bound value allowance] outer).contains name =
      (decide (name = bound) || outer.contains name) := by
  rw [contains_within, List.findSome?_singleton, get?_bindingScope]
  by_cases same : name = bound
  · rw [if_pos same, decide_eq_true same]
    rfl
  · rw [if_neg same, decide_eq_false same]
    rfl

/-- A read that the scopes opened inside catch. -/
theorem read_holding_of_bound {opened opened' : List Scope}
    (found : readInner? name opened = some opened') :
    ∃ result, ∀ bound value allowance outer,
      (holding opened bound value allowance outer).read name =
        (result, holding opened' bound value allowance outer) := by
  obtain ⟨result, reads⟩ := read_within_of_bound found
  exact ⟨result, fun bound value allowance outer => reads _⟩

/-- A read of another name, which passes the scope of the binding. -/
theorem read_holding_of_ne {opened : List Scope} (unbound : readInner? name opened = none)
    (other : name ≠ bound) (outer : Environment) :
    (holding opened bound value allowance outer).read name =
      ((outer.read name).1, holding opened bound value allowance (outer.read name).2) := by
  unfold holding
  rw [read_within_of_unbound unbound,
    read_within_of_unbound (readInner?_bindingScope_of_ne other)]

/-- A read of the binding. -/
theorem read_holding_self {opened : List Scope} (unbound : readInner? name opened = none)
    (outer : Environment) :
    (holding opened name value allowance outer).read name =
      (Binding.answer ⟨value, allowance⟩ name,
        holding opened name value allowance.afterUse outer) := by
  have means : (within [bindingScope name value allowance] outer).find? name =
      some ⟨value, allowance⟩ := by
    rw [find?_within, List.findSome?_singleton, get?_bindingScope, if_pos rfl, Option.some_or]
  unfold holding
  rw [read_within_of_unbound unbound]
  unfold read afterRead
  rw [means]
  dsimp only
  unfold within
  rw [readInner?_append, readInner?_bindingScope_self]

/-- What the innermost scope binds is read there, and the read counts. -/
theorem read_bindingScope_self (outer : Environment) :
    (within [bindingScope name value allowance] outer).read name =
      ((⟨value, allowance⟩ : Binding).answer name,
        within [bindingScope name value allowance.afterUse] outer) :=
  show (holding [] name value allowance outer).read name = _ from read_holding_self rfl outer

theorem contains_holding (opened : List Scope) (outer : Environment)
    (allowance allowance' : Allowance) :
    (holding opened bound value allowance outer).contains name =
      (holding opened bound value allowance' outer).contains name := by
  unfold holding
  rw [contains_within, contains_within, contains_within, contains_within,
    List.findSome?_singleton, List.findSome?_singleton, get?_bindingScope, get?_bindingScope]
  split <;> rfl

theorem contains_holding_self (opened : List Scope) (outer : Environment) :
    (holding opened name value allowance outer).contains name = true := by
  unfold holding
  rw [contains_within, contains_within, List.findSome?_singleton, get?_bindingScope, if_pos rfl]
  cases opened.findSome? fun scope => scope.get? name <;> rfl

theorem isBoundAt_holding (opened : List Scope) (outer : Environment) :
    (holding opened bound value allowance outer).isBoundAt outer.inner.length name =
      (readInner? name opened).isNone := by
  unfold isBoundAt
  have length : (holding opened bound value allowance outer).inner.length -
      (outer.inner.length + 1) = opened.length := by
    unfold holding within
    simp
  rw [length]
  unfold holding within
  dsimp only
  rw [List.take_left]

end Environment

end Reckon
