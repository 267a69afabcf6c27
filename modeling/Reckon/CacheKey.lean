/-
This file says when two evaluations share a result. A key holds the text of an
expression and the variables it is evaluated against, in the order of their
names. A value enters a key as far as equality of values sees it: numbers of
both kinds by the binary number they denote, the two zeros as one.
-/

import Reckon.Value

namespace Reckon

/-- What of a value enters a key. -/
inductive Fingerprint where
  | null
  | boolean (truth : Bool)
  | number (number : Binary64)
  | text (content : String)
  | domain (member : DomainValue)
  deriving DecidableEq

namespace Fingerprint

/-- The fingerprint of a value. -/
def ofValue : Value → Fingerprint
  | .null => .null
  | .boolean truth => .boolean truth
  | .integer amount => .number (.ofInt64 amount)
  | .float amount => .number amount.withoutZeroSign
  | .text content => .text content
  | .domain member => .domain member

end Fingerprint

/-- The key of an evaluation. -/
structure CacheKey where
  expression : String
  fingerprints : List (String × Fingerprint)
  deriving DecidableEq

namespace CacheKey

/-- The key of an expression and a list of variables. Variables of one name keep their
order. -/
def ofVariables (expression : String) (given : List (String × Value)) : CacheKey where
  expression := expression
  fingerprints :=
    (given.mergeSort fun first second => decide (first.1 ≤ second.1)).map
      fun (name, value) => (name, .ofValue value)

/-- The names in a key, in order. -/
def names (key : CacheKey) : List String :=
  key.fingerprints.map Prod.fst

/-- Whether a key holds no variable. -/
def isClosed (key : CacheKey) : Bool :=
  key.fingerprints.isEmpty

end CacheKey

end Reckon
