/-
This file holds the settings of an engine: limits of an evaluation, what
becomes of undefined names, and which names an expression may use.
-/

import Reckon.NameSet
import Reckon.Value

namespace Reckon

/-- The settings of an engine. -/
structure Configuration where
  /-- Undefined names are errors, instead of standing for `undefinedValue`. -/
  strictMode : Bool := true
  /-- How deep an evaluation may nest; `evaluationCeiling` holds in any case. -/
  maxRecursionDepth : UInt64 := 100
  /-- How many milliseconds an evaluation may take; zero sets no limit. -/
  evaluationTimeout : UInt64 := 0
  /-- After how many visited nodes the time is looked at. -/
  timeoutCheckInterval : UInt64 := 64
  /-- The logger is called, and visits and calls are recorded. -/
  debugMode : Bool := false
  /-- If not empty, the only variables that may be read. -/
  variableWhitelist : NameSet := .empty
  /-- Variables that may not be read. -/
  variableBlacklist : NameSet := .empty
  /-- If not empty, the only functions that may be called. -/
  functionWhitelist : NameSet := .empty
  /-- Functions that may not be called. -/
  functionBlacklist : NameSet := .empty
  /-- What undefined names stand for outside strict mode. -/
  undefinedValue : Value := .null
  /-- Results are kept for later evaluations. -/
  cacheEvaluations : Bool := true
  deriving DecidableEq, Inhabited

/-- No evaluation nests deeper than this, whatever the settings say. -/
def evaluationCeiling : Nat := 256

namespace Configuration

/-- Whether a filter of two sets lets a name through: the second refuses it first, and the
first, if not empty, must have it. -/
def admits (whitelist blacklist : NameSet) (name : String) : Bool :=
  !blacklist.contains name && (whitelist.isEmpty || whitelist.contains name)

/-- Whether a variable may be read. -/
def isVariableAllowed (configuration : Configuration) (name : String) : Bool :=
  admits configuration.variableWhitelist configuration.variableBlacklist name

/-- Whether a function may be called. -/
def isFunctionAllowed (configuration : Configuration) (name : String) : Bool :=
  admits configuration.functionWhitelist configuration.functionBlacklist name

/-- The milliseconds an evaluation may take, if they are limited. -/
def timeout? (configuration : Configuration) : Option UInt64 :=
  if configuration.evaluationTimeout = 0 then none else some configuration.evaluationTimeout

/-- How deep an evaluation may nest. -/
def depthLimit (configuration : Configuration) : Nat :=
  min configuration.maxRecursionDepth.toNat evaluationCeiling

/-- Whether two configurations agree. Undefined values agree when they are equal as values, so
an integer agrees with the binary number it equals. -/
def agrees (first second : Configuration) : Bool :=
  { first with undefinedValue := .null } == { second with undefinedValue := .null } &&
    first.undefinedValue.equals second.undefinedValue

end Configuration

end Reckon
