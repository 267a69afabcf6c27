/-
This file lists the events an engine keeps a journal of: the visits and calls
of an evaluation in debug mode, the look-ups in its caches, the outcome of
evaluations, the functions added to it, and the calls of its logger and its
error handler. The journal holds the latest event first.
-/

import Reckon.Engine.Error

namespace Reckon

/-- The sorts of nodes that a visit tells apart. -/
inductive NodeSort where
  | literal
  | variable
  | binary
  | unary
  | ternary
  | binding
  | conditional
  | call
  | cast
  | grouping
  deriving DecidableEq

namespace NodeSort

/-- The sort of an expression. -/
def ofExpression : Expression → NodeSort
  | .integer _ | .float _ | .text _ | .boolean _ | .null => .literal
  | .variable _ => .variable
  | .binary _ _ _ => .binary
  | .unary _ _ => .unary
  | .ternary _ _ _ => .ternary
  | .binding _ _ _ _ => .binding
  | .conditional _ _ => .conditional
  | .call _ _ _ => .call
  | .cast _ _ => .cast
  | .grouping _ => .grouping

/-- What a sort is called. -/
def name : NodeSort → String
  | .literal => "literal"
  | .variable => "variable"
  | .binary => "binary"
  | .unary => "unary"
  | .ternary => "ternary"
  | .binding => "let"
  | .conditional => "conditional"
  | .call => "call"
  | .cast => "cast"
  | .grouping => "grouping"

end NodeSort

/-- An event in the life of an engine. -/
inductive Event where
  /-- A node was visited at a depth. -/
  | visited (depth : Nat) (sort : NodeSort)
  /-- A function was called. -/
  | called (function : String) (arguments : Nat) (hint : Option String)
  /-- The cache of results was asked for an expression, which it held or not. -/
  | resultLookup (found : Bool) (expression : String)
  /-- The cache of trees was asked for an expression, which it held or not. -/
  | treeLookup (found : Bool) (expression : String)
  /-- An evaluation ended in a value. -/
  | completed (result : Value) (visits : Nat)
  /-- A call of the engine ended in an error. -/
  | failed (error : EngineError)
  /-- A host function was added. -/
  | registered (function : String)
  /-- A function was defined. -/
  | defined (function : String)
  /-- The logger was called. -/
  | logged (message : String) (arguments : List Value)
  /-- The error handler was called. -/
  | handled (error : EngineError)

/-- How detailed a trace record is. -/
inductive TraceLevel where
  | trace
  | debug
  deriving DecidableEq

namespace TraceLevel

/-- What a level is called. -/
def name : TraceLevel → String
  | .trace => "TRACE"
  | .debug => "DEBUG"

end TraceLevel

/-- An event as a trace shows it. -/
structure TraceRecord where
  level : TraceLevel
  message : String
  fields : List (String × String)
  deriving DecidableEq

namespace Event

/-- The trace record of an event. The calls of the logger and of the error handler leave
none. -/
def record? : Event → Option TraceRecord
  | .visited depth sort =>
    some ⟨.trace, "visit", [("depth", toString depth), ("node", sort.name)]⟩
  | .called function arguments hint =>
    some ⟨.debug, "call", [("function", function), ("args", toString arguments)] ++
      (hint.map fun hint => ("hint", hint)).toList⟩
  | .resultLookup true expression =>
    some ⟨.debug, "eval cache hit", [("expression", expression)]⟩
  | .resultLookup false expression =>
    some ⟨.debug, "eval cache miss", [("expression", expression)]⟩
  | .treeLookup true expression =>
    some ⟨.trace, "parse cache hit", [("expression", expression)]⟩
  | .treeLookup false expression =>
    some ⟨.trace, "parse cache miss", [("expression", expression)]⟩
  | .completed result visits =>
    some ⟨.debug, "evaluation completed",
      [("result", result.shown), ("visits", toString visits)]⟩
  | .failed error =>
    some ⟨.debug, "evaluation failed", [("error", error.message), ("kind", error.kind.name)]⟩
  | .registered function => some ⟨.debug, "registering function", [("function", function)]⟩
  | .defined function => some ⟨.debug, "defining function", [("function", function)]⟩
  | .logged _ _ => none
  | .handled _ => none

end Event

/-- How often the caches of trees and of results were asked, and how often they held what was
asked for. -/
structure Lookups where
  trees : Nat := 0
  treesFound : Nat := 0
  results : Nat := 0
  resultsFound : Nat := 0
  deriving DecidableEq

namespace Lookups

/-- The tally with one more event. -/
def count (lookups : Lookups) : Event → Lookups
  | .treeLookup found _ =>
    { lookups with
      trees := lookups.trees + 1, treesFound := lookups.treesFound + found.toNat }
  | .resultLookup found _ =>
    { lookups with
      results := lookups.results + 1, resultsFound := lookups.resultsFound + found.toNat }
  | _ => lookups

end Lookups

end Reckon
