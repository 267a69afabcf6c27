/-
This file compares the faults that an engine finds in a text with those that
the parser finds in it. An engine reads a text without the blanks at its ends,
from the caches or anew, so it counts from the first character that is not
blank. The fault is the same one, but it is at the place the parser names only
if no blank begins the text, and for a fault at the end of the text only if none
ends it either.
-/

import Reckon.Proofs.Engine.KeptTrees
import Reckon.Proofs.Grammar.Places

namespace Reckon

variable {Memory : Type}

/-! ### Places that blanks leave alone -/

/-- A fault in a text is at the same place in what is left of the text without the blanks at its
ends. -/
def SyntaxError.StaysInPlace (source : String) (fault : SyntaxError) : Prop :=
  leadingBlanks source = 0 ∧
    (fault.position < source.length ∨ (trimmed source).length = source.length)

instance (source : String) (fault : SyntaxError) : Decidable (fault.StaysInPlace source) :=
  inferInstanceAs (Decidable (_ ∧ _))

/-- Only the end of a text is moved by the blanks after it, and everything by those before it. -/
theorem placeAround_eq_self_iff {source : String} {place : Nat}
    (within : place ≤ (trimmed source).length) :
    placeAround source place = place ↔
      leadingBlanks source = 0 ∧
        (placeAround source place < source.length ∨ (trimmed source).length = source.length) := by
  obtain ⟨trailing, length⟩ := length_eq_leading_trimmed source
  unfold placeAround
  split <;> omega

theorem Expression.placed_placeAround_iff {source : String} {fault : SyntaxError}
    (read : Expression.parse (trimmed source) = .error fault) :
    fault.placed (placeAround source) = fault ↔
      (fault.placed (placeAround source)).StaysInPlace source := by
  unfold SyntaxError.StaysInPlace
  rw [placed_eq_self_iff read, placeAround_eq_self_iff (position_le_of_parse read),
    SyntaxError.position_placed]

/-! ### Engines -/

namespace Engine

/-- An engine that keeps right trees reads a text as the parser reads it without the blanks at its
ends, whether it keeps its tree or not. -/
theorem compile_of_rightTrees {engine : Engine Memory} (right : engine.state.KeepsRightTrees)
    {source : String} (filled : trimmed source ≠ "") :
    (engine.compile source).1 = (Expression.parse (trimmed source)).mapError .syntactic := by
  unfold compile
  dsimp only
  rw [if_neg filled, fst_reporting]
  exact (right.treeOf _ _).1

/-- Whatever calls an engine has been through, it finds the faults that the parser finds, but
counts their places from the first character of the text that is not blank. So it agrees with the
parser on a text exactly if the text is an expression, or its fault stays in place. -/
theorem compile_eq_parse_iff (platform : Platform) (configuration : Configuration)
    (memory : Memory) (calls : List (Call Memory)) (source : String)
    (filled : trimmed source ≠ "") :
    let engine := ((Engine.new platform configuration memory).answerAll id calls).2
    let answer := (engine.compile source).1
    answer = (Expression.parse (trimmed source)).mapError .syntactic ∧
      Expression.parse source =
        (Expression.parse (trimmed source)).mapError
          (SyntaxError.placed (placeAround source)) ∧
      (answer = (Expression.parse source).mapError .syntactic ↔
        ∀ fault, Expression.parse source = .error fault → fault.StaysInPlace source) := by
  intro engine answer
  have compiled : answer = (Expression.parse (trimmed source)).mapError .syntactic :=
    compile_of_rightTrees (rightTrees_of_calls platform configuration memory calls) filled
  have parsed := Expression.parse_eq_placed source
  refine ⟨compiled, parsed, ?_⟩
  rw [compiled, parsed]
  cases read : Expression.parse (trimmed source) with
  | ok tree => exact ⟨fun _ => nofun, fun _ => rfl⟩
  | error fault =>
    have stays := Expression.placed_placeAround_iff read
    simp only [Except.mapError, Except.error.injEq, EngineError.syntactic.injEq, forall_eq']
    exact eq_comm.trans stays

/-- A fault after which blanks stand, but which is not at the end of the text, stays in place. -/
theorem compile_eq_parse_iff_closing :
    let platform : Platform := ⟨fun _ _ => .distant, 0⟩
    let calls : List (Call Unit) := [.compile "1 + ) ", .compile "2"]
    let answer := (((Engine.new platform {} ()).answerAll id calls).2.compile "1 + ) ").1
    trimmed "1 + ) " ≠ "" ∧
      Expression.parse "1 + ) " = .error ⟨.expressionExpected, 4⟩ ∧
      answer = .error (.syntactic ⟨.expressionExpected, 4⟩) := by
  intro platform calls answer
  have failed : Expression.parse "1 + ) " = .error ⟨.expressionExpected, 4⟩ := rfl
  have filled : trimmed "1 + ) " ≠ "" := by decide
  have agrees := (compile_eq_parse_iff platform {} () calls "1 + ) " filled).2.2
  refine ⟨filled, failed, (agrees.mpr fun fault found => ?_).trans (by rw [failed]; rfl)⟩
  rw [failed] at found
  cases found
  decide

/-- A blank before a text moves the fault that the parser finds in it, and the engine does not
tell. -/
theorem compile_ne_parse_indented :
    let engine := Engine.new ⟨fun _ _ => .distant, 0⟩ {} ()
    trimmed " 1 +" ≠ "" ∧
      (engine.compile " 1 +").1 = .error (.syntactic ⟨.expressionExpected, 3⟩) ∧
      Expression.parse " 1 +" = .error ⟨.expressionExpected, 4⟩ ∧
      (engine.compile " 1 +").1 ≠ (Expression.parse " 1 +").mapError .syntactic := by
  intro engine
  have compiled : (engine.compile " 1 +").1 =
      .error (.syntactic ⟨.expressionExpected, 3⟩) := rfl
  have parsed : Expression.parse " 1 +" = .error ⟨.expressionExpected, 4⟩ := rfl
  refine ⟨by decide, compiled, parsed, ?_⟩
  rw [compiled, parsed]
  exact nofun

end Engine

end Reckon
