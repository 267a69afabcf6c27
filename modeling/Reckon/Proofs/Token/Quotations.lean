/-
This file shows that quoted texts are read exactly as they were written. The
reader takes a literal as one token, whatever its content and whatever follows
it: the token holds the content, and the reading goes on with the first
character after the closing quote.

Inside the quotes every quote and every backslash is escaped, so the first
quote that stands alone is the closing one. No literal is the beginning of
another for the same reason, and a text that begins with a literal can be cut
behind it in one way only.
-/

import Reckon.Proofs.Token.Words

namespace Reckon

/-- A literal is its content, escaped, between two quotes. -/
theorem toList_quoted (content : String) :
    (quoted content).toList = '"' :: (content.toList.flatMap escaped ++ ['"']) :=
  String.toList_ofList

/-- A literal is read as one token with its content, and the reading goes on behind it. -/
theorem scanFrom_quoted (position : Nat) (content : String) (tail : List Char) :
    let literal : Token := ⟨.text content, quoted content, position⟩
    let later := scanFrom literal.stop 0 tail
    scanFrom position 0 ((quoted content).toList ++ tail) =
      ⟨literal :: later.tokens, later.failure⟩ := by
  intro literal later
  have stop : literal.stop =
      position + 1 + (content.toList.flatMap escaped ++ ['"']).length := by
    show position + (quoted content).length = _
    rw [← String.length_toList, toList_quoted, List.length_cons, Nat.add_assoc, Nat.add_comm 1]
  have recognised := recognise_quoted position content tail
  rw [toList_quoted, scanFrom_token (by decide) recognised, ← stop]
  rfl

/-- A text that begins with a literal tells what the literal holds and what follows it. -/
theorem quoted_append_inj {content content' : String} {tail tail' : List Char} :
    (quoted content).toList ++ tail = (quoted content').toList ++ tail' ↔
      content = content' ∧ tail = tail' := by
  refine ⟨fun same => ?_, fun ⟨same, same'⟩ => same ▸ same' ▸ rfl⟩
  rw [toList_quoted, toList_quoted, List.cons_append, List.cons_append] at same
  have inner := (List.cons.inj same).2
  rw [List.append_assoc, List.append_assoc, List.singleton_append, List.singleton_append] at inner
  have read := quotedContent?_append content.toList tail
  rw [inner, quotedContent?_append] at read
  obtain rfl : content' = content := String.toList_inj.mp (Prod.mk.inj (Option.some.inj read)).1
  exact ⟨rfl, (List.cons.inj (List.append_cancel_left inner)).2⟩

/-- Backslashes and quotes next to the closing quote do not hide it. -/
example : (scan (quoted "\\\"\\" ++ "\"")).tokens =
    [⟨.text "\\\"\\", "\"\\\\\\\"\\\\\"", 0⟩] := by
  decide +kernel

end Reckon
