/-
This file ties the texts of expressions to their derivations: a text is read as
a tree exactly if the tokens in it derive the tree.
-/

import Reckon.Proofs.Grammar.Completeness
import Reckon.Proofs.Token.Followed

namespace Reckon

namespace Grammar

variable {source : String} {kinds : List TokenKind} {tree : Expression}

theorem parse_of_scans (scans : Scans source.toList kinds) (derived : Derives kinds tree) :
    Expression.parse source = .ok tree := by
  obtain ⟨body, stop, lexed, rfl, noEnd⟩ := scans.tokenize
  rw [Expression.parse_of_lexed lexed]
  exact (ofTokens_eq_ok_iff noEnd).mpr derived

theorem exists_scans_of_parse (parsed : Expression.parse source = .ok tree) :
    ∃ kinds, Scans source.toList kinds ∧ (∀ kind ∈ kinds, Readable kind) ∧ Derives kinds tree := by
  cases lexed : tokenize source with
  | error cause =>
    unfold Expression.parse at parsed
    rw [lexed] at parsed
    cases parsed
  | ok tokens =>
    rw [Expression.parse_of_lexed lexed] at parsed
    obtain ⟨body, stop, rfl, all⟩ :=
      @tokenize_tokens (fun kind => Readable kind ∧ kind ≠ .endOfInput)
        (fun notBlank recognised =>
          ⟨readable_recognise notBlank recognised, recognise_ne_endOfInput recognised⟩)
        source _ lexed
    refine ⟨body.map Token.kind, scans_of_tokenize lexed, ?_, ?_⟩
    · exact List.forall_mem_map.mpr fun token member => (all token member).1
    · exact (ofTokens_eq_ok_iff fun token member => (all token member).2).mp parsed

end Grammar

end Reckon
