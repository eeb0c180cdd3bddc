import Precedence.Proofs.Expr.Outline
import Precedence.Proofs.Grammar.Leaves
import Precedence.Proofs.Grammar.Literals
import Precedence.Proofs.Grammar.ReservedWords

/-!
# The outline of an expression that was made of a text

No identifier of a text is named with a line feed, but a string or regular expression may go on in
another line, and is written to the outline as it is. So an outline has a line for each node and one
more for each line feed in a literal. Where there is none, the shape of the expression can be read
from its outline (`outline_lines`).
-/

namespace Precedence

namespace Grammar

open Text

variable {options : GrammarOptions}

theorem Conserves.namedInLine {text : String} {tokens : List Token} {e : Expr}
    (htokens : tokenize ⟨options, lexer options⟩ text = .ok tokens)
    (h : Conserves options e.leaves tokens) : e.NamedInLine := by
  intro name span hleaf hmem
  obtain ⟨i, hi, hget⟩ := List.mem_iff_getElem.mp hleaf
  have hlt : i < (operandTokens tokens).length := h.length_eq ▸ hi
  have hleafOf := (List.forall₂_iff_get.mp h).2 i hi hlt
  rw [List.get_eq_getElem, List.get_eq_getElem, hget] at hleafOf
  have ht : (operandTokens tokens)[i] ∈ tokens := (List.mem_filter.mp (List.getElem_mem hlt)).1
  obtain ⟨before, rest, s, offset, hs, htoken⟩ := exists_segment_of_mem htokens ht
  cases hleafOf with
  | identifier _ hk =>
    have hof := Classifier.isTokenOf_of_token htoken
    obtain ⟨c, w, behind, -, hc, hw, -, rfl⟩ :=
      identifier_segment_iff.mp ((segment_of_kind hs).2.2 (hof.kind ▸ hk))
    rw [textValue_of_identifier hs htoken hk, hof.text, String.toList_ofList] at hmem
    have hword : IsWord (c :: w) := ⟨c, w, rfl, hc, hw⟩
    exact (inLine_of_part (hword.part _ hmem)).1 rfl

/-- For options without a fault, the outline of an expression that was made of a text has a line
for each node and one more for each line feed in a literal. Unless there is a line feed in one, the
lines are those of the nodes in their order, each with the depth and the kind of its node, and the
shape of the expression can be read from them. -/
theorem outline_lines (h : options.validate = .ok options) :
    ∃ grammar, ofOptions options = .ok grammar ∧ ∀ text e, grammar.parse text = .ok e →
      (endedLines e.outline.toList).length = (e.nodes 0).length + e.lineFeeds ∧
      ((∀ l ∈ e.literals, '\n' ∉ l.2.toList) →
        List.Forall₂ Expr.Begins (endedLines e.outline.toList) (e.nodes 0) ∧
        Shape.ofOutline e.outline.toList = [e.shape]) := by
  have hfault := (GrammarOptions.fault?_of_validate h).1
  have hnodup := GrammarOptions.nodup_of_fault?_eq_none hfault
  refine ⟨_, ofOptions_eq hfault, fun text e hparse => ?_⟩
  obtain ⟨tokens, htokens, hparse⟩ := parse_eq_ok hparse
  obtain ⟨d, -, hderived⟩ := (parseTokens_eq_ok_iff hnodup).mp hparse
  have hnamed := hderived.conserves.namedInLine htokens
  exact ⟨Expr.length_endedLines_outline hnamed, fun hraws =>
    ⟨Expr.forall₂_begins hnamed hraws, Expr.ofOutline_outline hnamed hraws⟩⟩

theorem conjunction_outline_lines : GrammarOptions.standard.validate = .ok .standard ∧
    ∃ grammar, ofOptions .standard = .ok grammar ∧ ∃ e, grammar.parse "x AND x AND x" = .ok e ∧
      (endedLines e.outline.toList).length = (e.nodes 0).length + e.lineFeeds ∧
      (∀ l ∈ e.literals, '\n' ∉ l.2.toList) ∧
      List.Forall₂ Expr.Begins (endedLines e.outline.toList) (e.nodes 0) ∧
      Shape.ofOutline e.outline.toList = [e.shape] := by
  have hop : BinaryOperator.and ∈ GrammarOptions.standard.precedence.flatten := by decide
  obtain ⟨e, hparse, hspans⟩ := chain_parses rfl hop name_reparses (Nat.zero_le _) 2
  have hvalidate : GrammarOptions.standard.validate = .ok .standard := rfl
  obtain ⟨grammar, hgrammar, houtline⟩ := outline_lines hvalidate
  obtain rfl := Except.ok.inj ((ofOptions_eq rfl).symm.trans hgrammar)
  obtain ⟨hlength, hread⟩ := houtline _ e hparse
  have hraws : ∀ l ∈ e.literals, '\n' ∉ l.2.toList := by
    rw [Expr.literals_congr hspans]
    exact List.forall_mem_nil _
  obtain ⟨hbegins, hshape⟩ := hread hraws
  exact ⟨hvalidate, _, hgrammar, e, hparse, hlength, hraws, hbegins, hshape⟩

/-- A string that goes on in another line is one node, and its outline has two lines, the second of
which does not begin with a kind. -/
theorem broken_string_outlined : GrammarOptions.standard.validate = .ok .standard ∧
    ∃ grammar, ofOptions .standard = .ok grammar ∧ ∃ e, grammar.parse "'a\nb'" = .ok e ∧
      (e.nodes 0).length = 1 ∧
      endedLines e.outline.toList = ["Literal 'a".toList, "b' (string)".toList] := by
  have hplain : ∀ c ∈ ['a', '\n', 'b'], c ≠ '\'' ∧ c ≠ '\\' := by simp
  have hquoted : IsQuoted '\'' ['a', '\n', 'b'] := IsQuoted.nil.append hplain
  have htokens : tokenize ⟨.standard, lexer .standard⟩ "'a\nb'" =
      .ok [⟨.string, "'a\nb'", .text "a\nb", [some "a\nb"], ⟨0, 5⟩, ⟨1, 1⟩⟩] :=
    tokenize_of_single (quoted_taken (Or.inl rfl) hquoted none []) (by decide) rfl
  refine ⟨rfl, _, ofOptions_eq rfl, _, parse_of_single rfl htokens rfl, ?_, ?_⟩
  · rw [Expr.nodes_eq]
    rfl
  · decide +kernel

end Grammar

end Precedence
