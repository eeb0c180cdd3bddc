import Precedence.Proofs.Grammar.Exists
import Precedence.Proofs.Grammar.Soundness
import Precedence.Proofs.Grammar.Verdict

/-!
# A parse is a derivation

A grammar parses a row of tokens exactly if the row is derived, with the same tree, by a derivation
that is no deeper than the nesting limit (`parseTokens_eq_ok_iff`); a row that is derived, but too
deep, is refused for that. Options without a fault have no operator twice, and make a grammar.
-/

namespace Precedence

namespace GrammarOptions

theorem faultInLevel?_eq_none {regexLiterals : Bool} : ∀ {ops seen : List BinaryOperator},
    faultInLevel? regexLiterals seen ops = none →
      ops.Nodup ∧ (∀ op ∈ ops, op ∉ seen) ∧ (.divide ∈ ops → regexLiterals = false)
  | [], _, _ => by simp
  | op :: ops, seen, h => by
    unfold faultInLevel? at h
    split_ifs at h with hslash hseen
    obtain ⟨hnodup, hfresh, hdivide⟩ := faultInLevel?_eq_none h
    refine ⟨List.nodup_cons.mpr ⟨fun hop => hfresh op hop List.mem_cons_self, hnodup⟩, ?_, ?_⟩
    · intro op' hop'
      rcases List.mem_cons.mp hop' with rfl | hop'
      · simpa using hseen
      · exact fun hs => hfresh op' hop' (List.mem_cons_of_mem _ hs)
    · intro hop
      rcases List.mem_cons.mp hop with rfl | hop
      · simpa using hslash
      · exact hdivide hop

theorem faultInLevels?_eq_none {regexLiterals : Bool} : ∀ {levels : List (List BinaryOperator)}
    {seen : List BinaryOperator} {number : Nat},
    faultInLevels? regexLiterals seen number levels = none →
      levels.flatten.Nodup ∧ (∀ op ∈ levels.flatten, op ∉ seen) ∧
        (.divide ∈ levels.flatten → regexLiterals = false)
  | [], _, _, _ => by simp
  | level :: levels, seen, number, h => by
    unfold faultInLevels? at h
    split_ifs at h with hempty
    rw [Option.orElse_eq_orElse, Option.orElse_eq_or, Option.or_eq_none_iff] at h
    obtain ⟨hlevel, hfresh, hdivide⟩ := faultInLevel?_eq_none h.1
    obtain ⟨hlevels, hfresh', hdivide'⟩ := faultInLevels?_eq_none h.2
    rw [List.flatten_cons, List.nodup_append]
    refine ⟨⟨hlevel, hlevels, fun op hop op' hop' heq => ?_⟩, fun op hop => ?_, fun hop => ?_⟩
    · exact hfresh' op' hop' (List.mem_append_left _ (heq ▸ hop))
    · rcases List.mem_append.mp hop with hop | hop
      · exact hfresh op hop
      · exact fun hs => hfresh' op hop (List.mem_append_right _ hs)
    · exact (List.mem_append.mp hop).elim hdivide hdivide'

/-- Such options have no operator twice, and no slash that could open a regular expression. -/
theorem table_of_fault?_eq_none {options : GrammarOptions} (h : options.fault? = none) :
    options.precedence.flatten.Nodup ∧
      (.divide ∈ options.precedence.flatten → options.regexLiterals = false) := by
  unfold fault? at h
  split_ifs at h
  obtain ⟨hnodup, -, hdivide⟩ := faultInLevels?_eq_none h
  exact ⟨hnodup, hdivide⟩

theorem nodup_of_fault?_eq_none {options : GrammarOptions} (h : options.fault? = none) :
    options.precedence.flatten.Nodup :=
  (table_of_fault?_eq_none h).1

theorem fault?_of_validate {options options' : GrammarOptions}
    (h : options.validate = .ok options') : options.fault? = none ∧ options = options' := by
  unfold validate at h
  rcases hf : options.fault? with _ | fault
  · rw [hf] at h
    exact ⟨rfl, by simpa using h⟩
  · rw [hf] at h
    simp at h

end GrammarOptions

namespace Grammar

open Trace

variable {options : GrammarOptions} {tokens : List Token} {e : Expr}

section Verdicts

variable {tokens : Array Token} {c : List Part} {q : Nat} (record : FailureRecord)

theorem verdict_of_furthest (h : q < tokens.size) (hf : q < record.furthest) :
    verdict (some c) ((ParseState.ofTokens tokens).moved record q none) =
      .error (unexpected tokens record.expected record.furthest) :=
  (if_pos (decide_eq_true h)).trans (if_pos hf)

theorem verdict_of_left (h : q < tokens.size) (hf : ¬ q < record.furthest) :
    verdict (some c) ((ParseState.ofTokens tokens).moved record q none) =
      .error (trailing tokens q) :=
  (if_pos (decide_eq_true h)).trans (if_neg hf)

/-- Where tokens are left over, there is no tree. -/
theorem verdict_of_more (h : q < tokens.size) : ∃ failure,
    verdict (some c) ((ParseState.ofTokens tokens).moved record q none) = .error failure := by
  by_cases hf : q < record.furthest
  · exact ⟨_, verdict_of_furthest record h hf⟩
  · exact ⟨_, verdict_of_left record h hf⟩

theorem verdict_of_end (h : ¬ q < tokens.size) :
    verdict (some c) ((ParseState.ofTokens tokens).moved record q none) =
      match c.head?.bind Part.expr? with
      | some e => .ok e
      | none => .error (unexpected tokens record.expected record.furthest) := by
  show (if decide (q < tokens.size) = true then _ else _) = _
  rw [if_neg (by simpa using h)]
  rfl

end Verdicts

theorem verdictOf_eq_ok_iff {tokens : Array Token} {t : Trace Production (Outcome Part)} :
    verdictOf tokens t = .ok e ↔
      ∃ c q, t.Reads c q ∧ tokens.size ≤ q ∧ c.head?.bind Part.expr? = some e := by
  unfold verdictOf Reads
  rcases t.result with i | _ | ⟨c, q⟩
  · simp
  · simp [verdict, ParseState.ofTokens, ParseState.moved]
  · simp only [Option.map_some, Option.getD_some]
    by_cases hnext : q < tokens.size
    · obtain ⟨failure, hfailure⟩ := verdict_of_more (c := c)
        (FailureRecord.noteAll ⟨0, []⟩ t.failures) hnext
      simp only [hfailure, reduceCtorEq, false_iff]
      rintro ⟨c', q', hcq, hq, -⟩
      obtain ⟨rfl, rfl⟩ : c = c' ∧ q = q' := by simpa using hcq
      exact absurd hnext (Nat.not_lt.mpr hq)
    · rw [verdict_of_end _ hnext]
      constructor
      · intro h
        refine ⟨c, q, rfl, Nat.le_of_not_lt hnext, ?_⟩
        rcases hc : c.head?.bind Part.expr? with _ | e'
        · simp [hc] at h
        · simpa [hc] using h
      · rintro ⟨c', q', hcq, -, hc⟩
        obtain ⟨rfl, rfl⟩ : c = c' ∧ q = q' := by simpa using hcq
        rw [hc]

/-- A parse gives a tree exactly if the whole row is derived with it, and not too deep. -/
theorem parseTokens_eq_ok_iff {grammar : Grammar}
    (hnodup : grammar.options.precedence.flatten.Nodup) :
    grammar.parseTokens tokens = .ok e ↔
      ∃ d ≤ nestingLimit, Compound grammar.options .program d tokens e := by
  rw [parseTokens_eq, verdictOf_eq_ok_iff]
  constructor
  · rintro ⟨c, q, hread, hq, hc⟩
    obtain ⟨d, ts, e', hd, he, hs, rfl⟩ := program_sound nestingLimit 0 c q hread
    obtain ⟨rfl, -⟩ := (Spans.whole_iff (hs.le_size (Nat.zero_le _))).mp ⟨hs, hq⟩
    obtain rfl : e' = e := by simpa [Part.expr?] using hc
    exact ⟨d, hd, he⟩
  · rintro ⟨d, hd, he⟩
    exact ⟨_, _, (program_complete hnodup he nestingLimit).1 hd, Nat.le_refl _, rfl⟩

/-- A row that is derived, but too deep, is refused for that. -/
theorem parseTokens_of_tooDeep {grammar : Grammar}
    (hnodup : grammar.options.precedence.flatten.Nodup) {d : Nat}
    (h : Compound grammar.options .program d tokens e) (hd : nestingLimit < d) :
    ∃ i, grammar.parseTokens tokens = .error (tooDeep tokens.toArray i) := by
  obtain ⟨i, hi⟩ := (program_complete hnodup h nestingLimit).2 (Nat.not_le.mpr hd)
  exact ⟨i, by rw [parseTokens_eq, verdictOf, hi]⟩

theorem parse_of_tokenize {grammar : Grammar} {text : String}
    (h : grammar.tokenize text = .ok tokens) : grammar.parse text = grammar.parseTokens tokens := by
  rw [parse, h]
  rfl

theorem parse_eq_ok {grammar : Grammar} {text : String} (h : grammar.parse text = .ok e) :
    ∃ tokens, grammar.tokenize text = .ok tokens ∧ grammar.parseTokens tokens = .ok e := by
  rcases ht : grammar.tokenize text with failure | tokens
  · rw [parse, ht] at h
    cases h
  · exact ⟨tokens, rfl, parse_of_tokenize ht ▸ h⟩

/-- A text whose tokens are derived as a single operand is parsed as that operand. -/
theorem parse_of_unary {grammar : Grammar} (hfault : grammar.options.fault? = none) {text : String}
    (htokens : grammar.tokenize text = .ok tokens) {d : Nat} (h : Unary grammar.options d tokens e)
    (hd : d ≤ nestingLimit) : grammar.parse text = .ok e := by
  have hcompound := (Expression.test d tokens e (h.level _)).compound .program
  rw [parse_of_tokenize htokens]
  exact (parseTokens_eq_ok_iff (GrammarOptions.table_of_fault?_eq_none hfault).1).mpr
    ⟨_, hd, hcompound⟩

/-- For options without a fault, whichever strategy they ask for, a row of tokens has a tree exactly
if it is derived with it, and no deeper than the nesting limit. -/
theorem parses_iff_derived (h : options.validate = .ok options) :
    ∃ grammar, ofOptions options = .ok grammar ∧ ∀ tokens e,
      grammar.parseTokens tokens = .ok e ↔
        ∃ d ≤ nestingLimit, Compound options .program d tokens e := by
  have hfault := (GrammarOptions.fault?_of_validate h).1
  exact ⟨_, ofOptions_eq hfault, fun tokens e =>
    parseTokens_eq_ok_iff (GrammarOptions.nodup_of_fault?_eq_none hfault)⟩

theorem extended_parses_iff_derived : GrammarOptions.extended.validate = .ok .extended ∧
    ∃ grammar, ofOptions .extended = .ok grammar ∧ ∀ tokens e,
      grammar.parseTokens tokens = .ok e ↔
        ∃ d ≤ nestingLimit, Compound .extended .program d tokens e :=
  ⟨rfl, parses_iff_derived rfl⟩

end Grammar

end Precedence
