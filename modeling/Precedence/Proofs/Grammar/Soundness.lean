import Precedence.Proofs.Grammar.Recognition

/-!
# What is recognized is derived

Where a rule of the grammar reads something, the tokens that it read are derived, and what it
captured is their tree; the derivation is no deeper than there were levels left
(`expression_sound`, `program_sound`). The rule for expressions is reached again through a reference,
so that the induction is on the levels; within one level it follows how the rules are built.
-/

namespace Precedence.Grammar

open Trace

variable {options : GrammarOptions} {tokens : Array Token} {levels : Nat}
  {target : Nat → Option (Attempt Production Part)}

/-- Whatever an attempt reads is one expression that is derived, and not too deep. -/
def Derives (tokens : Array Token) (levels : Nat) (derived : Nat → List Token → Expr → Prop)
    (a : Attempt Production Part) : Prop :=
  ∀ p c q, (a p).Reads c q →
    ∃ d ts e, d ≤ levels ∧ derived d ts e ∧ Spans tokens p ts q ∧ c = [.expr e]

/-- An expression that stands a number of levels deeper. -/
def Deeper (options : GrammarOptions) (n d : Nat) (ts : List Token) (e : Expr) : Prop :=
  ∃ d', d = d' + n ∧ Expression options d' ts e

theorem reads_commas {p q : Nat} {c : List Part}
    (h : ((Rule.star (node options (.hole place) (.verbatim ",") Part.reduceHole)).trace tokens
      levels target p).Reads c q) :
    ∃ ts, (∀ t ∈ ts, t.IsVerbatim ",") ∧ Spans tokens p ts q ∧
      c = List.replicate ts.length (.expr .hole) := by
  refine Attempt.star_induction (P := fun p c q => ∃ ts : List Token,
    (∀ t ∈ ts, t.IsVerbatim ",") ∧ Spans tokens p ts q ∧
      c = List.replicate ts.length (.expr .hole)) (fun p => ⟨[], by simp, .nil p, rfl⟩)
    (fun p c m c' q h₁ ih => ?_) h
  obtain ⟨ts, hts, hs, rfl⟩ := ih
  obtain ⟨_, v, h₂, hv, rfl⟩ := Strategy.reads_node.mp h₁
  obtain ⟨t, ht, hv', rfl, rfl⟩ := Rule.reads_verbatim.mp h₂
  obtain rfl : Part.expr .hole = v := by simpa [Part.reduceHole] using hv
  exact ⟨t :: ts, by simpa using ⟨hv', hts⟩, .cons ht hs, rfl⟩

section Compounds

variable {place : Place} {expression : GrammarRule}
  (hx : Derives tokens levels (Deeper options place.levels)
    (expression.trace tokens levels target))

include hx

theorem assignable_sound : Derives tokens levels (Assignable options place)
    ((assignable options place expression).trace tokens levels target) := by
  have hexpression : Derives tokens levels (Assignable options place)
      (expression.trace tokens levels target) := by
    intro p c q h
    obtain ⟨_, ts, e, hd, ⟨d, rfl, he⟩, hs, rfl⟩ := hx _ _ _ h
    exact ⟨_, ts, e, hd, .expression place d ts e he, hs, rfl⟩
  unfold assignable
  by_cases ha : options.assignments
  · rw [if_pos ha]
    intro p c q h
    obtain ⟨r, hr, hread⟩ := Rule.exists_of_reads_any h
    rcases List.mem_cons.mp hr with rfl | hr
    · obtain ⟨c', v, hall, hv, rfl⟩ := Strategy.reads_node.mp hread
      simp only [Rule.reads_all_cons, Rule.reads_all_nil] at hall
      obtain ⟨_, _, _, h₁, ⟨_, _, _, h₂, ⟨_, _, _, h₃, ⟨rfl, rfl⟩, rfl⟩, rfl⟩, rfl⟩ := hall
      obtain ⟨t, ht, hk, rfl, rfl⟩ := reads_identifier.mp h₁
      obtain ⟨equals, hequals, hv', rfl, rfl⟩ := Rule.reads_verbatim.mp h₂
      obtain ⟨_, ts, e, hd, ⟨d, rfl, he⟩, hs, rfl⟩ := hx _ _ _ h₃
      refine ⟨_, t :: equals :: ts, _, hd, .assignment place ha t equals hk hv' d ts e he,
        .cons ht (.cons hequals hs), ?_⟩
      simpa [Part.reduceAssignment, eq_comm] using hv
    · obtain rfl : r = expression := by simpa using hr
      exact hexpression _ _ _ hread
  · rw [if_neg ha]
    exact hexpression

theorem elements_sound {p q : Nat} {c : List Part}
    (h : ((Rule.star (.all [elision options place, assignable options place expression])).trace
      tokens levels target p).Reads c q) :
    ∃ d ts es, d ≤ levels ∧ Elements options place d ts es ∧ Spans tokens p ts q ∧
      c = es.map .expr := by
  refine Attempt.star_induction (P := fun p c q => ∃ d ts es, d ≤ levels ∧
    Elements options place d ts es ∧ Spans tokens p ts q ∧ c = es.map .expr)
    (fun p => ⟨0, [], [], Nat.zero_le _, .nil place, .nil p, rfl⟩) (fun p c m c' q hall ih => ?_) h
  obtain ⟨d', us, es, hd', hes, hs', rfl⟩ := ih
  unfold elision at hall
  simp only [Rule.reads_all_cons, Rule.reads_all_nil] at hall
  obtain ⟨_, _, _, ⟨_, _, _, h₁, ⟨_, _, _, h₂, ⟨rfl, rfl⟩, rfl⟩, rfl⟩,
    ⟨_, _, _, h₃, ⟨rfl, rfl⟩, rfl⟩, rfl⟩ := hall
  obtain ⟨comma, hcomma, hv, rfl, rfl⟩ := Rule.reads_verbatim.mp h₁
  obtain ⟨commas, hcs, hs, rfl⟩ := reads_commas h₂
  obtain ⟨d, ts, e, hd, he, hs'', rfl⟩ := assignable_sound hx _ _ _ h₃
  refine ⟨_, _, _, ?_, .cons place comma hv commas hcs d ts e he d' us es hes,
    .cons hcomma (hs.append (hs''.append hs')), ?_⟩
  · omega
  · simp

theorem compound_sound : Derives tokens levels (Compound options place)
    ((compound options place expression).trace tokens levels target) := by
  intro p c q h
  obtain ⟨c', v, hall, hv, rfl⟩ := Strategy.reads_node.mp h
  simp only [Rule.reads_all_cons, Rule.reads_all_nil] at hall
  obtain ⟨_, _, _, h₁, ⟨_, _, _, h₂, ⟨rfl, rfl⟩, rfl⟩, rfl⟩ := hall
  obtain ⟨d, ts, e, hd, he, hs, rfl⟩ := assignable_sound hx _ _ _ h₁
  obtain ⟨d', us, es, hd', hes, hs', rfl⟩ := elements_sound hx h₂
  refine ⟨_, _, _, ?_, .elements place d ts e he d' us es hes, hs.append hs', ?_⟩
  · omega
  · have hv' : Part.reduceCompound ((e :: es).map .expr) ⟨tokens, p, q⟩ = some v := by
      simpa using hv
    rw [reduceCompound_map] at hv'
    simpa [eq_comm] using hv'

end Compounds

/-! ### Operators -/

section Nested

variable (hn : Derives tokens levels (Deeper options 1) (nested.trace tokens levels target))

include hn

theorem primary_sound : Derives tokens levels (Primary options)
    ((primary options).trace tokens levels target) := by
  intro p c q h
  obtain ⟨r, hr, hread⟩ := Rule.exists_of_reads_any h
  simp only [List.mem_cons, List.not_mem_nil, or_false] at hr
  rcases hr with rfl | rfl | rfl
  · obtain ⟨t, ht, hk, rfl, rfl⟩ := reads_identifier.mp hread
    exact ⟨0, [t], _, Nat.zero_le _, .identifier t hk, .single ht, rfl⟩
  · obtain ⟨t, value, raw, ht, hx, rfl, rfl⟩ := reads_literal.mp hread
    exact ⟨0, [t], _, Nat.zero_le _, .literal t value raw hx, .single ht, rfl⟩
  · simp only [Rule.reads_all_cons, Rule.reads_all_nil] at hread
    obtain ⟨_, _, _, h₁, ⟨_, _, _, h₂, ⟨_, _, _, h₃, ⟨rfl, rfl⟩, rfl⟩, rfl⟩, rfl⟩ := hread
    obtain ⟨left, hl, hl', rfl, rfl⟩ := Rule.reads_verbatim.mp h₁
    obtain ⟨d, ts, e, hd, he, hs, rfl⟩ := compound_sound hn _ _ _ h₂
    obtain ⟨right, hr, hr', rfl, rfl⟩ := Rule.reads_verbatim.mp h₃
    exact ⟨d, _, e, hd, .group left right hl' hr' d ts e he,
      .cons hl (hs.append (.single hr)), by simp⟩

theorem unary_sound : Derives tokens levels (Unary options)
    ((unary options).trace tokens levels target) := by
  intro p c q h
  obtain ⟨c', v, hall, hv, rfl⟩ := Strategy.reads_node.mp h
  simp only [Rule.reads_all_cons, Rule.reads_all_nil] at hall
  obtain ⟨c₁, m, _, h₁, ⟨_, _, _, h₂, ⟨rfl, rfl⟩, rfl⟩, rfl⟩ := hall
  obtain ⟨d, ts, e, hd, he, hs, rfl⟩ := primary_sound hn _ _ _ h₂
  -- The operators in front are put on from the last to the first.
  have hops : ∀ us e', Unary options d us e' → Spans tokens m us q → ∃ ts e'',
      Unary options d ts e'' ∧ Spans tokens p ts q ∧
        Part.applyUnary (c₁ ++ [.expr e']) = some e'' := by
    refine Attempt.star_induction (P := fun p c m => ∀ us e', Unary options d us e' →
      Spans tokens m us q → ∃ ts e'', Unary options d ts e'' ∧ Spans tokens p ts q ∧
        Part.applyUnary (c ++ [.expr e']) = some e'')
      (fun p us e' hu hs => ⟨us, e', hu, hs, rfl⟩) (fun p c m c' q hread ih us e' hu hs => ?_) h₁
    obtain ⟨ts, e'', hu', hs', he''⟩ := ih us e' hu hs
    obtain ⟨t, op, ht, hop, hsym, rfl, rfl⟩ := reads_unaryOperator.mp hread
    refine ⟨t :: ts, .unary op e'', .apply t op hop hsym d ts e'' hu', .cons ht hs', ?_⟩
    simp [Part.applyUnary, he'']
  obtain ⟨us, e', hu, hs', he'⟩ := hops ts e (.primary d ts e he) hs
  refine ⟨d, us, e', hd, hu, hs', ?_⟩
  simpa [Part.reduceUnary, he', eq_comm] using hv

theorem chain_sound : ∀ k, Derives tokens levels (Level options k)
    ((chainRule options k).trace tokens levels target)
  | 0 => by
    intro p c q h
    obtain ⟨d, ts, e, hd, he, hs, hc⟩ := unary_sound hn _ _ _ h
    exact ⟨d, ts, e, hd, .unary d ts e he, hs, hc⟩
  | k + 1 => by
    intro p c q h
    obtain ⟨c', v, hall, hv, rfl⟩ := Strategy.reads_node.mp h
    simp only [Rule.reads_all_cons, Rule.reads_all_nil] at hall
    obtain ⟨_, m, _, h₁, ⟨c₂, _, _, h₂, ⟨rfl, rfl⟩, rfl⟩, rfl⟩ := hall
    obtain ⟨d, ts, left, hd, hl, hs, rfl⟩ := chain_sound k _ _ _ h₁
    have hops : ∃ d us operands, d ≤ levels ∧ Operands options k d us operands ∧
        Spans tokens m us q ∧ c₂ = operands.map fun x => .operand x.1 x.2 := by
      refine Attempt.star_induction (P := fun p c q => ∃ d us operands, d ≤ levels ∧
        Operands options k d us operands ∧ Spans tokens p us q ∧
          c = operands.map fun x => .operand x.1 x.2)
        (fun p => ⟨0, [], [], Nat.zero_le _, .nil k, .nil p, rfl⟩)
        (fun p c m c' q hread ih => ?_) h₂
      obtain ⟨d', us, operands, hd', ho, hs', rfl⟩ := ih
      obtain ⟨_, v, hall, hv, rfl⟩ := Strategy.reads_node.mp hread
      simp only [Rule.reads_all_cons, Rule.reads_all_nil] at hall
      obtain ⟨_, _, _, h₁, ⟨_, _, _, h₂, ⟨rfl, rfl⟩, rfl⟩, rfl⟩ := hall
      obtain ⟨t, op, ht, hop, hsym, rfl, rfl⟩ := reads_binaryOperator.mp h₁
      obtain ⟨d, ts, right, hd, hr, hs, rfl⟩ := chain_sound k _ _ _ h₂
      obtain rfl : Part.operand op right = v := by simpa [Part.reduceApplication] using hv
      exact ⟨_, _, _, Nat.max_le.mpr ⟨hd, hd'⟩,
        .cons k t op hop hsym d ts right hr d' us operands ho, .cons ht (hs.append hs'), rfl⟩
    obtain ⟨d', us, operands, hd', ho, hs', rfl⟩ := hops
    refine ⟨_, _, _, Nat.max_le.mpr ⟨hd, hd'⟩, .chain k d ts left hl d' us operands ho,
      hs.append hs', ?_⟩
    simpa [Part.reduceLevel, applyOperands_map, eq_comm] using hv

theorem expression_sound_of_nested : Derives tokens levels (Expression options)
    ((expression options).trace tokens levels target) := by
  intro p c q h
  rw [expression_eq] at h
  obtain ⟨c', v, hall, hv, rfl⟩ := Strategy.reads_node.mp h
  simp only [Rule.reads_all_cons, Rule.reads_all_nil] at hall
  obtain ⟨_, m, _, h₁, ⟨c₂, _, _, h₂, ⟨rfl, rfl⟩, rfl⟩, rfl⟩ := hall
  obtain ⟨d, ts, e, hd, he, hs, rfl⟩ := chain_sound hn _ _ _ _ h₁
  rcases Attempt.reads_optional.mp h₂ with hbranches | ⟨-, rfl, rfl⟩
  · simp only [Rule.reads_all_cons, Rule.reads_all_nil] at hbranches
    obtain ⟨_, _, _, h₃, ⟨_, _, _, h₄, ⟨_, _, _, h₅, ⟨_, _, _, h₆, ⟨rfl, rfl⟩, rfl⟩, rfl⟩, rfl⟩,
      rfl⟩ := hbranches
    obtain ⟨question, hq, hq', rfl, rfl⟩ := Rule.reads_verbatim.mp h₃
    obtain ⟨_, us, e₂, hd₂, ⟨d₂, rfl, he₂⟩, hs₂, rfl⟩ := hn _ _ _ h₄
    obtain ⟨colon, hc, hc', rfl, rfl⟩ := Rule.reads_verbatim.mp h₅
    obtain ⟨_, vs, e₃, hd₃, ⟨d₃, rfl, he₃⟩, hs₃, rfl⟩ := hn _ _ _ h₆
    refine ⟨_, _, _, Nat.max_le.mpr ⟨hd, Nat.max_le.mpr ⟨hd₂, hd₃⟩⟩,
      .conditional question colon hq' hc' d d₂ d₃ ts us vs e e₂ e₃ he he₂ he₃,
      hs.append (.cons hq (hs₂.append (.cons hc hs₃))), ?_⟩
    simpa [Part.reduceConditional, eq_comm] using hv
  · refine ⟨d, ts, e, hd, .test d ts e he, hs, ?_⟩
    simpa [Part.reduceConditional, eq_comm] using hv

end Nested

/-! ### All levels -/

theorem nested_sound (levels : Nat) :
    Derives tokens levels (Deeper options 1) ((graph options).trace tokens levels nested) := by
  induction levels with
  | zero =>
    intro p c q h
    exact absurd h (by simp [RuleGraph.trace, nested, Rule.trace, Attempt.reference,
      RuleGraph.traceBehind, graph, RuleGraph.close, Reads, refused])
  | succ levels ih =>
    intro p c q h
    obtain ⟨d, ts, e, hd, he, hs, hc⟩ := expression_sound_of_nested ih p c q h
    exact ⟨d + 1, ts, e, Nat.succ_le_succ hd, ⟨d, rfl, he⟩, hs, hc⟩

theorem expression_sound (levels : Nat) : Derives tokens levels (Expression options)
    ((graph options).trace tokens levels (expression options)) :=
  expression_sound_of_nested (nested_sound levels)

theorem program_sound (levels : Nat) : Derives tokens levels (Compound options .program)
    ((graph options).trace tokens levels (program options)) := by
  refine compound_sound fun p c q h => ?_
  obtain ⟨d, ts, e, hd, he, hs, hc⟩ := expression_sound levels p c q h
  exact ⟨d, ts, e, hd, ⟨d, rfl, he⟩, hs, hc⟩

end Precedence.Grammar
