import Precedence.Proofs.Grammar.Correctness

/-!
# Both strategies say the same

A rule comes to the same with its keys and without them, but for the visits
(`Rule.sameOutcome_plain`), and without keys the grammars of both strategies are one. So they give
the same tree for the same tokens, or the same failure.
-/

namespace Precedence

/-- The same result, and the same failures on the way. -/
structure Trace.SameOutcome {ι α : Type} (t u : Trace ι α) : Prop where
  result_eq : t.result = u.result
  failures_eq : t.failures = u.failures

namespace Trace.SameOutcome

variable {ι α β V : Type} {t u : Trace ι α}

theorem refl (t : Trace ι α) : SameOutcome t t := ⟨rfl, rfl⟩

theorem bind (h : SameOutcome t u) {k k' : α → Trace ι β} (hk : ∀ a, SameOutcome (k a) (k' a)) :
    SameOutcome (t.bind k) (u.bind k') := by
  have hresult := h.result_eq
  rcases ht : t.result with i | a
  · rw [bind_error ht, bind_error (hresult ▸ ht)]
    exact ⟨rfl, h.failures_eq⟩
  · rw [bind_ok ht, bind_ok (hresult ▸ ht)]
    exact ⟨(hk a).result_eq, by rw [h.failures_eq, (hk a).failures_eq]⟩

variable {t u : Trace ι (Outcome V)}

theorem andThen (h : SameOutcome t u) {k k' : List V → Nat → Trace ι (Outcome V)}
    (hk : ∀ c m, SameOutcome (k c m) (k' c m)) : SameOutcome (t.andThen k) (u.andThen k') :=
  h.bind fun
    | none => .refl _
    | some (c, m) => hk c m

theorem orElse {t' u' : Trace ι (Outcome V)} (h : SameOutcome t u) (h' : SameOutcome t' u') :
    SameOutcome (t.orElse t') (u.orElse u') :=
  h.bind fun
    | none => h'
    | some _ => .refl _

theorem rounds {a b : Attempt ι V} (h : ∀ p, SameOutcome (a p) (b p)) :
    ∀ n p, SameOutcome (Attempt.rounds a n p) (Attempt.rounds b n p)
  | 0, _ => .refl _
  | n + 1, p => (h p).bind fun
    | none => .refl _
    | some (c, m) => by
      by_cases hpm : p < m
      · simp only [if_pos hpm]
        exact (rounds h n m).bind fun _ => .refl _
      · simp only [if_neg hpm]
        exact .refl _

end Trace.SameOutcome

namespace Rule

open Trace

variable {ι V : Type} [Capture V] {tokens : Array Token} {levels : Nat}

/-- The rule without its keys. -/
def plain : Rule ι V → Rule ι V
  | seq r t => seq r.plain t.plain
  | choice r t => choice r.plain t.plain
  | plus r => plus r.plain
  | optional r => optional r.plain
  | node r reduce => node r.plain reduce
  | memoized _ r => r.plain
  | r => r

theorem sameOutcome_plain {target target' : Nat → Option (Attempt ι V)}
    (h : ∀ slot p, SameOutcome (Attempt.reference (target slot) p)
      (Attempt.reference (target' slot) p)) :
    ∀ (rule : Rule ι V) (p : Nat),
      SameOutcome (rule.trace tokens levels target p) (rule.plain.trace tokens levels target' p)
  | kind _, _ => .refl _
  | verbatim _, _ => .refl _
  | nothing, _ => .refl _
  | never, _ => .refl _
  | seq r t, p => (sameOutcome_plain h r p).andThen fun _ m =>
    (sameOutcome_plain h t m).bind fun _ => .refl _
  | choice r t, p => (sameOutcome_plain h r p).orElse (sameOutcome_plain h t p)
  | plus r, p => (sameOutcome_plain h r p).andThen fun _ m =>
    (SameOutcome.rounds (sameOutcome_plain h r) _ m).bind fun _ => .refl _
  | optional r, p => (sameOutcome_plain h r p).orElse (.refl _)
  | node r _, p => (sameOutcome_plain h r p).andThen fun _ _ => .refl _
  | memoized _ r, p => ⟨(sameOutcome_plain h r p).result_eq, (sameOutcome_plain h r p).failures_eq⟩
  | reference slot, p => h slot p

end Rule

section Plain

variable {ι V : Type}

theorem Rule.plain_all (rules : List (Rule ι V)) : (all rules).plain = all (rules.map plain) := by
  induction rules with
  | nil => rfl
  | cons r rules ih => exact congrArg (seq r.plain) ih

theorem Rule.plain_any (rules : List (Rule ι V)) : (any rules).plain = any (rules.map plain) := by
  induction rules with
  | nil => rfl
  | cons r rules ih => exact congrArg (choice r.plain) ih

theorem Strategy.plain_node (strategy : Strategy) (key : ι) (r : Rule ι V) (reduce : Reducer V) :
    (strategy.node key r reduce).plain = .node r.plain reduce := by
  rcases strategy with _ | _ <;> rfl

end Plain

/-- The graph without its keys. -/
def RuleGraph.plain {ι V : Type} (g : RuleGraph ι V) : RuleGraph ι V :=
  ⟨fun slot => (g.target slot).map Rule.plain⟩

theorem RuleGraph.sameOutcome_plain {ι V : Type} [Capture V] (g : RuleGraph ι V)
    (tokens : Array Token) (levels : Nat) (rule : Rule ι V) (p : Nat) :
    (g.trace tokens levels rule p).SameOutcome (g.plain.trace tokens levels rule.plain p) := by
  induction levels generalizing rule p with
  | zero =>
    refine Rule.sameOutcome_plain (fun slot p => ?_) rule p
    simp only [traceBehind, plain, Option.map_map]
    exact .refl _
  | succ levels ih =>
    refine Rule.sameOutcome_plain (fun slot p => ?_) rule p
    simp only [traceBehind, plain]
    rcases g.target slot with _ | rule
    · exact .refl _
    · exact ih rule p

namespace Grammar

section Options

variable (options : GrammarOptions) (strategy : Strategy)

/-- The options with another strategy. -/
def withStrategy : GrammarOptions := { options with strategy }

theorem plain_node (production : Production) (r : GrammarRule) (reduce : Reducer Part) :
    (node options production r reduce).plain = .node r.plain reduce :=
  Strategy.plain_node _ _ _ _

theorem plain_literal :
    (literal (withStrategy options strategy)).plain = (literal options).plain := by
  rw [literal_eq, literal_eq, Rule.plain_any, Rule.plain_any, List.map_map, List.map_map]
  congr 1
  refine List.map_congr_left fun k hk => ?_
  rcases mem_literalKinds.mp hk with rfl | rfl | rfl | rfl | ⟨-, rfl⟩ <;>
    exact (Strategy.plain_node _ _ _ _).trans (Strategy.plain_node _ _ _ _).symm

theorem plain_compound (place : Place) {expression expression' : GrammarRule}
    (h : expression.plain = expression'.plain) :
    (compound (withStrategy options strategy) place expression).plain =
      (compound options place expression').plain := by
  have helement : (assignable (withStrategy options strategy) place expression).plain =
      (assignable options place expression').plain := by
    unfold assignable
    by_cases ha : options.assignments
    · rw [if_pos ha, if_pos (show (withStrategy options strategy).assignments from ha)]
      simp only [Rule.plain_any, Rule.plain_all, plain_node, List.map_cons, List.map_nil, h]
    · rw [if_neg ha, if_neg (show ¬ (withStrategy options strategy).assignments from ha)]
      exact h
  simp only [compound, elision, Rule.star, plain_node, Rule.plain_all, List.map_cons,
    List.map_nil, Rule.plain, helement]

theorem plain_unary : (unary (withStrategy options strategy)).plain = (unary options).plain := by
  have hgroup := plain_compound options strategy .group (rfl : nested.plain = nested.plain)
  have hliteral := plain_literal options strategy
  simp only [unary, primary, Rule.star, plain_node, Rule.plain_all, Rule.plain_any, List.map_cons,
    List.map_nil, Rule.plain, hgroup, hliteral]
  rfl

theorem plain_chain : ∀ k,
    (chainRule (withStrategy options strategy) k).plain = (chainRule options k).plain
  | 0 => plain_unary options strategy
  | k + 1 => by
    simp only [chainRule, level, Rule.star, plain_node, Rule.plain_all, Rule.plain_any,
      List.map_cons, List.map_nil, Rule.plain, plain_chain k]
    rfl

theorem plain_expression :
    (expression (withStrategy options strategy)).plain = (expression options).plain := by
  have hchain := plain_chain options strategy options.precedence.length
  rw [expression_eq, expression_eq]
  simp only [plain_node, Rule.plain_all, List.map_cons, List.map_nil, Rule.plain]
  rw [← hchain]
  rfl

theorem plain_program :
    (program (withStrategy options strategy)).plain = (program options).plain :=
  plain_compound options strategy .program (plain_expression options strategy)

theorem plain_graph : (graph (withStrategy options strategy)).plain = (graph options).plain := by
  simp only [RuleGraph.plain, graph, RuleGraph.close, RuleGraph.isOpen, RuleGraph.mk.injEq]
  funext slot
  by_cases hslot : slot = 0
  · simp only [if_pos hslot, Option.map_some, plain_expression]
  · simp only [if_neg hslot]

/-- Rules that differ only in their keys come to the same with either strategy, but for the visits. -/
theorem sameOutcome_of_plain {rule rule' : GrammarRule} (h : rule.plain = rule'.plain)
    (tokens : Array Token) (levels p : Nat) :
    (attempt (withStrategy options strategy) tokens levels rule p).SameOutcome
      (attempt options tokens levels rule' p) := by
  have hrule := (graph (withStrategy options strategy)).sameOutcome_plain tokens levels rule p
  have hrule' := (graph options).sameOutcome_plain tokens levels rule' p
  rw [plain_graph, h] at hrule
  exact ⟨hrule.result_eq.trans hrule'.result_eq.symm,
    hrule.failures_eq.trans hrule'.failures_eq.symm⟩

end Options

section Agreement

variable {options : GrammarOptions}

/-- Neither the strategy nor the classifier matters for tokens. -/
theorem parseTokens_withStrategy (strategy : Strategy) (classifier classifier' : Classifier)
    (tokens : List Token) :
    parseTokens ⟨withStrategy options strategy, classifier⟩ tokens =
      parseTokens ⟨options, classifier'⟩ tokens := by
  have h := sameOutcome_of_plain options strategy (plain_program options strategy) tokens.toArray
    nestingLimit 0
  rw [parseTokens_eq, parseTokens_eq, verdictOf, verdictOf, h.result_eq, h.failures_eq]

theorem validate_withStrategy (h : options.validate = .ok options) (strategy : Strategy) :
    (withStrategy options strategy).fault? = none :=
  (GrammarOptions.fault?_of_validate h).1

/-- The grammars of both strategies give the same tree or the same failure, for any tokens and so
for any text. -/
theorem strategies_agree (h : options.validate = .ok options) :
    ∃ packrat backtracking : Grammar,
      ofOptions (withStrategy options .packrat) = .ok packrat ∧
      ofOptions (withStrategy options .backtracking) = .ok backtracking ∧
      (∀ tokens, packrat.parseTokens tokens = backtracking.parseTokens tokens) ∧
      ∀ text, packrat.parse text = backtracking.parse text := by
  refine ⟨_, _, ofOptions_eq (validate_withStrategy h _), ofOptions_eq (validate_withStrategy h _),
    fun tokens => ?_, fun text => ?_⟩
  · rw [parseTokens_withStrategy _ _ ⟨patternForms options⟩,
      parseTokens_withStrategy _ _ ⟨patternForms options⟩]
  · unfold parse tokenize
    refine congrArg (Except.bind (Classifier.tokenize ⟨patternForms options⟩ text))
      (funext fun tokens => ?_)
    rw [parseTokens_withStrategy _ _ ⟨patternForms options⟩,
      parseTokens_withStrategy _ _ ⟨patternForms options⟩]

theorem standard_strategies_agree : GrammarOptions.standard.validate = .ok .standard ∧
    ∃ packrat backtracking : Grammar,
      ofOptions (withStrategy .standard .packrat) = .ok packrat ∧
      ofOptions (withStrategy .standard .backtracking) = .ok backtracking ∧
      (∀ tokens, packrat.parseTokens tokens = backtracking.parseTokens tokens) ∧
      ∀ text, packrat.parse text = backtracking.parse text :=
  ⟨rfl, strategies_agree rfl⟩

end Agreement

end Grammar

end Precedence
