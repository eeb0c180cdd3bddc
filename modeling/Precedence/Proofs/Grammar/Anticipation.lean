import Precedence.Proofs.Grammar.Derivation
import Precedence.Proofs.Rule.Anticipation

/-!
# The grammar tells how a program goes on

Each rule of the grammar directs through the rows of tokens that are derived for it
(`program_directs`), if the numbers among the tokens are finite and the regular expressions have
their patterns. For then no reducer rejects what its rule read, so that every failure is on account
of a token. The induction is as for soundness: on the levels, and within one on how the rules are
built.
-/

namespace Precedence

open Trace

namespace Grammar

/-- The token means something, if it is of a kind that can be a literal. -/
def HasValue (t : Token) : Prop :=
  (t.kind = .number → (finite? t).isSome) ∧ (t.kind = .regex → (t.capture? 0).isSome)

theorem exists_literalValue? {options : GrammarOptions} {t : Token} (h : HasValue t)
    (hk : t.kind ∈ literalKinds options) : ∃ x, literalValue? options t = some x := by
  rw [← Option.isSome_iff_exists]
  unfold literalValue?
  rcases mem_literalKinds.mp hk with hk | hk | hk | hk | ⟨hr, hk⟩
  · simp [hk]
  · simpa [hk] using h.1 hk
  · simp [hk]
  · simp [hk]
  · simpa [hk, hr] using h.2 hk

/-- A token of a kind, with everything that a literal can be made of. -/
def sampleOf (k : TokenKind) : Token :=
  ⟨k, "", .number .zero, [some ""], ⟨0, 0⟩, ⟨1, 1⟩⟩

theorem hasValue_sampleOf (k : TokenKind) : HasValue (sampleOf k) :=
  ⟨fun _ => rfl, fun _ => rfl⟩

/-! ### Languages -/

/-- What is derived, each row with its tree. -/
def Tree (derived : Nat → List Token → Expr → Prop) : Language Part := fun ts c =>
  ∃ d e, derived d ts e ∧ c = [.expr e]

def Named : Language Part := fun ts c =>
  ∃ t, t.kind = .identifier ∧ ts = [t] ∧ c = [.expr (.identifier t.textValue t.span)]

/-- One of the operators. -/
def Operator {α : Type} (ops : List α) (symbol : α → String) (part : α → List Part) :
    Language Part := fun ts c => ∃ t, ∃ op ∈ ops, t.IsVerbatim (symbol op) ∧ ts = [t] ∧ c = part op

/-- An operator with its right operand. -/
def Application (options : GrammarOptions) (k : Nat) : Language Part := fun ts c =>
  ∃ t, ∃ op ∈ operatorsAt options k, t.IsVerbatim op.symbol ∧
    ∃ d us e, Level options k d us e ∧ ts = t :: us ∧ c = [.operand op e]

/-- A comma that is a hole. -/
def Hole : Language Part := fun ts c => ∃ t, t.IsVerbatim "," ∧ ts = [t] ∧ c = [.expr .hole]

/-- Commas, of which all but the first are holes. -/
def Commas : Language Part := fun ts c =>
  ∃ comma commas, comma.IsVerbatim "," ∧ (∀ t ∈ commas, t.IsVerbatim ",") ∧
    ts = comma :: commas ∧ c = List.replicate commas.length (.expr .hole)

def FurtherElement (options : GrammarOptions) (place : Place) : Language Part :=
  Commas.followedBy ((Tree (Assignable options place)).followedBy .nothing)

theorem primary_of_named {options : GrammarOptions} {ts : List Token} {c : List Part}
    (h : Named ts c) : Tree (Primary options) ts c := by
  obtain ⟨t, hk, rfl, rfl⟩ := h
  exact ⟨0, _, .identifier t hk, rfl⟩

theorem primary_of_group {options : GrammarOptions} {ts : List Token} {c : List Part}
    (h : (Language.verbatim "(").followedBy ((Tree (Compound options .group)).followedBy
      ((Language.verbatim ")").followedBy .nothing)) ts c) : Tree (Primary options) ts c := by
  obtain ⟨_, _, _, _, ⟨left, hl, rfl, rfl⟩, ⟨ts, _, _, _, ⟨d, e, he, rfl⟩,
    ⟨_, _, _, _, ⟨right, hr, rfl, rfl⟩, ⟨rfl, rfl⟩, rfl, rfl⟩, rfl, rfl⟩, rfl, rfl⟩ := h
  exact ⟨d, e, .group left right hl hr d ts e he, rfl⟩

theorem commas_of_holes {ts : List Token} {c : List Part}
    (h : (Language.verbatim ",").followedBy ((Language.Many Hole).followedBy .nothing) ts c) :
    Commas ts c := by
  obtain ⟨_, _, _, _, ⟨comma, hcomma, rfl, rfl⟩, ⟨ts, c, _, _, hts, ⟨rfl, rfl⟩, rfl, rfl⟩, rfl,
    rfl⟩ := h
  have hcommas : (∀ t ∈ ts, t.IsVerbatim ",") ∧ c = List.replicate ts.length (.expr .hole) := by
    induction hts with
    | nil => exact ⟨by simp, rfl⟩
    | cons h _ ih =>
      obtain ⟨t, ht, rfl, rfl⟩ := h
      exact ⟨by simpa using ⟨ht, ih.1⟩, by rw [ih.2]; rfl⟩
  exact ⟨comma, ts, hcomma, hcommas.1, by simp, by simp [hcommas.2]⟩

/-! ### What the reducers make -/

section Reducers

variable {options : GrammarOptions}

theorem makes_identifier :
    Part.reduceIdentifier.Makes (.single fun t => t.kind = .identifier) Named := by
  rintro _ _ ⟨t, ht, rfl, rfl⟩
  exact ⟨_, ⟨t, ht, rfl, rfl⟩, fun _ _ _ _ => rfl⟩

theorem makes_hole : Part.reduceHole.Makes (.verbatim ",") Hole :=
  fun _ _ ⟨t, ht, hts, _⟩ => ⟨.expr .hole, ⟨t, ht, hts, rfl⟩, fun _ _ _ _ => rfl⟩

theorem makes_operator {α : Type} {ops : List α} {symbol : α → String} {part : α → Part}
    {reduce : Reducer Part}
    (hreduce : ∀ c (stretch : Stretch) t op, stretch.first? = some t → t.text = symbol op →
      reduce c stretch = some (part op)) :
    reduce.Makes (Operator ops symbol fun _ => []) (Operator ops symbol fun op => [part op]) := by
  rintro _ _ ⟨t, op, hop, ht, rfl, rfl⟩
  refine ⟨part op, ⟨t, op, hop, ht, rfl, rfl⟩, fun tokens p q hs => ?_⟩
  rcases hs with _ | ⟨htoken, hs⟩
  obtain rfl := hs.stop_eq
  exact hreduce _ _ t op (first?_eq htoken) ht.2

theorem makes_unaryOperator (ops : List UnaryOperator) : Part.reduceUnaryOperator.Makes
    (Operator ops (·.symbol) fun _ => []) (Operator ops (·.symbol) fun op => [.unary op]) :=
  makes_operator fun c stretch t op ht hs => by
    simp [Part.reduceUnaryOperator, ht, hs, UnaryOperator.ofSymbol?_symbol]

theorem makes_binaryOperator (ops : List BinaryOperator) : Part.reduceBinaryOperator.Makes
    (Operator ops (·.symbol) fun _ => []) (Operator ops (·.symbol) fun op => [.binary op]) :=
  makes_operator fun c stretch t op ht hs => by
    simp [Part.reduceBinaryOperator, ht, hs, BinaryOperator.ofSymbol?_symbol]

theorem makes_unary : Part.reduceUnary.Makes
    ((Language.Many (Operator options.unaryOperators (·.symbol) fun op => [.unary op])).followedBy
      ((Tree (Primary options)).followedBy .nothing)) (Tree (Unary options)) := by
  rintro _ _ ⟨us, c, _, _, hus, ⟨vs, _, _, _, ⟨d, e, he, rfl⟩, ⟨rfl, rfl⟩, rfl, rfl⟩, rfl, rfl⟩
  have hops : ∃ d e', Unary options d (us ++ vs) e' ∧
      Part.applyUnary (c ++ [.expr e]) = some e' := by
    induction hus with
    | nil => exact ⟨d, e, .primary d vs e he, rfl⟩
    | cons h _ ih =>
      obtain ⟨t, op, hop, ht, rfl, rfl⟩ := h
      obtain ⟨d, e', he', happly⟩ := ih
      exact ⟨d, .unary op e', .apply t op hop ht d _ e' he', by simp [Part.applyUnary, happly]⟩
  obtain ⟨d, e', he', happly⟩ := hops
  rw [List.append_nil, List.append_nil]
  exact ⟨.expr e', ⟨d, e', he', rfl⟩, fun _ _ _ _ => by simp [Part.reduceUnary, happly]⟩

theorem makes_application (k : Nat) : Part.reduceApplication.Makes
    ((Operator (operatorsAt options k) (·.symbol) fun op => [.binary op]).followedBy
      ((Tree (Level options k)).followedBy .nothing)) (Application options k) := by
  rintro _ _ ⟨_, _, _, _, ⟨t, op, hop, ht, rfl, rfl⟩,
    ⟨us, _, _, _, ⟨d, e, he, rfl⟩, ⟨rfl, rfl⟩, rfl, rfl⟩, rfl, rfl⟩
  exact ⟨.operand op e, ⟨t, op, hop, ht, d, us, e, he, by simp, rfl⟩, fun _ _ _ _ => rfl⟩

theorem makes_level (k : Nat) : Part.reduceLevel.Makes
    ((Tree (Level options k)).followedBy ((Language.Many (Application options k)).followedBy
      .nothing)) (Tree (Level options (k + 1))) := by
  rintro _ _ ⟨ts, _, _, _, ⟨d, left, hl, rfl⟩, ⟨us, c, _, _, hus, ⟨rfl, rfl⟩, rfl, rfl⟩, rfl, rfl⟩
  have hoperands : ∃ d operands, Operands options k d us operands ∧
      c = operands.map fun x => .operand x.1 x.2 := by
    induction hus with
    | nil => exact ⟨0, [], .nil k, rfl⟩
    | cons h _ ih =>
      obtain ⟨t, op, hop, ht, d, us, e, he, rfl, rfl⟩ := h
      obtain ⟨d', operands, ho, rfl⟩ := ih
      exact ⟨_, _, .cons k t op hop ht d us e he d' _ operands ho, rfl⟩
  obtain ⟨d', operands, ho, rfl⟩ := hoperands
  rw [List.append_nil, List.append_nil]
  exact ⟨.expr (applyAll left operands), ⟨_, _, .chain k d ts left hl d' us operands ho, rfl⟩,
    fun _ _ _ _ => by simp [Part.reduceLevel, applyOperands_map]⟩

theorem makes_conditional : Part.reduceConditional.Makes
    ((Tree (Level options options.precedence.length)).followedBy
      ((Language.orNothing ((Language.verbatim "?").followedBy
        ((Tree (Expression options)).followedBy ((Language.verbatim ":").followedBy
          ((Tree (Expression options)).followedBy .nothing))))).followedBy .nothing))
    (Tree (Expression options)) := by
  rintro _ _ ⟨ts, _, _, _, ⟨d₁, e₁, h₁, rfl⟩, ⟨_, _, _, _, hbranches, ⟨rfl, rfl⟩, rfl, rfl⟩, rfl,
    rfl⟩
  rcases hbranches with ⟨_, _, _, _, ⟨question, hq, rfl, rfl⟩,
    ⟨us, _, _, _, ⟨d₂, e₂, h₂, rfl⟩, ⟨_, _, _, _, ⟨colon, hc, rfl, rfl⟩,
      ⟨vs, _, _, _, ⟨d₃, e₃, h₃, rfl⟩, ⟨rfl, rfl⟩, rfl, rfl⟩, rfl, rfl⟩, rfl, rfl⟩, rfl, rfl⟩ |
    ⟨rfl, rfl⟩
  · refine ⟨.expr (.conditional e₁ e₂ e₃), ⟨max d₁ (max (d₂ + 1) (d₃ + 1)), _, ?_, rfl⟩,
      fun _ _ _ _ => rfl⟩
    simpa using Expression.conditional question colon hq hc d₁ d₂ d₃ ts us vs e₁ e₂ e₃ h₁ h₂ h₃
  · exact ⟨.expr e₁, ⟨d₁, e₁, by simpa using Expression.test d₁ ts e₁ h₁, rfl⟩, fun _ _ _ _ => rfl⟩

theorem makes_assignment (ha : options.assignments) (place : Place) : Part.reduceAssignment.Makes
    (Named.followedBy
      ((Language.verbatim "=").followedBy ((Tree (Expression options)).followedBy .nothing)))
    (Tree (Assignable options place)) := by
  rintro _ _ ⟨_, _, _, _, ⟨t, hk, rfl, rfl⟩, ⟨_, _, _, _, ⟨equals, he, rfl, rfl⟩,
    ⟨ts, _, _, _, ⟨d, e, h, rfl⟩, ⟨rfl, rfl⟩, rfl, rfl⟩, rfl, rfl⟩, rfl, rfl⟩
  refine ⟨.expr (.assignment (.identifier t.textValue t.span) e),
    ⟨d + place.levels, _, ?_, rfl⟩, fun _ _ _ _ => rfl⟩
  simpa using Assignable.assignment place ha t equals hk he d ts e h

theorem makes_compound (place : Place) : Part.reduceCompound.Makes
    ((Tree (Assignable options place)).followedBy
      ((Language.Many (FurtherElement options place)).followedBy .nothing))
    (Tree (Compound options place)) := by
  rintro _ _ ⟨ts, _, _, _, ⟨d, e, he, rfl⟩, ⟨us, c, _, _, hus, ⟨rfl, rfl⟩, rfl, rfl⟩, rfl, rfl⟩
  have helements : ∃ d es, Elements options place d us es ∧ c = es.map .expr := by
    induction hus with
    | nil => exact ⟨0, [], .nil place, rfl⟩
    | cons h _ ih =>
      obtain ⟨_, _, _, _, ⟨comma, commas, hc, hcs, rfl, rfl⟩,
        ⟨ts, _, _, _, ⟨d, e, he, rfl⟩, ⟨rfl, rfl⟩, rfl, rfl⟩, rfl, rfl⟩ := h
      obtain ⟨d', es, hes, rfl⟩ := ih
      refine ⟨max d d', List.replicate commas.length .hole ++ e :: es, ?_, by simp⟩
      simpa using Elements.cons place comma hc commas hcs d ts e he d' _ es hes
  obtain ⟨d', es, hes, rfl⟩ := helements
  rw [List.append_nil, List.append_nil]
  exact ⟨.expr (gather e es), ⟨_, _, .elements place d ts e he d' us es hes, rfl⟩,
    fun _ _ _ _ => reduceCompound_map e es _⟩

end Reducers

/-! ### What the rules read -/

section Rules

variable {options : GrammarOptions} {w : Comparison} {levels : Nat}
  {target target' : Nat → Option (Attempt Production Part)}

theorem identifier_directs (production : Production) :
    (node options production (.kind .identifier) Part.reduceIdentifier).Directs w levels target
      target' Named :=
  Strategy.directs_node
    (Rule.directs_kind (by decide) (fun _ _ h => h) (sampleOf .identifier) rfl rfl)
    makes_identifier

theorem operator_predicts {α : Type} {ops : List α} {symbol : α → String} :
    (Rule.any (ops.map fun op => .verbatim (symbol op)) : GrammarRule).Predicts w levels target
      target' (Operator ops symbol fun _ => []) :=
  Rule.predicts_any fun r hr => by
    obtain ⟨op, hop, rfl⟩ := List.mem_map.mp hr
    exact (Rule.directs_verbatim (symbol op)).toPredicts.mono fun _ _ ⟨t, ht, hts, hc⟩ =>
      ⟨t, op, hop, ht, hts, hc⟩

section Values

variable (hvalue : ∀ t ∈ w.tokens, HasValue t)

include hvalue

theorem literal_directs : (literal options).Directs w levels target target'
    (Tree (Primary options)) := by
  rw [literal_eq]
  refine Rule.directs_any (r := literalNode options .string)
    (List.mem_map_of_mem (mem_literalKinds.mpr (Or.inl rfl))) fun r hr => ?_
  obtain ⟨k, hk, rfl⟩ := List.mem_map.mp hr
  obtain ⟨production, reduce, heq, hreduce⟩ := literalNode_eq hk
  rw [heq]
  have hkind : (Rule.kind k : GrammarRule).Directs w levels target target'
      (.single fun t => t.kind = k ∧ HasValue t) := by
    refine Rule.directs_kind ?_ (fun t ht hkt => ⟨hkt, hvalue t ht⟩)
      (sampleOf k) ⟨rfl, hasValue_sampleOf k⟩ rfl
    rcases mem_literalKinds.mp hk with rfl | rfl | rfl | rfl | ⟨-, rfl⟩ <;> decide
  refine Strategy.directs_node hkind ?_
  rintro _ _ ⟨t, ⟨hkt, ht⟩, rfl, rfl⟩
  obtain ⟨⟨value, raw⟩, hx⟩ := exists_literalValue? ht (hkt ▸ hk)
  refine ⟨.expr (.literal value raw t.span), ⟨0, _, .literal t value raw hx, rfl⟩,
    fun tokens p q _ => ?_⟩
  rw [show [Capture.ofToken t] = [Part.token t] from rfl, hreduce t _ hkt, hx]
  rfl

end Values

section Compounds

variable {place : Place} {expression : GrammarRule}
  (hx : expression.Directs w levels target target' (Tree (Expression options)))

include hx

theorem assignable_directs : (assignable options place expression).Directs w levels target target'
    (Tree (Assignable options place)) := by
  have hexpression : expression.Directs w levels target target'
      (Tree (Assignable options place)) := hx.mono fun ts _ ⟨d, e, he, hc⟩ =>
    ⟨_, e, .expression place d ts e he, hc⟩
  unfold assignable
  by_cases ha : options.assignments
  · rw [if_pos ha]
    refine Rule.directs_any List.mem_cons_self fun r hr => ?_
    rcases List.mem_cons.mp hr with rfl | hr
    · exact Strategy.directs_node ((identifier_directs _).seq ((Rule.directs_verbatim "=").seq
        (hx.seq Rule.directs_all_nil))) (makes_assignment ha place)
    · obtain rfl : r = expression := by simpa using hr
      exact hexpression
  · rw [if_neg ha]
    exact hexpression

omit hx in
theorem elision_directs : (elision options place).Directs w levels target target' Commas := by
  have hhole : (node options (.hole place) (.verbatim ",") Part.reduceHole).Directs w levels target
      target' Hole := Strategy.directs_node (Rule.directs_verbatim ",") makes_hole
  exact ((Rule.directs_verbatim ",").seq (hhole.toPredicts.star.seq Rule.directs_all_nil)).mono
    fun _ _ => commas_of_holes

theorem compound_directs : (compound options place expression).Directs w levels target target'
    (Tree (Compound options place)) := by
  have hfurther : (Rule.all [elision options place, assignable options place expression]).Directs w
      levels target target' (FurtherElement options place) :=
    elision_directs.seq ((assignable_directs hx).seq Rule.directs_all_nil)
  exact Strategy.directs_node ((assignable_directs hx).seq
    (hfurther.toPredicts.star.seq Rule.directs_all_nil)) (makes_compound place)

end Compounds

section Nested

variable (hvalue : ∀ t ∈ w.tokens, HasValue t)
  (hn : nested.Directs w levels target target' (Tree (Expression options)))

include hvalue hn

theorem primary_directs : (primary options).Directs w levels target target'
    (Tree (Primary options)) := by
  refine Rule.directs_any List.mem_cons_self fun r hr => ?_
  simp only [List.mem_cons, List.not_mem_nil, or_false] at hr
  rcases hr with rfl | rfl | rfl
  · exact (identifier_directs _).mono fun _ _ => primary_of_named
  · exact literal_directs hvalue
  · exact ((Rule.directs_verbatim "(").seq ((compound_directs hn).seq
      ((Rule.directs_verbatim ")").seq Rule.directs_all_nil))).mono fun _ _ => primary_of_group

theorem unary_directs : (unary options).Directs w levels target target'
    (Tree (Unary options)) := by
  have hoperator : (node options .unaryOperator
      (.any (options.unaryOperators.map fun op => .verbatim op.symbol))
      Part.reduceUnaryOperator).Predicts w levels target target'
      (Operator options.unaryOperators (·.symbol) fun op => [.unary op]) :=
    Strategy.predicts_node operator_predicts (makes_unaryOperator _)
  exact Strategy.directs_node
    (hoperator.star.seq ((primary_directs hvalue hn).seq Rule.directs_all_nil)) makes_unary

theorem chain_directs : ∀ k, (chainRule options k).Directs w levels target target'
    (Tree (Level options k))
  | 0 => (unary_directs hvalue hn).mono fun ts _ ⟨d, e, he, hc⟩ => ⟨d, e, .unary d ts e he, hc⟩
  | k + 1 => by
    have hoperator : (node options (.binaryOperator (k + 1))
        (.any ((operatorsAt options k).map fun op => .verbatim op.symbol))
        Part.reduceBinaryOperator).Predicts w levels target target'
        (Operator (operatorsAt options k) (·.symbol) fun op => [.binary op]) :=
      Strategy.predicts_node operator_predicts (makes_binaryOperator _)
    have happlication : (node options (.application (k + 1)) (.all
        [node options (.binaryOperator (k + 1))
          (.any ((operatorsAt options k).map fun op => .verbatim op.symbol))
          Part.reduceBinaryOperator, chainRule options k]) Part.reduceApplication).Predicts w levels
        target target' (Application options k) :=
      Strategy.predicts_node (hoperator.seq ((chain_directs k).seq Rule.directs_all_nil))
        (makes_application k)
    exact Strategy.directs_node
      ((chain_directs k).seq (happlication.star.seq Rule.directs_all_nil)) (makes_level k)

theorem expression_directs_of_nested : (expression options).Directs w levels target target'
    (Tree (Expression options)) := by
  rw [expression_eq]
  have hbranches : (Rule.all [.verbatim "?", nested, .verbatim ":", nested]).Directs w levels target
      target' _ :=
    (Rule.directs_verbatim "?").seq (hn.seq ((Rule.directs_verbatim ":").seq
      (hn.seq Rule.directs_all_nil)))
  exact Strategy.directs_node
    ((chain_directs hvalue hn _).seq (hbranches.toPredicts.optional.seq Rule.directs_all_nil))
    makes_conditional

end Nested

end Rules

/-! ### All levels -/

section Levels

variable {options : GrammarOptions} {w : Comparison} (hvalue : ∀ t ∈ w.tokens, HasValue t)

include hvalue

theorem nested_directs : ∀ levels, nested.Directs w levels
    ((graph options).traceBehind w.tokens levels) ((graph options).traceBehind w.others levels)
    (Tree (Expression options))
  | 0 => by
    refine Attempt.directs_refused ?_
    obtain ⟨d, e, he⟩ : ∃ d e, Expression options d [sampleOf .identifier] e :=
      ⟨0, _, (Primary.identifier (sampleOf .identifier) rfl).expression⟩
    exact ⟨_, _, d, e, he, rfl⟩
  | levels + 1 => expression_directs_of_nested hvalue (nested_directs levels)

theorem expression_directs (levels : Nat) : (expression options).Directs w levels
    ((graph options).traceBehind w.tokens levels) ((graph options).traceBehind w.others levels)
    (Tree (Expression options)) :=
  expression_directs_of_nested hvalue (nested_directs hvalue levels)

theorem program_directs (levels : Nat) : (program options).Directs w levels
    ((graph options).traceBehind w.tokens levels) ((graph options).traceBehind w.others levels)
    (Tree (Compound options .program)) :=
  compound_directs (expression_directs hvalue levels)

end Levels

end Grammar

end Precedence
