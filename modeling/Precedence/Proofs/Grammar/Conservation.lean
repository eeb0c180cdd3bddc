import Precedence.Proofs.Grammar.Anticipation
import Precedence.Proofs.Grammar.Correctness
import Precedence.Proofs.Rule.Accord

/-!
# More operators change nothing where they do not occur

A table of operators is widened by more operators in its levels and by further levels anywhere.
The rules of the wider grammar accord with those of the narrower one, for tokens among which none of
the new operators stands: a level of new operators alone is a node around each operand that adds
nothing, and a new operator in a level fails where all the others do. So both grammars give the same
tree, or the same failure up to the alternatives that were expected (`Grammar.widening_conserves`).
-/

namespace Precedence

/-- The failure without the alternatives that were expected. -/
def Failure.withoutExpected : Failure → Failure
  | unexpected _ found i site => unexpected [] found i site
  | failure => failure

namespace GrammarOptions

/-- A table of operators, and one with more of them in its levels, in whatever order, and with
further levels anywhere. -/
inductive TableWidens : List (List BinaryOperator) → List (List BinaryOperator) → Prop
  | nil : TableWidens [] []
  | level {ops ops' : List BinaryOperator} {table table' : List (List BinaryOperator)}
    (hops : ops ⊆ ops') (h : TableWidens table table') :
    TableWidens (ops :: table) (ops' :: table')
  | inserted (ops' : List BinaryOperator) {table table' : List (List BinaryOperator)}
    (h : TableWidens table table') : TableWidens table (ops' :: table')

/-- The second options have all the operators of the first ones, on levels in the same order, and
have the same literals and assignments. -/
structure Widens (options options' : GrammarOptions) : Prop where
  precedence : TableWidens options.precedence options'.precedence
  unaryOperators : options.unaryOperators ⊆ options'.unaryOperators
  regexLiterals_eq : options'.regexLiterals = options.regexLiterals
  assignments_eq : options'.assignments = options.assignments

/-- The symbol is that of an operator that only the second options have. -/
def Adds (options options' : GrammarOptions) (symbol : String) : Prop :=
  (∃ op ∈ options'.precedence.flatten, op ∉ options.precedence.flatten ∧ op.symbol = symbol) ∨
    ∃ op ∈ options'.unaryOperators, op ∉ options.unaryOperators ∧ op.symbol = symbol

instance (options options' : GrammarOptions) (symbol : String) :
    Decidable (options.Adds options' symbol) :=
  inferInstanceAs (Decidable (_ ∨ _))

theorem TableWidens.subset {table table' : List (List BinaryOperator)}
    (h : TableWidens table table') : table.flatten ⊆ table'.flatten := by
  induction h with
  | nil => exact List.Subset.refl _
  | level hops _ ih =>
    intro op hop
    rcases List.mem_append.mp hop with hop | hop
    · exact List.mem_append_left _ (hops hop)
    · exact List.mem_append_right _ (ih hop)
  | inserted ops' _ ih => exact fun op hop => List.mem_append_right _ (ih hop)

section Levels

variable {ops ops' : List BinaryOperator} {table table' : List (List BinaryOperator)}
  {op : BinaryOperator}

/-- No operator is on two levels, so that one of a level of the wider table is on no other level of
the narrower one. -/
theorem TableWidens.not_mem_rest (h : TableWidens table table')
    (hnodup : (ops' :: table').flatten.Nodup) (hop : op ∈ ops') : op ∉ table.flatten := fun hold =>
  (List.nodup_append.mp hnodup).2.2 op hop op (h.subset hold) rfl

theorem TableWidens.new_on_level (h : TableWidens table table')
    (hnodup : (ops' :: table').flatten.Nodup) (hop : op ∈ ops') (hnew : op ∉ ops) :
    op ∉ (ops :: table).flatten := fun hold =>
  (List.mem_append.mp hold).elim hnew (h.not_mem_rest hnodup hop)

theorem new_behind_level (hops : ops ⊆ ops') (hnodup : (ops' :: table').flatten.Nodup)
    (hop : op ∈ table'.flatten) (hnew : op ∉ table.flatten) : op ∉ (ops :: table).flatten :=
  fun hold => (List.mem_append.mp hold).elim
    (fun hold => (List.nodup_append.mp hnodup).2.2 op (hops hold) op hop rfl) hnew

end Levels

end GrammarOptions

namespace Grammar

open Trace

/-- There is no verbatim token with this text. -/
def Absent (tokens : Array Token) (text : String) : Prop :=
  ∀ t ∈ tokens, ¬ t.IsVerbatim text

variable {options options' : GrammarOptions} {tokens : Array Token} {levels : Nat}
  {target target' : Nat → Option (Attempt Production Part)}

/-! ### Operators -/

section Operators

variable {α : Type} {ops ops' : List α} {symbol : α → String}

theorem reach_oneOf (p : Nat) :
    ((Rule.any (ops.map fun op => .verbatim (symbol op)) : GrammarRule).trace tokens levels target
      p).reach ≤ p :=
  Rule.reach_any fun r hr => by
    obtain ⟨op, -, rfl⟩ := List.mem_map.mp hr
    exact Attempt.reach_expecting _ _ _ p

/-- More operators are nothing more to read, if the new ones are not there. -/
theorem oneOf_accords (hops : ops ⊆ ops')
    (habsent : ∀ op ∈ ops', op ∉ ops → Absent tokens (symbol op)) :
    (Rule.any (ops.map fun op => .verbatim (symbol op)) : GrammarRule).Accords tokens levels target
      target' (Operator ops symbol fun _ => [])
      (.any (ops'.map fun op => .verbatim (symbol op))) where
  readsIn p c q hread := by
    obtain ⟨t, op, ht, hop, hs, rfl, rfl⟩ := reads_oneOf.mp hread
    exact ⟨[t], ⟨t, op, hop, hs, rfl, rfl⟩, .single ht⟩
  alike p := by
    have hreach : ((Rule.any (ops.map fun op => .verbatim (symbol op)) : GrammarRule).trace tokens
        levels target p).reach ≤ p := reach_oneOf p
    have hreach' : ((Rule.any (ops'.map fun op => .verbatim (symbol op)) : GrammarRule).trace tokens
        levels target' p).reach ≤ p := reach_oneOf p
    by_cases h : ∃ t op, tokens[p]? = some t ∧ op ∈ ops ∧ t.IsVerbatim (symbol op)
    · obtain ⟨t, op, ht, hop, hs⟩ := h
      exact .reads (reads_oneOf.mpr ⟨t, op, ht, hop, hs, rfl, rfl⟩)
        (reads_oneOf.mpr ⟨t, op, ht, hops hop, hs, rfl, rfl⟩) (by omega)
    · refine .fails (fails_oneOf fun t ht op hop hs => h ⟨t, op, ht, hop, hs⟩)
        (fails_oneOf fun t ht op hop hs => ?_) (by omega)
      by_cases hold : op ∈ ops
      · exact h ⟨t, op, ht, hold, hs⟩
      · exact habsent op hop hold t (Array.mem_of_getElem? ht) hs

theorem oneOf_idle (habsent : ∀ op ∈ ops, Absent tokens (symbol op)) :
    Attempt.Idle ((Rule.any (ops.map fun op => .verbatim (symbol op)) : GrammarRule).trace tokens
      levels target) := fun p =>
  ⟨fails_oneOf fun t ht op hop => habsent op hop t (Array.mem_of_getElem? ht), reach_oneOf p⟩

end Operators

/-! ### Literals and compounds -/

section Operands

variable (hregex : options'.regexLiterals = options.regexLiterals)
  (hassign : options'.assignments = options.assignments)

theorem identifier_accords (production production' : Production) :
    (node options production (.kind .identifier) Part.reduceIdentifier).AccordsLoudly tokens levels
      target target' Named
      (node options' production' (.kind .identifier) Part.reduceIdentifier) :=
  Strategy.accordsLoudly_node (Rule.accordsLoudly_kind .identifier) makes_identifier

include hregex in
theorem literal_accords : (literal options).Accords tokens levels target target'
    (Tree (Primary options)) (literal options') := by
  have hkinds : literalKinds options' = literalKinds options := by
    rw [literalKinds, hregex, literalKinds]
  rw [literal_eq, literal_eq, hkinds]
  refine Rule.accords_any fun k hk => ?_
  have hreads : Attempt.ReadsIn tokens (Tree (Primary options))
      ((literalNode options k).trace tokens levels target) := by
    intro p c q hread
    obtain ⟨t, value, raw, ht, -, hx, rfl, rfl⟩ := (reads_literalNode hk).mp hread
    exact ⟨[t], ⟨0, _, .literal t value raw hx, rfl⟩, .single ht⟩
  rcases mem_literalKinds.mp hk with rfl | rfl | rfl | rfl | ⟨-, rfl⟩ <;>
    exact Strategy.accords_same rfl hreads

section Compounds

variable {place : Place} {expression expression' : GrammarRule}
  (hx : expression.AccordsLoudly tokens levels target target' (Tree (Expression options))
    expression')

include hassign hx

theorem assignable_accords : (assignable options place expression).AccordsLoudly tokens levels
    target target' (Tree (Assignable options place)) (assignable options' place expression') := by
  have hexpression : expression.AccordsLoudly tokens levels target target'
      (Tree (Assignable options place)) expression' := hx.mono fun ts _ ⟨d, e, he, hc⟩ =>
    ⟨_, e, .expression place d ts e he, hc⟩
  unfold assignable
  rw [hassign]
  by_cases ha : options.assignments
  · rw [if_pos ha, if_pos ha]
    have hassignment : (node options (.assignment place)
        (.all [node options (.target place) (.kind .identifier) Part.reduceIdentifier,
          .verbatim "=", expression]) Part.reduceAssignment).AccordsLoudly tokens levels target
        target' (Tree (Assignable options place)) (node options' (.assignment place)
        (.all [node options' (.target place) (.kind .identifier) Part.reduceIdentifier,
          .verbatim "=", expression']) Part.reduceAssignment) :=
      Strategy.accordsLoudly_node ((identifier_accords _ _).seq
        ((Rule.accordsLoudly_verbatim "=").seq (hx.seq Rule.accordsLoudly_all_nil)))
        (makes_assignment ha place)
    exact hassignment.choice (hexpression.toAccords.choice Attempt.accords_never)
  · rw [if_neg ha, if_neg ha]
    exact hexpression

omit hassign hx in
theorem elision_accords : (elision options place).AccordsLoudly tokens levels target target' Commas
    (elision options' place) := by
  have hhole : (node options (.hole place) (.verbatim ",") Part.reduceHole).AccordsLoudly tokens
      levels target target' Hole (node options' (.hole place) (.verbatim ",") Part.reduceHole) :=
    Strategy.accordsLoudly_node (Rule.accordsLoudly_verbatim ",") makes_hole
  exact ((Rule.accordsLoudly_verbatim ",").seq
    (hhole.toAccords.star.seq Rule.accordsLoudly_all_nil)).mono fun _ _ => commas_of_holes

theorem compound_accords : (compound options place expression).AccordsLoudly tokens levels target
    target' (Tree (Compound options place)) (compound options' place expression') := by
  have helement : (assignable options place expression).AccordsLoudly tokens levels target target'
      (Tree (Assignable options place)) (assignable options' place expression') :=
    assignable_accords hassign hx
  have hfurther : (Rule.all [elision options place, assignable options place
      expression]).AccordsLoudly tokens levels target target' (FurtherElement options place)
      (.all [elision options' place, assignable options' place expression']) :=
    elision_accords.seq (helement.seq Rule.accordsLoudly_all_nil)
  exact Strategy.accordsLoudly_node
    (helement.seq (hfurther.toAccords.star.seq Rule.accordsLoudly_all_nil)) (makes_compound place)

end Compounds

/-! ### Levels -/

section Nested

variable (hn : nested.AccordsLoudly tokens levels target target' (Tree (Expression options))
  nested)

include hregex hassign hn

theorem primary_accords : (primary options).AccordsLoudly tokens levels target target'
    (Tree (Primary options)) (primary options') := by
  have hgroup : (Rule.all [.verbatim "(", compound options .group nested,
      .verbatim ")"]).AccordsLoudly tokens levels target target' (Tree (Primary options))
      (.all [.verbatim "(", compound options' .group nested, .verbatim ")"]) :=
    ((Rule.accordsLoudly_verbatim "(").seq ((compound_accords hassign hn).seq
      ((Rule.accordsLoudly_verbatim ")").seq Rule.accordsLoudly_all_nil))).mono
      fun _ _ => primary_of_group
  exact ((identifier_accords _ _).mono fun _ _ => primary_of_named).choice
    ((literal_accords hregex).choice (hgroup.toAccords.choice Attempt.accords_never))

theorem unary_accords (hops : options.unaryOperators ⊆ options'.unaryOperators)
    (habsent : ∀ op ∈ options'.unaryOperators, op ∉ options.unaryOperators →
      Absent tokens op.symbol) :
    (unary options).AccordsLoudly tokens levels target target' (Tree (Unary options))
      (unary options') := by
  have hoperator : (node options .unaryOperator
      (.any (options.unaryOperators.map fun op => .verbatim op.symbol))
      Part.reduceUnaryOperator).Accords tokens levels target target'
      (Operator options.unaryOperators (·.symbol) fun op => [.unary op])
      (node options' .unaryOperator
        (.any (options'.unaryOperators.map fun op => .verbatim op.symbol))
        Part.reduceUnaryOperator) :=
    Strategy.accords_node (oneOf_accords hops habsent) (makes_unaryOperator _)
  exact Strategy.accordsLoudly_node (hoperator.star.seq ((primary_accords hregex hassign hn).seq
    Rule.accordsLoudly_all_nil)) makes_unary

end Nested

end Operands

section Table

variable {operand operand' : GrammarRule}

/-- A level with more operators. -/
theorem level_accords {k n : Nat} {ops' : List BinaryOperator}
    (hops : operatorsAt options k ⊆ ops')
    (habsent : ∀ op ∈ ops', op ∉ operatorsAt options k → Absent tokens op.symbol)
    (h : operand.AccordsLoudly tokens levels target target' (Tree (Level options k)) operand') :
    (level options (k + 1) (operatorsAt options k) operand).AccordsLoudly tokens levels target
      target' (Tree (Level options (k + 1))) (level options' n ops' operand') := by
  have hoperator : (node options (.binaryOperator (k + 1))
      (.any ((operatorsAt options k).map fun op => .verbatim op.symbol))
      Part.reduceBinaryOperator).Accords tokens levels target target'
      (Operator (operatorsAt options k) (·.symbol) fun op => [.binary op])
      (node options' (.binaryOperator n) (.any (ops'.map fun op => .verbatim op.symbol))
        Part.reduceBinaryOperator) :=
    Strategy.accords_node (oneOf_accords hops habsent) (makes_binaryOperator _)
  have happlication : (node options (.application (k + 1)) (.all
      [node options (.binaryOperator (k + 1))
        (.any ((operatorsAt options k).map fun op => .verbatim op.symbol))
        Part.reduceBinaryOperator, operand]) Part.reduceApplication).Accords tokens levels target
      target' (Application options k) (node options' (.application n) (.all
      [node options' (.binaryOperator n) (.any (ops'.map fun op => .verbatim op.symbol))
        Part.reduceBinaryOperator, operand']) Part.reduceApplication) :=
    Strategy.accords_node (hoperator.seq (h.seq Rule.accordsLoudly_all_nil)) (makes_application k)
  exact Strategy.accordsLoudly_node
    (h.seq (happlication.star.seq Rule.accordsLoudly_all_nil)) (makes_level k)

/-- A level of new operators alone. -/
theorem inserted_accords {n : Nat} {ops' : List BinaryOperator}
    {derived : Nat → List Token → Expr → Prop} (habsent : ∀ op ∈ ops', Absent tokens op.symbol)
    (h : operand.AccordsLoudly tokens levels target target' (Tree derived) operand') :
    operand.AccordsLoudly tokens levels target target' (Tree derived)
      (level options' n ops' operand') := by
  have hoperator : Attempt.Idle ((node options' (.binaryOperator n)
      (.any (ops'.map fun op => .verbatim op.symbol)) Part.reduceBinaryOperator).trace tokens levels
      target') := Strategy.idle_node (oneOf_idle habsent) _
  have happlication : Attempt.Idle ((node options' (.application n) (.all
      [node options' (.binaryOperator n) (.any (ops'.map fun op => .verbatim op.symbol))
        Part.reduceBinaryOperator, operand']) Part.reduceApplication).trace tokens levels
      target') :=
    Strategy.idle_node (Rule.idle_all_head hoperator _) _
  refine Strategy.accordsLoudly_padded h (happlication.star.seq Attempt.still_nothing) ?_
  rintro ts _ ⟨d, e, -, rfl⟩
  exact ⟨.expr e, rfl, fun _ => rfl⟩

/-- All levels of a table, over operands that accord. -/
theorem levels_accord {table table' : List (List BinaryOperator)}
    (hw : GrammarOptions.TableWidens table table') (hnodup : table'.flatten.Nodup)
    (habsent : ∀ op ∈ table'.flatten, op ∉ table.flatten → Absent tokens op.symbol) {k n : Nat}
    (hk : options.precedence.drop k = table)
    (h : operand.AccordsLoudly tokens levels target target' (Tree (Level options k)) operand') :
    (Grammar.levels options (k + 1) operand table).AccordsLoudly tokens levels target target'
      (Tree (Level options (k + table.length))) (Grammar.levels options' n operand' table') := by
  -- on how the table is widened; each level of the narrower one is an operand of the next
  induction hw generalizing operand operand' k n with
  | nil => exact h
  | @level ops ops' table table' hops hw ih =>
    obtain ⟨rfl, htable⟩ := operatorsAt_of_drop hk
    have hlevel : ∀ op ∈ ops', op ∉ operatorsAt options k → Absent tokens op.symbol :=
      fun op hop hnew => habsent op (List.mem_append_left _ hop) (hw.new_on_level hnodup hop hnew)
    have hlooser : ∀ op ∈ table'.flatten, op ∉ table.flatten → Absent tokens op.symbol :=
      fun op hop hnew => habsent op (List.mem_append_right _ hop)
        (GrammarOptions.new_behind_level hops hnodup hop hnew)
    rw [List.length_cons, Nat.add_comm table.length, ← Nat.add_assoc]
    exact ih (List.nodup_append.mp hnodup).2.1 hlooser htable (level_accords hops hlevel h)
  | @inserted ops' table table' hw ih =>
    have hlevel : ∀ op ∈ ops', Absent tokens op.symbol := fun op hop =>
      habsent op (List.mem_append_left _ hop) (hw.not_mem_rest hnodup hop)
    exact ih (List.nodup_append.mp hnodup).2.1 (fun op hop =>
      habsent op (List.mem_append_right _ hop)) hk (inserted_accords hlevel h)

end Table

/-! ### Whole grammars -/

section Grammars

variable (hw : options.Widens options') (hnodup : options'.precedence.flatten.Nodup)
  (habsent : ∀ symbol, options.Adds options' symbol → Absent tokens symbol)

include hw hnodup habsent

theorem expression_accords_of_nested
    (hn : nested.AccordsLoudly tokens levels target target' (Tree (Expression options)) nested) :
    (expression options).AccordsLoudly tokens levels target target' (Tree (Expression options))
      (expression options') := by
  have hunary := unary_accords hw.regexLiterals_eq hw.assignments_eq hn hw.unaryOperators
    fun op hop hnew => habsent _ (Or.inr ⟨op, hop, hnew, rfl⟩)
  have hoperand : (unary options).AccordsLoudly tokens levels target target'
      (Tree (Level options 0)) (unary options') :=
    hunary.mono fun ts _ ⟨d, e, he, hc⟩ => ⟨d, e, .unary d ts e he, hc⟩
  have htest : (Grammar.levels options 1 (unary options) options.precedence).AccordsLoudly tokens
      levels target target' (Tree (Level options (0 + options.precedence.length)))
      (Grammar.levels options' 1 (unary options') options'.precedence) :=
    levels_accord hw.precedence hnodup
      (fun op hop hnew => habsent _ (Or.inl ⟨op, hop, hnew, rfl⟩)) rfl hoperand
  rw [Nat.zero_add] at htest
  have hbranches : (Rule.all [.verbatim "?", nested, .verbatim ":", nested]).AccordsLoudly tokens
      levels target target' _ (.all [.verbatim "?", nested, .verbatim ":", nested]) :=
    (Rule.accordsLoudly_verbatim "?").seq (hn.seq ((Rule.accordsLoudly_verbatim ":").seq
      (hn.seq Rule.accordsLoudly_all_nil)))
  exact Strategy.accordsLoudly_node
    (htest.seq (hbranches.toAccords.optional.seq Rule.accordsLoudly_all_nil)) makes_conditional

/-- What is behind the reference accords, however many levels can be entered. -/
theorem nested_accords : ∀ levels, nested.AccordsLoudly tokens levels
    ((graph options).traceBehind tokens levels) ((graph options').traceBehind tokens levels)
    (Tree (Expression options)) nested
  | 0 => Attempt.accordsLoudly_refused
  | levels + 1 => expression_accords_of_nested hw hnodup habsent (nested_accords levels)

theorem program_accords (levels : Nat) : (program options).AccordsLoudly tokens levels
    ((graph options).traceBehind tokens levels) ((graph options').traceBehind tokens levels)
    (Tree (Compound options .program)) (program options') :=
  compound_accords hw.assignments_eq
    (expression_accords_of_nested hw hnodup habsent (nested_accords hw hnodup habsent levels))

end Grammars

/-! ### Verdicts -/

/-- Where two traces of a whole program come to the same, so do the verdicts. -/
theorem verdictOf_alike {t u : Trace Production (Outcome Part)} (h : Alike 0 t u)
    (hexpr : ∀ c q, t.Reads c q → ∃ e, c = [.expr e]) :
    (verdictOf tokens t).mapError Failure.withoutExpected =
      (verdictOf tokens u).mapError Failure.withoutExpected := by
  rcases h with @⟨c, q, h, h', hreach⟩ | ⟨h, h', hreach⟩ | ⟨h, h'⟩
  · obtain ⟨e, rfl⟩ := hexpr c q h
    unfold Reads at h h'
    simp only [verdictOf, h, h', Option.map_some, Option.getD_some]
    by_cases hnext : q < tokens.size
    · by_cases hfurthest : q < t.reach
      · have hsame : t.reach = u.reach := by omega
        rw [verdict_of_furthest _ hnext hfurthest,
          verdict_of_furthest _ hnext (show q < u.reach by omega)]
        show Except.error (unexpected tokens [] t.reach) = .error (unexpected tokens [] u.reach)
        rw [hsame]
      · rw [verdict_of_left _ hnext hfurthest,
          verdict_of_left _ hnext (show ¬ q < u.reach by omega)]
    · rw [verdict_of_end _ hnext, verdict_of_end _ hnext]
      rfl
  · unfold Fails at h h'
    simp only [verdictOf, h, h', Option.map_none]
    have hsame : t.reach = u.reach := by omega
    show Except.error (unexpected tokens [] t.reach) = .error (unexpected tokens [] u.reach)
    rw [hsame]
  · rw [verdictOf, h, verdictOf, h']

/-- For options without a fault, further operators change no tree, and no failure but for the
alternatives that were expected, where none of their symbols occurs. -/
theorem widening_conserves (h : options.validate = .ok options)
    (h' : options'.validate = .ok options') (hw : options.Widens options') :
    ∃ narrow wide, ofOptions options = .ok narrow ∧ ofOptions options' = .ok wide ∧
      ∀ tokens, (∀ t ∈ tokens, t.kind = .verbatim → ¬ options.Adds options' t.text) →
        (narrow.parseTokens tokens).mapError Failure.withoutExpected =
          (wide.parseTokens tokens).mapError Failure.withoutExpected := by
  have hfault := (GrammarOptions.fault?_of_validate h).1
  have hfault' := (GrammarOptions.fault?_of_validate h').1
  refine ⟨_, _, ofOptions_eq hfault, ofOptions_eq hfault', fun tokens htokens => ?_⟩
  have habsent : ∀ symbol, options.Adds options' symbol → Absent tokens.toArray symbol :=
    fun symbol hadds t ht hverbatim =>
      htokens t (List.mem_toArray.mp ht) hverbatim.1 (hverbatim.2 ▸ hadds)
  have haccords := program_accords hw (GrammarOptions.nodup_of_fault?_eq_none hfault') habsent
    nestingLimit
  rw [parseTokens_eq, parseTokens_eq]
  refine verdictOf_alike (haccords.alike 0) fun c q hread => ?_
  obtain ⟨ts, ⟨d, e, -, hc⟩, -⟩ := haccords.readsIn 0 c q hread
  exact ⟨e, hc⟩

/-- The standard table between products and further connectives, with a sign in front. -/
def withProducts : GrammarOptions :=
  { GrammarOptions.standard with
    precedence := [[.multiply, .remainder], [.subtract, .add], [.logicalAnd], [.and],
      [.any, .logicalOr]]
    unaryOperators := [.minus, .not] }

/-- The tokens of `NOT x +`, where an operand is missing. -/
def negatedOpenSum : List Token :=
  [⟨.verbatim, "NOT", .text "NOT", [], ⟨0, 3⟩, ⟨1, 1⟩⟩,
    ⟨.identifier, "x", .text "x", [], ⟨4, 5⟩, ⟨1, 5⟩⟩,
    ⟨.verbatim, "+", .text "+", [], ⟨6, 7⟩, ⟨1, 7⟩⟩]

theorem products_conserve_sums : GrammarOptions.standard.validate = .ok .standard ∧
    withProducts.validate = .ok withProducts ∧ GrammarOptions.standard.Widens withProducts ∧
    (∀ t ∈ negatedOpenSum, t.kind = .verbatim →
      ¬ GrammarOptions.standard.Adds withProducts t.text) ∧
    ∃ narrow wide, ofOptions .standard = .ok narrow ∧ ofOptions withProducts = .ok wide ∧
      (narrow.parseTokens negatedOpenSum).mapError Failure.withoutExpected =
        (wide.parseTokens negatedOpenSum).mapError Failure.withoutExpected := by
  have hvalid : GrammarOptions.standard.validate = .ok .standard := rfl
  have hvalid' : withProducts.validate = .ok withProducts := rfl
  have hw : GrammarOptions.standard.Widens withProducts :=
    ⟨.inserted _ (.level (by decide) (.inserted _ (.level (by decide) (.level (by decide) .nil)))),
      by decide, rfl, rfl⟩
  have htokens : ∀ t ∈ negatedOpenSum, t.kind = .verbatim →
      ¬ GrammarOptions.standard.Adds withProducts t.text := by
    decide
  obtain ⟨narrow, wide, hnarrow, hwide, h⟩ := widening_conserves hvalid hvalid' hw
  exact ⟨hvalid, hvalid', hw, htokens, narrow, wide, hnarrow, hwide, h _ htokens⟩

end Grammar

end Precedence
