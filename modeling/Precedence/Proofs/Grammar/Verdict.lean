import Precedence.Grammar.Parse
import Precedence.Proofs.Grammar.Nesting
import Precedence.Proofs.Rule.Run

/-!
# A parse is told by a trace

`Grammar.parseTokens` gives the verdict on what trying the program at the first token comes to,
whichever strategy the options ask for (`parseTokens_eq`). A table of outcomes changes nothing, since
a node is tried at a place with the same number of levels left each time (`program_orderly`).
-/

namespace Precedence.Grammar

open Trace

variable {options : GrammarOptions} {tokens : Array Token}

/-- What a finished parse says, told by its trace. -/
def verdictOf (tokens : Array Token) (t : Trace Production (Outcome Part)) : Except Failure Expr :=
  match t.result with
  | .error i => .error (tooDeep tokens i)
  | .ok o =>
    verdict (o.map Prod.fst) ((ParseState.ofTokens tokens).moved
      (FailureRecord.noteAll ⟨0, []⟩ t.failures) ((o.map Prod.snd).getD 0) none)

/-! ### The rule under each key -/

/-- A rule without its key. -/
def unkeyed : GrammarRule → GrammarRule
  | .memoized _ r => r
  | r => r

/-- The rule of the grammar under each key. -/
def keyedRule (options : GrammarOptions) : Production → GrammarRule
  | .identifier => node options .identifier (.kind .identifier) Part.reduceIdentifier
  | .stringLiteral => literalNode options .string
  | .numberLiteral => literalNode options .number
  | .nullLiteral => literalNode options .null
  | .booleanLiteral => literalNode options .boolean
  | .regexLiteral => literalNode options .regex
  | .hole place => node options (.hole place) (.verbatim ",") Part.reduceHole
  | .target place => node options (.target place) (.kind .identifier) Part.reduceIdentifier
  | .assignment place =>
    node options (.assignment place)
      (.all [node options (.target place) (.kind .identifier) Part.reduceIdentifier,
        .verbatim "=", place.expression options]) Part.reduceAssignment
  | .compound place => compound options place (place.expression options)
  | .unaryOperator =>
    node options .unaryOperator (.any (options.unaryOperators.map fun op => .verbatim op.symbol))
      Part.reduceUnaryOperator
  | .unary => unary options
  | .binaryOperator k =>
    node options (.binaryOperator k)
      (.any ((operatorsAt options (k - 1)).map fun op => .verbatim op.symbol))
      Part.reduceBinaryOperator
  | .application k =>
    node options (.application k)
      (.all [node options (.binaryOperator k)
        (.any ((operatorsAt options (k - 1)).map fun op => .verbatim op.symbol))
        Part.reduceBinaryOperator, chainRule options (k - 1)]) Part.reduceApplication
  | .level k => chainRule options k
  | .conditional => expression options

abbrev Keyed (options : GrammarOptions) (rule : GrammarRule) : Prop :=
  rule.Keyed fun key => unkeyed (keyedRule options key)

theorem keyed_node {key : Production} {r : GrammarRule} {reduce : Reducer Part}
    (hkey : keyedRule options key = node options key r reduce) (hr : Keyed options r) :
    Keyed options (node options key r reduce) := by
  unfold node Strategy.node at hkey ⊢
  rcases hs : options.strategy with _ | _
  · exact hr
  · simp only [hs] at hkey
    exact ⟨by simp only [hkey, unkeyed], hr⟩

/-- A rule whose nodes are those that the grammar has, each under its key. -/
inductive Built (options : GrammarOptions) : GrammarRule → Prop
  | kind (k : TokenKind) : Built options (.kind k)
  | verbatim (text : String) : Built options (.verbatim text)
  | nothing : Built options .nothing
  | never : Built options .never
  | seq {r t : GrammarRule} (hr : Built options r) (ht : Built options t) :
    Built options (.seq r t)
  | choice {r t : GrammarRule} (hr : Built options r) (ht : Built options t) :
    Built options (.choice r t)
  | plus {r : GrammarRule} (hr : Built options r) : Built options (.plus r)
  | optional {r : GrammarRule} (hr : Built options r) : Built options (.optional r)
  | node {key : Production} {r : GrammarRule} {reduce : Reducer Part}
    (hkey : keyedRule options key = node options key r reduce) (hr : Built options r) :
    Built options (node options key r reduce)
  | reference (slot : Nat) : Built options (.reference slot)

namespace Built

theorem keyed {rule : GrammarRule} (h : Built options rule) : Keyed options rule := by
  induction h with
  | seq _ _ hr ht => exact ⟨hr, ht⟩
  | choice _ _ hr ht => exact ⟨hr, ht⟩
  | plus _ hr => exact hr
  | optional _ hr => exact hr
  | node hkey _ hr => exact keyed_node hkey hr
  | _ => trivial

theorem any : ∀ {rules : List GrammarRule}, (∀ r ∈ rules, Built options r) →
    Built options (.any rules)
  | [], _ => .never
  | _ :: _, h =>
    .choice (h _ List.mem_cons_self) (any fun r hr => h r (List.mem_cons_of_mem _ hr))

theorem star {rule : GrammarRule} (h : Built options rule) : Built options (.star rule) :=
  .optional (.plus h)

end Built

theorem built_oneOf {α : Type} {ops : List α} {symbol : α → String} :
    Built options (.any (ops.map fun op => .verbatim (symbol op))) :=
  .any fun r hr => by
    obtain ⟨op, -, rfl⟩ := List.mem_map.mp hr
    exact .verbatim _

theorem built_literal : Built options (literal options) := by
  rw [literal_eq]
  refine .any fun r hr => ?_
  obtain ⟨k, hk, rfl⟩ := List.mem_map.mp hr
  rcases mem_literalKinds.mp hk with rfl | rfl | rfl | rfl | ⟨-, rfl⟩ <;>
    exact .node rfl (.kind _)

theorem built_compound {place : Place} (hx : Built options (place.expression options)) :
    Built options (compound options place (place.expression options)) := by
  have helement : Built options (assignable options place (place.expression options)) := by
    unfold assignable
    by_cases ha : options.assignments
    · rw [if_pos ha]
      have htarget : Built options (node options (.target place) (.kind .identifier)
          Part.reduceIdentifier) := .node rfl (.kind _)
      exact .choice (.node rfl (.seq htarget (.seq (.verbatim _) (.seq hx .nothing))))
        (.choice hx .never)
    · rw [if_neg ha]
      exact hx
  have hhole : Built options (node options (.hole place) (.verbatim ",") Part.reduceHole) :=
    .node rfl (.verbatim _)
  have helision : Built options (elision options place) :=
    .seq (.verbatim _) (.seq hhole.star .nothing)
  have htail : Built options (.all [elision options place,
      assignable options place (place.expression options)]) :=
    .seq helision (.seq helement .nothing)
  exact .node rfl (.seq helement (.seq htail.star .nothing))

theorem built_unary : Built options (unary options) := by
  have hgroup : Built options (compound options .group nested) := built_compound (.reference 0)
  have hprimary : Built options (primary options) :=
    .choice (.node rfl (.kind _)) (.choice built_literal
      (.choice (.seq (.verbatim _) (.seq hgroup (.seq (.verbatim _) .nothing))) .never))
  have hoperator : Built options (node options .unaryOperator
      (.any (options.unaryOperators.map fun op => .verbatim op.symbol))
      Part.reduceUnaryOperator) := .node rfl built_oneOf
  exact .node rfl (.seq hoperator.star (.seq hprimary .nothing))

theorem built_chain : ∀ k, Built options (chainRule options k)
  | 0 => built_unary
  | k + 1 => by
    have happlication : Built options (keyedRule options (.application (k + 1))) :=
      .node rfl (.seq (.node rfl built_oneOf) (.seq (built_chain k) .nothing))
    exact .node rfl (.seq (built_chain k) (.seq happlication.star .nothing))

theorem built_expression : Built options (expression options) := by
  have hkey := expression_eq options
  have hbranches : Built options (.all [.verbatim "?", nested, .verbatim ":", nested]) :=
    .seq (.verbatim _) (.seq (.reference 0) (.seq (.verbatim _) (.seq (.reference 0) .nothing)))
  rw [expression_eq]
  exact .node hkey (.seq (built_chain _) (.seq (.optional hbranches) .nothing))

theorem built_program : Built options (program options) :=
  built_compound built_expression

/-- What is behind the one reference is built like that too. -/
theorem built_behind (slot : Nat) (rule : GrammarRule)
    (h : (graph options).target slot = some rule) : Built options rule := by
  simp only [graph, RuleGraph.close, RuleGraph.isOpen] at h
  by_cases hslot : slot = 0
  · obtain rfl : expression options = rule := by simpa [hslot] using h
    exact built_expression
  · simp [hslot] at h

theorem keyed_program : Keyed options (program options) :=
  built_program.keyed

theorem keyed_behind (slot : Nat) (rule : GrammarRule)
    (h : (graph options).target slot = some rule) : Keyed options rule :=
  (built_behind slot rule h).keyed

/-! ### Running the program -/

/-- What each node comes to at a place, with the levels that the place leaves. -/
def answer (options : GrammarOptions) (tokens : Array Token) (key : Production) :
    Attempt Production Part := fun p =>
  attempt options tokens (nestingLimit + key.offset - (Enclosing.framesAt tokens p).length)
    (unkeyed (keyedRule options key)) p

/-- Running a rule of the grammar comes to what its trace tells. -/
theorem rule_follows {rule : GrammarRule} (hrule : Keyed options rule) (tokens : Array Token) :
    Recognizer.Follows (answer options tokens) tokens nestingLimit (Fits tokens)
      ((graph options).apply rule) (attempt options tokens nestingLimit rule) := by
  refine RuleGraph.run_follows (graph options) keyed_behind (fun v hv => ?_)
    nestingLimit rule hrule
  have hlevels : nestingLimit + v.key.offset - (Enclosing.framesAt tokens v.position).length =
      v.levels := by
    unfold Fits at hv
    omega
  unfold answer
  rw [hlevels]
  exact ⟨rfl, rfl⟩

theorem start_record (strategy : Strategy) :
    (strategy.start tokens : ParseState Production Part).record = ⟨0, []⟩ := by
  rcases strategy with _ | _ <;> rfl

theorem start_tokens (strategy : Strategy) :
    (strategy.start tokens : ParseState Production Part).tokens = tokens := by
  rcases strategy with _ | _ <;> rfl

/-- The verdict does not look into the table of outcomes. -/
theorem verdict_moved (strategy : Strategy) (result : Option (List Part)) (record : FailureRecord)
    (p : Nat) (memo : Option (MemoTable Production Part)) :
    verdict result ((strategy.start tokens).moved record p memo) =
      verdict result ((ParseState.ofTokens tokens).moved record p none) := by
  rcases strategy with _ | _ <;> rfl

/-- The verdict on a rule that is tried somewhere in a fresh state is told by its trace. -/
theorem verdict_eq {rule : GrammarRule} (hrule : Keyed options rule) (strategy : Strategy) {p : Nat}
    (hfits : ∀ v ∈ (attempt options tokens nestingLimit rule p).visits, Fits tokens v) :
    verdict ((graph options).apply rule ((strategy.start tokens).restore p)).1
        ((graph options).apply rule ((strategy.start tokens).restore p)).2 =
      verdictOf tokens (attempt options tokens nestingLimit rule p) := by
  have hagrees := rule_follows hrule tokens ((strategy.start tokens).restore p)
    ((ParseState.start_ready _ tokens strategy).restore p) fun _ => hfits
  unfold verdictOf
  generalize (graph options).apply rule ((strategy.start tokens).restore p) = out at hagrees ⊢
  rcases ht : (attempt options tokens nestingLimit rule p).result with i | o
  · obtain ⟨hoverflow, htokens⟩ := hagrees.refused i ht
    rw [show ((strategy.start tokens).restore p : ParseState Production Part).tokens = tokens from
      start_tokens strategy] at htokens
    simp only [verdict, hoverflow, htokens]
  · have harrives := hagrees.arrives o ht
    have hrecord : ((strategy.start tokens).restore p : ParseState Production Part).record =
        ⟨0, []⟩ := start_record strategy
    simp only
    rw [harrives.result_eq, harrives.state_eq, hrecord]
    rcases o with _ | ⟨c, q⟩
    · exact verdict_moved strategy none _ p _
    · exact verdict_moved strategy (some c) _ q _

/-- A parse gives the verdict on the trace of its program. -/
theorem parseTokens_eq (grammar : Grammar) (tokens : List Token) :
    grammar.parseTokens tokens = verdictOf tokens.toArray
      (attempt grammar.options tokens.toArray nestingLimit (program grammar.options) 0) := by
  rcases grammar with ⟨options, classifier⟩
  have hverdict := verdict_eq keyed_program options.strategy
    (program_orderly options tokens.toArray)
  have hstart : ((options.strategy.start tokens.toArray).restore 0 :
      ParseState Production Part) = options.strategy.start tokens.toArray := by
    rcases options.strategy with _ | _ <;> rfl
  rw [hstart] at hverdict
  exact hverdict

end Precedence.Grammar
