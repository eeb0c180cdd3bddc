import Precedence.Proofs.Grammar.Verdict
import Precedence.Proofs.Rule.Captures

/-!
# What the nodes of a grammar are handed

The captures of a rule have no types, but each node of a grammar makes parts of one kind only
(`Made`), so that the captures of the rules over nodes have a form (`Handed`), whatever the text and
whatever is remembered. From captures of that form every node makes its part, but for literals:
a number that has no finite value is rejected, and a regular expression without a pattern
(`Handed.eq_none_iff`). So a program that matches is one expression (`nodes_handed`).
-/

namespace Precedence.Grammar

variable {options : GrammarOptions} {tokens : Array Token} {p q : Nat} {c : List Part}

/-! ### The nodes that are tried -/

theorem unkeyed_node (key : Production) (r : GrammarRule) (reduce : Reducer Part) :
    unkeyed (node options key r reduce) = .node r reduce := by
  unfold node Strategy.node
  rcases options.strategy with _ | _
  · rfl
  · rfl

theorem node_inj {key key' : Production} {r r' : GrammarRule} {reduce reduce' : Reducer Part}
    (h : node options key r reduce = node options key' r' reduce') :
    r = r' ∧ reduce = reduce' := by
  have h := congrArg unkeyed h
  rw [unkeyed_node, unkeyed_node] at h
  exact ⟨(Rule.node.inj h).1, (Rule.node.inj h).2⟩

/-- The rule and the reducer of a node that the grammar has. -/
def IsNode (options : GrammarOptions) (r : GrammarRule) (reduce : Reducer Part) : Prop :=
  ∃ production, keyedRule options production = node options production r reduce

theorem Built.nodes {rule : GrammarRule} (h : Built options rule) :
    rule.Nodes (IsNode options) := by
  induction h with
  | seq _ _ hr ht => exact ⟨hr, ht⟩
  | choice _ _ hr ht => exact ⟨hr, ht⟩
  | plus _ hr => exact hr
  | optional _ hr => exact hr
  | @node key r reduce hkey _ hr =>
    unfold Grammar.node Strategy.node
    rcases options.strategy with _ | _
    · exact ⟨⟨key, hkey⟩, hr⟩
    · exact ⟨⟨key, hkey⟩, hr⟩
  | _ => trivial

theorem sound_graph (options : GrammarOptions) :
    (graph options).Sound (fun key => unkeyed (keyedRule options key)) (IsNode options) :=
  ⟨keyed_behind, fun slot rule h => (built_behind slot rule h).nodes⟩

theorem sound_start (options : GrammarOptions) (tokens : Array Token) :
    Trial.Sound (graph options) (fun key => unkeyed (keyedRule options key)) tokens
      (IsNode options) ⟨nestingLimit, program options, options.strategy.start tokens⟩ :=
  ⟨keyed_program, built_program.nodes, ParseState.sourced_start _ _⟩

/-! ### What nodes make -/

/-- The parts that a node of the grammar makes. -/
def Made : Production → Part → Prop
  | .unaryOperator, v => ∃ op, v = .unary op
  | .binaryOperator _, v => ∃ op, v = .binary op
  | .application _, v => ∃ op right, v = .operand op right
  | _, v => ∃ e, v = .expr e

/-- Whatever the reducer makes is an expression. -/
def MakesExprs (reduce : Reducer Part) : Prop :=
  ∀ parts stretch v, reduce parts stretch = some v → ∃ e, v = .expr e

theorem makesExprs_leaf {f : Token → Expr} :
    MakesExprs fun parts _ => (Part.single? parts).bind fun t => some (.expr (f t)) := by
  intro parts stretch v hv
  obtain ⟨t, -, hv⟩ := Option.bind_eq_some_iff.mp hv
  exact ⟨f t, (Option.some.inj hv).symm⟩

theorem makesExprs_number : MakesExprs Part.reduceNumber := by
  intro parts stretch v hv
  obtain ⟨t, -, hv⟩ := Option.bind_eq_some_iff.mp hv
  obtain ⟨x, -, hv⟩ := Option.bind_eq_some_iff.mp hv
  split at hv
  · exact ⟨_, (Option.some.inj hv).symm⟩
  · simp at hv

theorem makesExprs_regex : MakesExprs Part.reduceRegex := by
  intro parts stretch v hv
  obtain ⟨t, -, hv⟩ := Option.bind_eq_some_iff.mp hv
  obtain ⟨pattern, -, hv⟩ := Option.bind_eq_some_iff.mp hv
  exact ⟨_, (Option.some.inj hv).symm⟩

theorem makesExprs_unary : MakesExprs Part.reduceUnary := by
  intro parts stretch v hv
  obtain ⟨e, -, rfl⟩ := Option.map_eq_some_iff.mp hv
  exact ⟨e, rfl⟩

theorem makesExprs_level : MakesExprs Part.reduceLevel := by
  intro parts stretch v hv
  unfold Part.reduceLevel at hv
  split at hv
  · obtain ⟨e, -, rfl⟩ := Option.map_eq_some_iff.mp hv
    exact ⟨e, rfl⟩
  · simp at hv

theorem makesExprs_conditional : MakesExprs Part.reduceConditional := by
  intro parts stretch v hv
  unfold Part.reduceConditional at hv
  split at hv
  · exact ⟨_, (Option.some.inj hv).symm⟩
  · exact ⟨_, (Option.some.inj hv).symm⟩
  · simp at hv

theorem makesExprs_assignment : MakesExprs Part.reduceAssignment := by
  intro parts stretch v hv
  unfold Part.reduceAssignment at hv
  split at hv
  · exact ⟨_, (Option.some.inj hv).symm⟩
  · simp at hv

theorem makesExprs_compound : MakesExprs Part.reduceCompound := by
  intro parts stretch v hv
  obtain ⟨es, -, hv⟩ := Option.bind_eq_some_iff.mp hv
  split at hv
  · exact ⟨_, (Option.some.inj hv).symm⟩
  · exact ⟨_, (Option.some.inj hv).symm⟩

/-- What is made of an operator's first token. -/
theorem exists_of_operator {α : Type} {ofSymbol? : String → Option α} {part : α → Part}
    {stretch : Stretch} {v : Part}
    (hv : (stretch.first?.bind fun t => (ofSymbol? t.text).bind fun op => some (part op)) =
      some v) : ∃ op, v = part op := by
  obtain ⟨t, -, hv⟩ := Option.bind_eq_some_iff.mp hv
  obtain ⟨op, -, hv⟩ := Option.bind_eq_some_iff.mp hv
  exact ⟨op, (Option.some.inj hv).symm⟩

/-- A node captures a single part, of the kind that it makes. -/
theorem captures_made (production : Production)
    (h : (graph options).Captures tokens (keyedRule options production) p c q) :
    ∃ v, c = [v] ∧ Made production v := by
  have hnode {production : Production} {r : GrammarRule} {reduce : Reducer Part}
      {M : Part → Prop}
      (h : (graph options).Captures tokens (node options production r reduce) p c q)
      (hmade : ∀ parts stretch v, reduce parts stretch = some v → M v) :
      ∃ v, c = [v] ∧ M v := by
    obtain ⟨parts, v, -, hv, rfl⟩ := captures_node.mp h
    exact ⟨v, rfl, hmade _ _ _ hv⟩
  cases production with
  | identifier | target place | stringLiteral | nullLiteral | booleanLiteral =>
    exact hnode h makesExprs_leaf
  | numberLiteral => exact hnode h makesExprs_number
  | regexLiteral => exact hnode h makesExprs_regex
  | hole place => exact hnode h fun _ _ _ hv => ⟨.hole, (Option.some.inj hv).symm⟩
  | assignment place => exact hnode h makesExprs_assignment
  | compound place => exact hnode h makesExprs_compound
  | unaryOperator => exact hnode h fun _ _ _ => exists_of_operator
  | binaryOperator k => exact hnode h fun _ _ _ => exists_of_operator
  | unary => exact hnode h makesExprs_unary
  | application k =>
    refine hnode h fun parts stretch v hv => ?_
    unfold Part.reduceApplication at hv
    split at hv
    · exact ⟨_, _, (Option.some.inj hv).symm⟩
    · simp at hv
  | level k =>
    rcases k with _ | k
    · exact hnode h makesExprs_unary
    · exact hnode h makesExprs_level
  | conditional =>
    rw [keyedRule, expression_eq] at h
    exact hnode h makesExprs_conditional

/-! ### What the rules over nodes capture -/

theorem captures_expr (production : Production)
    (h : (graph options).Captures tokens (keyedRule options production) p c q)
    (hmade : ∀ v, Made production v → ∃ e, v = .expr e) : ∃ e, c = [.expr e] := by
  obtain ⟨v, rfl, hv⟩ := captures_made production h
  obtain ⟨e, rfl⟩ := hmade v hv
  exact ⟨e, rfl⟩

theorem captures_place (place : Place)
    (h : (graph options).Captures tokens (place.expression options) p c q) :
    ∃ e, c = [.expr e] := by
  cases place with
  | program => exact captures_expr .conditional h fun _ => id
  | group =>
    -- behind the reference is a node again, so that nothing need be known of what it is made of
    obtain ⟨rule, hslot, h⟩ := captures_reference.mp h
    obtain rfl := Option.some.inj hslot
    exact captures_expr .conditional h fun _ => id

theorem captures_chain {k : Nat}
    (h : (graph options).Captures tokens (chainRule options k) p c q) : ∃ e, c = [.expr e] :=
  captures_expr (.level k) h fun _ => id

theorem captures_literal (h : (graph options).Captures tokens (literal options) p c q) :
    ∃ e, c = [.expr e] := by
  rw [literal_eq] at h
  obtain ⟨_, hr, h⟩ := exists_of_captures_any h
  obtain ⟨k, hk, rfl⟩ := List.mem_map.mp hr
  rcases mem_literalKinds.mp hk with rfl | rfl | rfl | rfl | ⟨-, rfl⟩
  · exact captures_expr .stringLiteral h fun _ => id
  · exact captures_expr .numberLiteral h fun _ => id
  · exact captures_expr .nullLiteral h fun _ => id
  · exact captures_expr .booleanLiteral h fun _ => id
  · exact captures_expr .regexLiteral h fun _ => id

theorem captures_primary (h : (graph options).Captures tokens (primary options) p c q) :
    ∃ e, c = [.expr e] := by
  obtain ⟨_, hr, h⟩ := exists_of_captures_any h
  simp only [List.mem_cons, List.not_mem_nil, or_false] at hr
  rcases hr with rfl | rfl | rfl
  · exact captures_expr .identifier h fun _ => id
  · exact captures_literal h
  · obtain ⟨_, _, _, hcompound, hclose, rfl⟩ := captures_all_cons.mp (captures_all_verbatim h)
    obtain ⟨e, rfl⟩ := captures_expr (.compound .group) hcompound fun _ => id
    obtain ⟨-, -, -, rfl, -⟩ := captures_verbatim.mp (captures_all_single.mp hclose)
    exact ⟨e, rfl⟩

theorem captures_assignable {place : Place}
    (h : (graph options).Captures tokens (assignable options place (place.expression options))
      p c q) : ∃ e, c = [.expr e] := by
  unfold assignable at h
  split at h
  · obtain ⟨_, hr, h⟩ := exists_of_captures_any h
    simp only [List.mem_cons, List.not_mem_nil, or_false] at hr
    rcases hr with rfl | rfl
    · exact captures_expr (.assignment place) h fun _ => id
    · exact captures_place place h
  · exact captures_place place h

/-- What captures parts of one kind captures a row of them when it is repeated. -/
theorem captures_row {α : Type} (part : α → Part) {r : GrammarRule}
    (hr : ∀ p c q, (graph options).Captures tokens r p c q → ∃ xs : List α, c = xs.map part)
    (h : (graph options).Captures tokens (.star r) p c q) : ∃ xs : List α, c = xs.map part := by
  refine captures_star h ⟨[], rfl⟩ ?_ hr
  rintro _ _ ⟨xs, rfl⟩ ⟨ys, rfl⟩
  exact ⟨xs ++ ys, List.map_append.symm⟩

/-- Behind the first element of a compound there are only expressions. -/
theorem captures_furtherElement {place : Place}
    (h : (graph options).Captures tokens (.all [elision options place,
      assignable options place (place.expression options)]) p c q) :
    ∃ es : List Expr, c = es.map .expr := by
  obtain ⟨_, _, _, helision, helement, rfl⟩ := captures_all_cons.mp h
  obtain ⟨e, rfl⟩ := captures_assignable (captures_all_single.mp helement)
  have hholes := captures_all_single.mp (captures_all_verbatim helision)
  obtain ⟨holes, rfl⟩ := captures_row .expr (fun _ _ _ h => by
    obtain ⟨e, rfl⟩ := captures_expr (.hole place) h fun _ => id
    exact ⟨[e], rfl⟩) hholes
  exact ⟨holes ++ [e], by simp⟩

/-- The operator of a node is that of the token in front. -/
theorem captures_operator {α : Type} {ops : List α} {symbol : α → String}
    (h : (graph options).Captures tokens (.any (ops.map fun op => .verbatim (symbol op))) p c q) :
    ∃ op t, op ∈ ops ∧ (⟨tokens, p, q⟩ : Stretch).first? = some t ∧ t.IsVerbatim (symbol op) ∧
      c = [] := by
  obtain ⟨_, hr, h⟩ := exists_of_captures_any h
  obtain ⟨op, hop, rfl⟩ := List.mem_map.mp hr
  obtain ⟨t, ht, hs, rfl, rfl⟩ := captures_verbatim.mp h
  exact ⟨op, t, hop, first?_eq ht, hs, rfl⟩

/-! ### What nodes are handed -/

/-- The kind of the token that a node is made of, if it is a leaf. -/
def leafKind? : Production → Option TokenKind
  | .identifier => some .identifier
  | .target _ => some .identifier
  | .stringLiteral => some .string
  | .numberLiteral => some .number
  | .nullLiteral => some .null
  | .booleanLiteral => some .boolean
  | .regexLiteral => some .regex
  | _ => none

/-- The captures that a node is made of, and for an operator the token in front of its stretch. -/
inductive Handed (options : GrammarOptions) (stretch : Stretch) : Production → List Part → Prop
  | leaf (production : Production) (t : Token) (h : leafKind? production = some t.kind) :
    Handed options stretch production [.token t]
  | hole (place : Place) : Handed options stretch (.hole place) []
  | assignment (place : Place) (target value : Expr) :
    Handed options stretch (.assignment place) [.expr target, .expr value]
  | compound (place : Place) (e : Expr) (es : List Expr) :
    Handed options stretch (.compound place) ((e :: es).map .expr)
  | unaryOperator (op : UnaryOperator) (t : Token) (hop : op ∈ options.unaryOperators)
    (ht : stretch.first? = some t) (hs : t.IsVerbatim op.symbol) :
    Handed options stretch .unaryOperator []
  | unary (ops : List UnaryOperator) (e : Expr) :
    Handed options stretch .unary (ops.map .unary ++ [.expr e])
  | binaryOperator (k : Nat) (op : BinaryOperator) (t : Token)
    (hop : op ∈ operatorsAt options (k - 1)) (ht : stretch.first? = some t)
    (hs : t.IsVerbatim op.symbol) : Handed options stretch (.binaryOperator k) []
  | application (k : Nat) (op : BinaryOperator) (right : Expr) :
    Handed options stretch (.application k) [.binary op, .expr right]
  | level (k : Nat) (left : Expr) (operands : List (BinaryOperator × Expr)) :
    Handed options stretch (.level (k + 1))
      (.expr left :: operands.map fun x => .operand x.1 x.2)
  | test (e : Expr) : Handed options stretch .conditional [.expr e]
  | branches (test consequent alternate : Expr) :
    Handed options stretch .conditional [.expr test, .expr consequent, .expr alternate]

/-- The captures that are rejected: of a numeral without a finite value, and of a regular expression
without a pattern. -/
inductive Rejected : Production → List Part → Prop
  | number (t : Token) (h : finite? t = none) : Rejected .numberLiteral [.token t]
  | regex (t : Token) (h : t.capture? 0 = none) : Rejected .regexLiteral [.token t]

section Nodes

variable {production : Production} {r : GrammarRule} {reduce : Reducer Part}

theorem handed_leaf {k : TokenKind} (hk : leafKind? production = some k)
    (h : (graph options).Captures tokens (.kind k) p c q) :
    Handed options ⟨tokens, p, q⟩ production c := by
  obtain ⟨t, -, rfl, rfl, -⟩ := captures_kind.mp h
  exact .leaf production t hk

theorem handed_assignment {place : Place}
    (h : (graph options).Captures tokens
      (.all [node options (.target place) (.kind .identifier) Part.reduceIdentifier,
        .verbatim "=", place.expression options]) p c q) :
    Handed options ⟨tokens, p, q⟩ (.assignment place) c := by
  obtain ⟨_, _, _, htarget, hvalue, rfl⟩ := captures_all_cons.mp h
  obtain ⟨target, rfl⟩ := captures_expr (.target place) htarget fun _ => id
  obtain ⟨value, rfl⟩ := captures_place place (captures_all_single.mp (captures_all_verbatim hvalue))
  exact .assignment place target value

theorem handed_compound {place : Place}
    (h : (graph options).Captures tokens
      (.all [assignable options place (place.expression options),
        .star (.all [elision options place,
          assignable options place (place.expression options)])]) p c q) :
    Handed options ⟨tokens, p, q⟩ (.compound place) c := by
  obtain ⟨_, _, _, helement, hfurther, rfl⟩ := captures_all_cons.mp h
  obtain ⟨e, rfl⟩ := captures_assignable helement
  obtain ⟨es, rfl⟩ := captures_row .expr (fun _ _ _ => captures_furtherElement)
    (captures_all_single.mp hfurther)
  exact .compound place e es

theorem handed_unary
    (h : (graph options).Captures tokens
      (.all [.star (keyedRule options .unaryOperator), primary options]) p c q) :
    Handed options ⟨tokens, p, q⟩ .unary c := by
  obtain ⟨_, _, _, hoperators, hprimary, rfl⟩ := captures_all_cons.mp h
  obtain ⟨ops, rfl⟩ := captures_row .unary (fun _ _ _ h => by
    obtain ⟨_, rfl, op, rfl⟩ := captures_made .unaryOperator h
    exact ⟨[op], rfl⟩) hoperators
  obtain ⟨e, rfl⟩ := captures_primary (captures_all_single.mp hprimary)
  exact .unary ops e

theorem handed_application {k : Nat}
    (h : (graph options).Captures tokens
      (.all [keyedRule options (.binaryOperator k), chainRule options (k - 1)]) p c q) :
    Handed options ⟨tokens, p, q⟩ (.application k) c := by
  obtain ⟨_, _, _, hoperator, hright, rfl⟩ := captures_all_cons.mp h
  obtain ⟨_, rfl, op, rfl⟩ := captures_made (.binaryOperator k) hoperator
  obtain ⟨right, rfl⟩ := captures_chain (captures_all_single.mp hright)
  exact .application k op right

theorem handed_level {k : Nat}
    (h : (graph options).Captures tokens
      (.all [chainRule options k, .star (keyedRule options (.application (k + 1)))]) p c q) :
    Handed options ⟨tokens, p, q⟩ (.level (k + 1)) c := by
  obtain ⟨_, _, _, hleft, hoperands, rfl⟩ := captures_all_cons.mp h
  obtain ⟨left, rfl⟩ := captures_chain hleft
  obtain ⟨operands, rfl⟩ := captures_row (fun x : BinaryOperator × Expr => .operand x.1 x.2)
    (fun _ _ _ h => by
      obtain ⟨_, rfl, op, right, rfl⟩ := captures_made (.application (k + 1)) h
      exact ⟨[(op, right)], rfl⟩) (captures_all_single.mp hoperands)
  exact .level k left operands

theorem handed_conditional {k : Nat}
    (h : (graph options).Captures tokens
      (.all [chainRule options k,
        .optional (.all [.verbatim "?", nested, .verbatim ":", nested])]) p c q) :
    Handed options ⟨tokens, p, q⟩ .conditional c := by
  obtain ⟨_, _, _, htest, hbranches, rfl⟩ := captures_all_cons.mp h
  obtain ⟨test, rfl⟩ := captures_chain htest
  rcases captures_optional.mp (captures_all_single.mp hbranches) with ⟨rfl, -⟩ | hbranches
  · exact .test test
  · obtain ⟨_, _, _, hconsequent, halternate, rfl⟩ :=
      captures_all_cons.mp (captures_all_verbatim hbranches)
    obtain ⟨consequent, rfl⟩ := captures_place .group hconsequent
    obtain ⟨alternate, rfl⟩ := captures_place .group
      (captures_all_single.mp (captures_all_verbatim halternate))
    exact .branches test consequent alternate

/-- Whatever the rule of a node captures is what a node of the grammar is made of. -/
theorem handed_of_captures (hkey : keyedRule options production = node options production r reduce)
    (h : (graph options).Captures tokens r p c q) :
    ∃ production, keyedRule options production = node options production r reduce ∧
      Handed options ⟨tokens, p, q⟩ production c := by
  have hnode {production' : Production} {r' : GrammarRule} {reduce' : Reducer Part}
      (heq : keyedRule options production = node options production' r' reduce')
      (heq' : keyedRule options production' = node options production' r' reduce')
      (hhanded : (graph options).Captures tokens r' p c q →
        Handed options ⟨tokens, p, q⟩ production' c) :
      ∃ production, keyedRule options production = node options production r reduce ∧
        Handed options ⟨tokens, p, q⟩ production c := by
    obtain ⟨rfl, rfl⟩ := node_inj (heq.symm.trans hkey)
    exact ⟨production', heq', hhanded h⟩
  cases production with
  | identifier | target place | stringLiteral | numberLiteral | nullLiteral | booleanLiteral
  | regexLiteral => exact hnode rfl rfl (handed_leaf rfl)
  | hole place =>
    refine hnode rfl rfl fun h => ?_
    obtain ⟨-, -, -, rfl, -⟩ := captures_verbatim.mp h
    exact .hole place
  | assignment place => exact hnode rfl rfl handed_assignment
  | compound place => exact hnode rfl rfl handed_compound
  | unaryOperator =>
    refine hnode rfl rfl fun h => ?_
    obtain ⟨op, t, hop, ht, hs, rfl⟩ := captures_operator h
    exact .unaryOperator op t hop ht hs
  | unary => exact hnode rfl rfl handed_unary
  | binaryOperator k =>
    refine hnode rfl rfl fun h => ?_
    obtain ⟨op, t, hop, ht, hs, rfl⟩ := captures_operator h
    exact .binaryOperator k op t hop ht hs
  | application k => exact hnode rfl rfl handed_application
  | level k =>
    rcases k with _ | k
    · -- what is called level 0 is the operand of the tightest level
      exact hnode rfl rfl handed_unary
    · exact hnode rfl rfl handed_level
  | conditional => exact hnode (expression_eq options) (expression_eq options) handed_conditional

/-! ### What nodes make of it -/

theorem applyUnary_map (ops : List UnaryOperator) (e : Expr) :
    Part.applyUnary (ops.map .unary ++ [.expr e]) = some (ops.foldr .unary e) := by
  induction ops with
  | nil => rfl
  | cons op ops ih => rw [List.map_cons, List.cons_append, Part.applyUnary, ih]; rfl

theorem rejected_number_iff {t : Token} :
    Rejected .numberLiteral [.token t] ↔ finite? t = none := by
  constructor
  · rintro ⟨⟩
    assumption
  · exact .number t

theorem rejected_regex_iff {t : Token} :
    Rejected .regexLiteral [.token t] ↔ t.capture? 0 = none := by
  constructor
  · rintro ⟨⟩
    assumption
  · exact .regex t

theorem reduceNumber_eq_none_iff {t : Token} {stretch : Stretch} :
    Part.reduceNumber [.token t] stretch = none ↔ Rejected .numberLiteral [.token t] := by
  have hreduce : Part.reduceNumber [.token t] stretch =
      (finite? t).map fun x => .expr (.literal (.number x) t.text t.span) := by
    simp only [Part.reduceNumber, Part.single?, finite?, Option.bind_eq_bind, Option.bind_some,
      Option.orElse_eq_orElse, Option.orElse_eq_or]
    rcases t.number?.or (Number.Numeral.value? t.textValue.toList) with _ | x
    · rfl
    · by_cases hx : x.isFinite <;> simp [Option.filter, hx]
  rw [hreduce, Option.map_eq_none_iff, rejected_number_iff]

theorem reduceRegex_eq_none_iff {t : Token} {stretch : Stretch} :
    Part.reduceRegex [.token t] stretch = none ↔ Rejected .regexLiteral [.token t] := by
  have hreduce : Part.reduceRegex [.token t] stretch = none ↔ t.capture? 0 = none := by
    simp only [Part.reduceRegex, Part.single?, Option.bind_eq_bind, Option.bind_some]
    rcases t.capture? 0 with _ | pattern
    · exact iff_of_true rfl rfl
    · simp
  rw [hreduce, rejected_regex_iff]

/-- A node rejects its captures only if they are such a literal. -/
theorem Handed.eq_none_iff {stretch : Stretch} (h : Handed options stretch production c)
    (hkey : keyedRule options production = node options production r reduce) :
    reduce c stretch = none ↔ Rejected production c := by
  have haccepts {r' : GrammarRule} {reduce' : Reducer Part} {v : Part}
      (heq : keyedRule options production = node options production r' reduce')
      (hv : reduce' c stretch = some v) (hnot : ¬ Rejected production c) :
      reduce c stretch = none ↔ Rejected production c := by
    obtain ⟨rfl, rfl⟩ := node_inj (heq.symm.trans hkey)
    exact iff_of_false (by rw [hv]; simp) hnot
  cases h with
  | leaf production t hkind =>
    cases production with
    | identifier | target place | stringLiteral | nullLiteral | booleanLiteral =>
      exact haccepts rfl rfl (by rintro ⟨⟩)
    | numberLiteral =>
      obtain ⟨-, rfl⟩ := node_inj (rfl.trans hkey)
      exact reduceNumber_eq_none_iff
    | regexLiteral =>
      obtain ⟨-, rfl⟩ := node_inj (rfl.trans hkey)
      exact reduceRegex_eq_none_iff
    | _ => simp [leafKind?] at hkind
  | hole place => exact haccepts rfl rfl (by rintro ⟨⟩)
  | assignment place target value => exact haccepts rfl rfl (by rintro ⟨⟩)
  | compound place e es => exact haccepts rfl (reduceCompound_map e es stretch) (by rintro ⟨⟩)
  | unaryOperator op t hop ht hs =>
    refine haccepts (v := .unary op) rfl ?_ (by rintro ⟨⟩)
    simp [Part.reduceUnaryOperator, ht, hs.2, UnaryOperator.ofSymbol?_symbol]
  | unary ops e =>
    refine haccepts (v := .expr (ops.foldr .unary e)) rfl ?_ (by rintro ⟨⟩)
    rw [Part.reduceUnary, applyUnary_map]
    rfl
  | binaryOperator k op t hop ht hs =>
    refine haccepts (v := .binary op) rfl ?_ (by rintro ⟨⟩)
    simp [Part.reduceBinaryOperator, ht, hs.2, BinaryOperator.ofSymbol?_symbol]
  | application k op right => exact haccepts rfl rfl (by rintro ⟨⟩)
  | level k left operands =>
    refine haccepts (v := .expr (applyAll left operands)) rfl ?_ (by rintro ⟨⟩)
    rw [Part.reduceLevel, applyOperands_map]
    rfl
  | test e => exact haccepts (expression_eq options) rfl (by rintro ⟨⟩)
  | branches test consequent alternate => exact haccepts (expression_eq options) rfl (by rintro ⟨⟩)

end Nodes

/-! ### Parses -/

/-- A program that matches captures one expression. -/
theorem captures_program (h : (graph options).Captures tokens (program options) p c q) :
    ∃ e, c = [.expr e] :=
  captures_expr (.compound .program) h fun _ => id

/-- Whenever in a parse the rule of a node matches, its captures are those that the node is made of,
and they are rejected only if they are a literal without a value. A program that matches is one
expression, which a parse that reads all tokens gives. -/
theorem nodes_handed (grammar : Grammar) (tokens : List Token) :
    (∀ levels r reduce s captures s',
      (graph grammar.options).TriesAmong
          ⟨nestingLimit, program grammar.options, grammar.options.strategy.start tokens.toArray⟩
          ⟨levels, .node r reduce, s⟩ →
        r.run ((graph grammar.options).follow levels) s = (some captures, s') →
          ∃ production,
            keyedRule grammar.options production = node grammar.options production r reduce ∧
            Handed grammar.options ⟨s'.tokens, s.position, s'.position⟩ production captures ∧
            (reduce captures ⟨s'.tokens, s.position, s'.position⟩ = none ↔
              Rejected production captures)) ∧
      ∀ captures s, (graph grammar.options).apply (program grammar.options)
          (grammar.options.strategy.start tokens.toArray) = (some captures, s) →
        ∃ e, captures = [.expr e] ∧
          (s.overflow = none → s.hasNext = false → grammar.parseTokens tokens = .ok e) := by
  constructor
  · intro levels r reduce s captures s' htries hrun
    obtain ⟨⟨production, hkey⟩, htokens, hcaptures⟩ := RuleGraph.captures_of_tries
      (sound_graph grammar.options) (sound_start grammar.options tokens.toArray) htries hrun
    obtain ⟨production, hkey, hhanded⟩ := handed_of_captures hkey hcaptures
    rw [htokens]
    exact ⟨production, hkey, hhanded, hhanded.eq_none_iff hkey⟩
  · intro captures s happly
    have hsources := RuleGraph.run_sources (sound_graph grammar.options).keyed nestingLimit _
      keyed_program _ (sound_start grammar.options tokens.toArray).sourced
    rw [RuleGraph.apply] at happly
    rw [happly] at hsources
    obtain ⟨e, rfl⟩ := captures_program (hsources.2 captures rfl)
    refine ⟨e, rfl, fun hoverflow hnext => ?_⟩
    rw [parseTokens, RuleGraph.apply, happly]
    simp [verdict, hoverflow, hnext, Part.expr?]

/-- One operator in front of operands, and one between them. -/
def logicOptions : GrammarOptions where
  precedence := [[.and]]
  unaryOperators := [.not]
  regexLiterals := false
  assignments := false
  strategy := .backtracking

/-- The tokens of `NOT x`. -/
def negatedName : List Token :=
  [⟨.verbatim, "NOT", .text "NOT", [], ⟨0, 3⟩, ⟨1, 1⟩⟩,
    ⟨.identifier, "x", .text "x", [], ⟨4, 5⟩, ⟨1, 5⟩⟩]

/-- The first node that is tried for an operator is handed nothing but its stretch. -/
theorem negated_name_handed :
    (∃ r s captures s', (graph logicOptions).TriesAmong
        ⟨nestingLimit, program logicOptions, logicOptions.strategy.start negatedName.toArray⟩
        ⟨nestingLimit, .node r Part.reduceUnaryOperator, s⟩ ∧
      r.run ((graph logicOptions).follow nestingLimit) s = (some captures, s') ∧
      ∃ production, keyedRule logicOptions production =
          node logicOptions production r Part.reduceUnaryOperator ∧
        Handed logicOptions ⟨s'.tokens, s.position, s'.position⟩ production captures ∧
        (Part.reduceUnaryOperator captures ⟨s'.tokens, s.position, s'.position⟩ = none ↔
          Rejected production captures)) ∧
      ∃ captures s, (graph logicOptions).apply (program logicOptions)
          (logicOptions.strategy.start negatedName.toArray) = (some captures, s) ∧
        s.overflow = none ∧ s.hasNext = false ∧
        ∃ e, captures = [.expr e] ∧ Grammar.parseTokens ⟨logicOptions, {}⟩ negatedName = .ok e := by
  obtain ⟨hnodes, hprogram⟩ := nodes_handed ⟨logicOptions, {}⟩ negatedName
  constructor
  · have htries : (graph logicOptions).TriesAmong
        ⟨nestingLimit, program logicOptions, logicOptions.strategy.start negatedName.toArray⟩
        ⟨nestingLimit, .node (.any [.verbatim "NOT"]) Part.reduceUnaryOperator,
          logicOptions.strategy.start negatedName.toArray⟩ :=
      .head (.node ..) <| .head (.seqLeft ..) <| .head (.node ..) <| .head (.seqLeft ..) <|
        .head (.node ..) <| .head (.seqLeft ..) <| .head (.node ..) <| .head (.seqLeft ..) <|
        .head (.optional ..) <| .single (.plusFirst ..)
    have hrun : ((Rule.any [.verbatim "NOT"] : GrammarRule).run
        ((graph logicOptions).follow nestingLimit)
        (logicOptions.strategy.start negatedName.toArray)).1.isSome := rfl
    obtain ⟨captures, hcaptures⟩ := Option.isSome_iff_exists.mp hrun
    exact ⟨_, _, captures, _, htries, Prod.ext hcaptures rfl,
      hnodes _ _ _ _ _ _ htries (Prod.ext hcaptures rfl)⟩
  · have hmatch : ((graph logicOptions).apply (program logicOptions)
        (logicOptions.strategy.start negatedName.toArray)).1.isSome := rfl
    obtain ⟨captures, hcaptures⟩ := Option.isSome_iff_exists.mp hmatch
    obtain ⟨e, he, hparse⟩ := hprogram captures _ (Prod.ext hcaptures rfl)
    exact ⟨captures, _, Prod.ext hcaptures rfl, rfl, rfl, e, he, hparse rfl rfl⟩

end Precedence.Grammar
