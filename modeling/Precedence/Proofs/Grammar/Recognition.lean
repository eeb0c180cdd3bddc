import Precedence.Proofs.Grammar.Derivation
import Precedence.Proofs.Rule.Outcome

/-!
# Recognizing parts of a grammar

When the rules of which the grammar is built read something, and when they fail: sequences and
alternatives of any length, verbatim tokens, tokens of a kind, and nodes, which read the same whether
their outcomes are remembered or not. `Spans` tells which tokens stand between two places.
-/

namespace Precedence

/-- The tokens from one place up to another. -/
inductive Spans (tokens : Array Token) : Nat → List Token → Nat → Prop
  | nil (p : Nat) : Spans tokens p [] p
  | cons {p q : Nat} {t : Token} {ts : List Token} (ht : tokens[p]? = some t)
    (h : Spans tokens (p + 1) ts q) : Spans tokens p (t :: ts) q

namespace Spans

variable {tokens : Array Token} {p m q : Nat} {t : Token} {ts us : List Token}

theorem single (ht : tokens[p]? = some t) : Spans tokens p [t] (p + 1) :=
  .cons ht (.nil _)

theorem append (h : Spans tokens p ts m) (h' : Spans tokens m us q) :
    Spans tokens p (ts ++ us) q := by
  induction h with
  | nil => exact h'
  | cons ht _ ih => exact .cons ht (ih h')

theorem split : ∀ {ts : List Token} {p : Nat}, Spans tokens p (ts ++ us) q →
    ∃ m, Spans tokens p ts m ∧ Spans tokens m us q
  | [], p, h => ⟨p, .nil p, h⟩
  | t :: ts, p, .cons ht h => by
    obtain ⟨m, h₁, h₂⟩ := split h
    exact ⟨m, .cons ht h₁, h₂⟩

theorem stop_eq (h : Spans tokens p ts q) : q = p + ts.length := by
  induction h with
  | nil => rfl
  | cons _ _ ih => rw [ih, List.length_cons]; omega

theorem le_size (h : Spans tokens p ts q) (hp : p ≤ tokens.size) : q ≤ tokens.size := by
  induction h with
  | nil => exact hp
  | cons ht _ ih => exact ih (Array.getElem?_eq_some_iff.mp ht).1

theorem drop_eq (h : Spans tokens p ts q) :
    tokens.toList.drop p = ts ++ tokens.toList.drop q := by
  induction h with
  | nil => rfl
  | cons ht _ ih =>
    obtain ⟨hlt, rfl⟩ := Array.getElem?_eq_some_iff.mp ht
    rw [List.cons_append, ← ih, ← Array.getElem_toList hlt]
    exact List.drop_eq_getElem_cons hlt

theorem of_drop : ∀ {ts : List Token} {p : Nat} {us : List Token},
    tokens.toList.drop p = ts ++ us → Spans tokens p ts (p + ts.length)
  | [], p, us, _ => .nil p
  | t :: ts, p, us, h => by
    have ht : tokens[p]? = some t := by
      rw [← Array.getElem?_toList, ← List.head?_drop, h]
      rfl
    have h' : tokens.toList.drop (p + 1) = ts ++ us := by
      rw [← List.tail_drop, h]
      rfl
    have := of_drop h'
    rw [List.length_cons, show p + (ts.length + 1) = p + 1 + ts.length by omega]
    exact .cons ht this

/-- All of the tokens. -/
theorem whole_iff (h : p ≤ tokens.size) :
    Spans tokens 0 ts p ∧ tokens.size ≤ p ↔ ts = tokens.toList ∧ p = tokens.size := by
  constructor
  · rintro ⟨h', hp⟩
    have := h'.drop_eq
    rw [List.drop_eq_nil_of_le (show tokens.toList.length ≤ p from hp), List.append_nil] at this
    exact ⟨this.symm, Nat.le_antisymm h hp⟩
  · rintro ⟨rfl, rfl⟩
    refine ⟨?_, Nat.le_refl _⟩
    have h' : tokens.toList.drop 0 = tokens.toList ++ [] := by simp
    simpa using of_drop h'

end Spans

namespace Token

variable {t : Token} {text text' : String}

theorem isVerbatim_iff : (t.kind == .verbatim && t.text == text) = true ↔ t.IsVerbatim text := by
  simp [IsVerbatim]

theorem IsVerbatim.text_unique (h : t.IsVerbatim text) (h' : t.IsVerbatim text') : text = text' :=
  h.2.symm.trans h'.2

theorem IsVerbatim.not_kind (h : t.IsVerbatim text) {k : TokenKind} (hk : k ≠ .verbatim) :
    t.kind ≠ k := by
  rw [h.1]
  exact hk.symm

end Token

section Rules

open Trace

variable {ι V : Type} [Capture V] {tokens : Array Token} {levels : Nat}
  {target : Nat → Option (Attempt ι V)} {p q m : Nat} {c c' : List V} {r : Rule ι V}
  {rules : List (Rule ι V)} {a b : Prop}

namespace Rule

theorem reads_kind {k : TokenKind} : ((kind k : Rule ι V).trace tokens levels target p).Reads c q ↔
    ∃ t, tokens[p]? = some t ∧ t.kind = k ∧ c = [Capture.ofToken t] ∧ q = p + 1 := by
  simp only [trace, Attempt.reads_expecting, beq_iff_eq]

theorem fails_kind {k : TokenKind} (h : ∀ t, tokens[p]? = some t → t.kind ≠ k) :
    ((kind k : Rule ι V).trace tokens levels target p).Fails :=
  Attempt.fails_expecting fun t ht => by simpa using h t ht

theorem reads_verbatim {text : String} :
    ((verbatim text : Rule ι V).trace tokens levels target p).Reads c q ↔
      ∃ t, tokens[p]? = some t ∧ t.IsVerbatim text ∧ c = [] ∧ q = p + 1 := by
  simp only [trace, Attempt.reads_expecting, Token.isVerbatim_iff]

theorem fails_verbatim {text : String} (h : ∀ t, tokens[p]? = some t → ¬ t.IsVerbatim text) :
    ((verbatim text : Rule ι V).trace tokens levels target p).Fails :=
  Attempt.fails_expecting fun t ht => by
    rw [Token.isVerbatim_iff]
    exact h t ht

/-! ### Sequences -/

theorem reads_all_nil : ((all [] : Rule ι V).trace tokens levels target p).Reads c q ↔
    c = [] ∧ q = p := by
  simp only [all, List.foldr_nil, trace, reads_pure, Option.some.injEq, Prod.mk.injEq]
  rw [eq_comm, @eq_comm _ p]

theorem reads_all_cons : ((all (r :: rules)).trace tokens levels target p).Reads c q ↔
    ∃ c₁ m c₂, (r.trace tokens levels target p).Reads c₁ m ∧
      ((all rules).trace tokens levels target m).Reads c₂ q ∧ c = c₁ ++ c₂ :=
  Attempt.reads_seq

theorem fails_all_head (h : (r.trace tokens levels target p).Fails) :
    ((all (r :: rules)).trace tokens levels target p).Fails :=
  Attempt.fails_seq_left h

theorem settles_all_nil : Settles True ((all [] : Rule ι V).trace tokens levels target p) [] p :=
  .of_reads (reads_all_nil.mpr ⟨rfl, rfl⟩)

theorem settles_all_cons (h : Settles a (r.trace tokens levels target p) c m)
    (h' : Settles b ((all rules).trace tokens levels target m) c' q) :
    Settles (a ∧ b) ((all (r :: rules)).trace tokens levels target p) (c ++ c') q :=
  Attempt.settles_seq h h'

/-! ### Alternatives -/

theorem exists_of_reads_any : ∀ {rules : List (Rule ι V)},
    ((any rules).trace tokens levels target p).Reads c q →
      ∃ r ∈ rules, (r.trace tokens levels target p).Reads c q
  | [], h => absurd (reads_pure.mp h) (by simp)
  | r :: rules, h => by
    rcases Attempt.reads_choice.mp h with h | ⟨-, h⟩
    · exact ⟨r, List.mem_cons_self, h⟩
    · obtain ⟨r', hr', h⟩ := exists_of_reads_any h
      exact ⟨r', List.mem_cons_of_mem _ hr', h⟩

theorem fails_any : ∀ {rules : List (Rule ι V)},
    (∀ r ∈ rules, (r.trace tokens levels target p).Fails) →
      ((any rules).trace tokens levels target p).Fails
  | [], _ => fails_pure.mpr rfl
  | _ :: _, h => Attempt.fails_choice (h _ List.mem_cons_self)
    (fails_any fun r hr => h r (List.mem_cons_of_mem _ hr))

/-- One of the alternatives reads something or is refused, and all others fail. -/
theorem settles_any (h : Settles a (r.trace tokens levels target p) c q) :
    ∀ {rules : List (Rule ι V)}, r ∈ rules →
      (∀ r' ∈ rules, r' = r ∨ (r'.trace tokens levels target p).Fails) →
      Settles a ((any rules).trace tokens levels target p) c q
  | [], hr, _ => by simp at hr
  | r' :: rules, hr, hother => by
    rcases hother r' List.mem_cons_self with rfl | hf
    · exact h.orElse_left
    · refine Settles.orElse_right hf ?_
      rcases List.mem_cons.mp hr with rfl | hr
      · exact absurd hf h.not_fails
      · exact settles_any h hr fun r'' hr'' => hother r'' (List.mem_cons_of_mem _ hr'')

end Rule

/-! ### Nodes -/

namespace Strategy

variable {strategy : Strategy} {key : ι} {reduce : Reducer V}

/-- A node reads the same whether its outcomes are remembered or not. -/
theorem result_node : ((strategy.node key r reduce).trace tokens levels target p).result =
    (Attempt.node tokens (r.trace tokens levels target) reduce p).result := by
  rcases strategy with _ | _ <;> rfl

theorem reads_node : ((strategy.node key r reduce).trace tokens levels target p).Reads c q ↔
    ∃ c' v, (r.trace tokens levels target p).Reads c' q ∧
      reduce c' ⟨tokens, p, q⟩ = some v ∧ c = [v] := by
  rw [Reads, result_node]
  exact Attempt.reads_node

theorem fails_node (h : (r.trace tokens levels target p).Fails) :
    ((strategy.node key r reduce).trace tokens levels target p).Fails := by
  rw [Fails, result_node]
  exact Attempt.fails_node h

theorem settles_node {v : V} (h : Settles a (r.trace tokens levels target p) c q)
    (hv : reduce c ⟨tokens, p, q⟩ = some v) :
    Settles a ((strategy.node key r reduce).trace tokens levels target p) [v] q :=
  (Attempt.settles_node h hv).congr result_node.symm

end Strategy

end Rules

namespace Grammar

open Trace Number

variable {options : GrammarOptions} {tokens : Array Token} {levels : Nat}
  {target : Nat → Option (Attempt Production Part)} {p q : Nat} {c : List Part}

/-! ### Literals -/

/-- The kinds of tokens that are literals. -/
def literalKinds (options : GrammarOptions) : List TokenKind :=
  [.string, .number, .null, .boolean] ++ if options.regexLiterals then [.regex] else []

/-- The rule for the literals of a kind. -/
def literalNode (options : GrammarOptions) : TokenKind → GrammarRule
  | .string => node options .stringLiteral (.kind .string) Part.reduceString
  | .number => node options .numberLiteral (.kind .number) Part.reduceNumber
  | .null => node options .nullLiteral (.kind .null) Part.reduceNull
  | .boolean => node options .booleanLiteral (.kind .boolean) Part.reduceBoolean
  | .regex => node options .regexLiteral (.kind .regex) Part.reduceRegex
  | _ => .never

theorem literal_eq (options : GrammarOptions) :
    literal options = .any ((literalKinds options).map (literalNode options)) := by
  unfold literal literalKinds
  by_cases h : options.regexLiterals
  · simp only [if_pos h]
    rfl
  · simp only [if_neg h]
    rfl

theorem mem_literalKinds {k : TokenKind} : k ∈ literalKinds options ↔
    k = .string ∨ k = .number ∨ k = .null ∨ k = .boolean ∨ options.regexLiterals ∧ k = .regex := by
  unfold literalKinds
  by_cases h : options.regexLiterals <;> simp [h]

theorem kind_mem_literalKinds {t : Token} {x : LiteralValue × String}
    (h : literalValue? options t = some x) : t.kind ∈ literalKinds options := by
  rw [mem_literalKinds]
  unfold literalValue? at h
  rcases hk : t.kind <;> simp_all

/-- A node for one kind of tokens that makes of each the literal that it is. -/
theorem reads_leaf {production : Production} {k : TokenKind} {reduce : Reducer Part}
    (hreduce : ∀ t s, t.kind = k → reduce [.token t] s =
      (literalValue? options t).map fun x => .expr (.literal x.1 x.2 t.span)) :
    ((node options production (.kind k) reduce).trace tokens levels target p).Reads c q ↔
      ∃ t value raw, tokens[p]? = some t ∧ t.kind = k ∧
        literalValue? options t = some (value, raw) ∧ c = [.expr (.literal value raw t.span)] ∧
        q = p + 1 := by
  unfold node
  rw [Strategy.reads_node]
  constructor
  · rintro ⟨c', v, h, hv, rfl⟩
    obtain ⟨t, ht, hk, rfl, rfl⟩ := Rule.reads_kind.mp h
    rw [show [Capture.ofToken t] = [Part.token t] from rfl, hreduce t _ hk,
      Option.map_eq_some_iff] at hv
    obtain ⟨⟨value, raw⟩, hx, rfl⟩ := hv
    exact ⟨t, value, raw, ht, hk, hx, rfl, rfl⟩
  · rintro ⟨t, value, raw, ht, hk, hx, rfl, rfl⟩
    refine ⟨_, _, Rule.reads_kind.mpr ⟨t, ht, hk, rfl, rfl⟩, ?_, rfl⟩
    rw [show [Capture.ofToken t] = [Part.token t] from rfl, hreduce t _ hk, hx]
    rfl

/-- The rule for the literals of a kind is such a node. -/
theorem literalNode_eq {k : TokenKind} (hk : k ∈ literalKinds options) : ∃ production reduce,
    literalNode options k = node options production (.kind k) reduce ∧
      ∀ t s, t.kind = k → reduce [.token t] s =
        (literalValue? options t).map fun x => .expr (.literal x.1 x.2 t.span) := by
  rcases mem_literalKinds.mp hk with rfl | rfl | rfl | rfl | ⟨hr, rfl⟩
  · exact ⟨_, _, rfl, fun t s h => by simp [Part.reduceString, Part.single?, literalValue?, h]⟩
  · refine ⟨_, _, rfl, fun t s h => ?_⟩
    simp only [Part.reduceNumber, Part.single?, literalValue?, h, finite?, Option.bind_eq_bind,
      Option.bind_some, Option.orElse_eq_orElse, Option.orElse_eq_or]
    rcases t.number?.or (Numeral.value? t.textValue.toList) with _ | x
    · rfl
    · by_cases hx : x.isFinite <;> simp [Option.filter, hx]
  · exact ⟨_, _, rfl, fun t s h => by simp [Part.reduceNull, Part.single?, literalValue?, h]⟩
  · exact ⟨_, _, rfl, fun t s h => by simp [Part.reduceBoolean, Part.single?, literalValue?, h]⟩
  · refine ⟨_, _, rfl, fun t s h => ?_⟩
    simp only [Part.reduceRegex, Part.single?, literalValue?, h, hr, if_true, Option.bind_eq_bind,
      Option.bind_some]
    rcases t.capture? 0 with _ | pattern <;> rfl

theorem reads_literalNode {k : TokenKind} (hk : k ∈ literalKinds options) :
    ((literalNode options k).trace tokens levels target p).Reads c q ↔
      ∃ t value raw, tokens[p]? = some t ∧ t.kind = k ∧
        literalValue? options t = some (value, raw) ∧ c = [.expr (.literal value raw t.span)] ∧
        q = p + 1 := by
  obtain ⟨production, reduce, heq, hreduce⟩ := literalNode_eq hk
  rw [heq]
  exact reads_leaf hreduce

theorem fails_literalNode {k : TokenKind} (hk : k ∈ literalKinds options)
    (h : ∀ t, tokens[p]? = some t → t.kind ≠ k) :
    ((literalNode options k).trace tokens levels target p).Fails := by
  obtain ⟨production, reduce, heq, -⟩ := literalNode_eq hk
  rw [heq]
  exact Strategy.fails_node (Rule.fails_kind h)

theorem reads_literal : ((literal options).trace tokens levels target p).Reads c q ↔
    ∃ t value raw, tokens[p]? = some t ∧ literalValue? options t = some (value, raw) ∧
      c = [.expr (.literal value raw t.span)] ∧ q = p + 1 := by
  rw [literal_eq]
  constructor
  · intro h
    obtain ⟨r, hr, h⟩ := Rule.exists_of_reads_any h
    obtain ⟨k, hk, rfl⟩ := List.mem_map.mp hr
    obtain ⟨t, value, raw, ht, -, hx, hc, hq⟩ := (reads_literalNode hk).mp h
    exact ⟨t, value, raw, ht, hx, hc, hq⟩
  · rintro ⟨t, value, raw, ht, hx, hc, hq⟩
    have hmem := kind_mem_literalKinds hx
    have h : ((literalNode options t.kind).trace tokens levels target p).Reads c q :=
      (reads_literalNode hmem).mpr ⟨t, value, raw, ht, rfl, hx, hc, hq⟩
    refine (Rule.settles_any (.of_reads h) (List.mem_map_of_mem hmem) fun r hr => ?_).1 trivial
    obtain ⟨k, hk, rfl⟩ := List.mem_map.mp hr
    by_cases hkt : k = t.kind
    · exact Or.inl (by rw [hkt])
    · refine Or.inr (fails_literalNode hk fun t' ht' => ?_)
      obtain rfl : t = t' := by simpa using ht.symm.trans ht'
      exact fun h => hkt h.symm

theorem fails_literal (h : ∀ t, tokens[p]? = some t → t.kind ∉ literalKinds options) :
    ((literal options).trace tokens levels target p).Fails := by
  rw [literal_eq]
  refine Rule.fails_any fun r hr => ?_
  obtain ⟨k, hk, rfl⟩ := List.mem_map.mp hr
  exact fails_literalNode hk fun t ht hkt => h t ht (hkt ▸ hk)

/-! ### Identifiers and operators -/

theorem reads_identifier {production : Production} :
    ((node options production (.kind .identifier) Part.reduceIdentifier).trace tokens levels target
      p).Reads c q ↔
      ∃ t, tokens[p]? = some t ∧ t.kind = .identifier ∧
        c = [.expr (.identifier t.textValue t.span)] ∧ q = p + 1 := by
  unfold node
  rw [Strategy.reads_node]
  constructor
  · rintro ⟨c', v, h, hv, rfl⟩
    obtain ⟨t, ht, hk, rfl, rfl⟩ := Rule.reads_kind.mp h
    obtain rfl : Part.expr (.identifier t.textValue t.span) = v := by
      simpa [Part.reduceIdentifier, Part.single?, Capture.ofToken] using hv
    exact ⟨t, ht, hk, rfl, rfl⟩
  · rintro ⟨t, ht, hk, rfl, rfl⟩
    exact ⟨_, _, Rule.reads_kind.mpr ⟨t, ht, hk, rfl, rfl⟩, rfl, rfl⟩

theorem reads_oneOf {α : Type} {ops : List α} {symbol : α → String} :
    ((Rule.any (ops.map fun op => .verbatim (symbol op)) : GrammarRule).trace tokens levels target
      p).Reads c q ↔
      ∃ t op, tokens[p]? = some t ∧ op ∈ ops ∧ t.IsVerbatim (symbol op) ∧ c = [] ∧ q = p + 1 := by
  constructor
  · intro h
    obtain ⟨r, hr, h⟩ := Rule.exists_of_reads_any h
    obtain ⟨op, hop, rfl⟩ := List.mem_map.mp hr
    obtain ⟨t, ht, hv, hc, hq⟩ := Rule.reads_verbatim.mp h
    exact ⟨t, op, ht, hop, hv, hc, hq⟩
  · rintro ⟨t, op, ht, hop, hv, hc, hq⟩
    have h : ((.verbatim (symbol op) : GrammarRule).trace tokens levels target p).Reads c q :=
      Rule.reads_verbatim.mpr ⟨t, ht, hv, hc, hq⟩
    refine (Rule.settles_any (.of_reads h) (List.mem_map.mpr ⟨op, hop, rfl⟩) fun r hr => ?_).1
      trivial
    obtain ⟨op', hop', rfl⟩ := List.mem_map.mp hr
    by_cases hs : symbol op' = symbol op
    · exact Or.inl (by rw [hs])
    · refine Or.inr (Rule.fails_verbatim fun t' ht' hv' => ?_)
      obtain rfl : t = t' := by simpa using ht.symm.trans ht'
      exact hs (hv'.text_unique hv)

theorem fails_oneOf {α : Type} {ops : List α} {symbol : α → String}
    (h : ∀ t, tokens[p]? = some t → ∀ op ∈ ops, ¬ t.IsVerbatim (symbol op)) :
    ((Rule.any (ops.map fun op => .verbatim (symbol op)) : GrammarRule).trace tokens levels target
      p).Fails := by
  refine Rule.fails_any fun r hr => ?_
  obtain ⟨op, hop, rfl⟩ := List.mem_map.mp hr
  exact Rule.fails_verbatim fun t ht => h t ht op hop

/-- The first token of a stretch that is not empty. -/
theorem first?_eq {t : Token} (ht : tokens[p]? = some t) :
    (⟨tokens, p, p + 1⟩ : Stretch).first? = some t := by
  simp [Stretch.first?, ht]

theorem reads_unaryOperator {ops : List UnaryOperator} :
    ((node options .unaryOperator (.any (ops.map fun op => .verbatim op.symbol))
      Part.reduceUnaryOperator).trace tokens levels target p).Reads c q ↔
      ∃ t op, tokens[p]? = some t ∧ op ∈ ops ∧ t.IsVerbatim op.symbol ∧ c = [.unary op] ∧
        q = p + 1 := by
  unfold node
  rw [Strategy.reads_node]
  constructor
  · rintro ⟨c', v, h, hv, rfl⟩
    obtain ⟨t, op, ht, hop, hs, rfl, rfl⟩ := reads_oneOf.mp h
    obtain rfl : Part.unary op = v := by
      simpa [Part.reduceUnaryOperator, first?_eq ht, hs.2, UnaryOperator.ofSymbol?_symbol] using hv
    exact ⟨t, op, ht, hop, hs, rfl, rfl⟩
  · rintro ⟨t, op, ht, hop, hs, rfl, rfl⟩
    refine ⟨_, _, reads_oneOf.mpr ⟨t, op, ht, hop, hs, rfl, rfl⟩, ?_, rfl⟩
    simp [Part.reduceUnaryOperator, first?_eq ht, hs.2, UnaryOperator.ofSymbol?_symbol]

theorem reads_binaryOperator {k : Nat} {ops : List BinaryOperator} :
    ((node options (.binaryOperator k) (.any (ops.map fun op => .verbatim op.symbol))
      Part.reduceBinaryOperator).trace tokens levels target p).Reads c q ↔
      ∃ t op, tokens[p]? = some t ∧ op ∈ ops ∧ t.IsVerbatim op.symbol ∧ c = [.binary op] ∧
        q = p + 1 := by
  unfold node
  rw [Strategy.reads_node]
  constructor
  · rintro ⟨c', v, h, hv, rfl⟩
    obtain ⟨t, op, ht, hop, hs, rfl, rfl⟩ := reads_oneOf.mp h
    obtain rfl : Part.binary op = v := by
      simpa [Part.reduceBinaryOperator, first?_eq ht, hs.2, BinaryOperator.ofSymbol?_symbol]
        using hv
    exact ⟨t, op, ht, hop, hs, rfl, rfl⟩
  · rintro ⟨t, op, ht, hop, hs, rfl, rfl⟩
    refine ⟨_, _, reads_oneOf.mpr ⟨t, op, ht, hop, hs, rfl, rfl⟩, ?_, rfl⟩
    simp [Part.reduceBinaryOperator, first?_eq ht, hs.2, BinaryOperator.ofSymbol?_symbol]

/-! ### Levels -/

/-- The rule for the chains of the levels up to `k`. -/
def chainRule (options : GrammarOptions) : Nat → GrammarRule
  | 0 => unary options
  | k + 1 => level options (k + 1) (operatorsAt options k) (chainRule options k)

theorem operatorsAt_of_drop {k : Nat} {ops : List BinaryOperator}
    {looser : List (List BinaryOperator)} (h : options.precedence.drop k = ops :: looser) :
    operatorsAt options k = ops ∧ options.precedence.drop (k + 1) = looser := by
  constructor
  · rw [operatorsAt, List.getD_eq_getElem?_getD, ← List.head?_drop, h]
    rfl
  · rw [← List.tail_drop, h]
    rfl

theorem levels_eq : ∀ (looser : List (List BinaryOperator)) (k : Nat),
    options.precedence.drop k = looser →
      Grammar.levels options (k + 1) (chainRule options k) looser =
        chainRule options (k + looser.length)
  | [], _, _ => rfl
  | ops :: looser, k, h => by
    obtain ⟨hk, htail⟩ := operatorsAt_of_drop h
    have ih := levels_eq looser (k + 1) htail
    rw [Grammar.levels, List.length_cons, show k + (looser.length + 1) = k + 1 + looser.length by
      omega, ← ih, chainRule, hk]

theorem expression_eq (options : GrammarOptions) :
    expression options = node options .conditional
      (.all [chainRule options options.precedence.length,
        .optional (.all [.verbatim "?", nested, .verbatim ":", nested])])
      Part.reduceConditional := by
  have h : options.precedence.drop 0 = options.precedence := rfl
  have := levels_eq _ 0 h
  rw [Nat.zero_add, Nat.zero_add] at this
  rw [← this]
  rfl

/-! ### Reducers -/

theorem exprs?_map (es : List Expr) : Part.exprs? (es.map .expr) = some es := by
  unfold Part.exprs?
  induction es with
  | nil => rfl
  | cons e es ih => simp [Part.expr?, ih]

theorem reduceCompound_map (e : Expr) (es : List Expr) (s : Stretch) :
    Part.reduceCompound ((e :: es).map .expr) s = some (.expr (gather e es)) := by
  unfold Part.reduceCompound
  rw [exprs?_map]
  rcases es with _ | ⟨e', es⟩ <;> rfl

theorem applyOperands_map : ∀ (left : Expr) (operands : List (BinaryOperator × Expr)),
    Part.applyOperands left (operands.map fun x => .operand x.1 x.2) =
      some (applyAll left operands)
  | _, [] => rfl
  | left, (op, right) :: operands => applyOperands_map (.binary op left right) operands

end Grammar

end Precedence
