import Precedence.Proofs.Grammar.Recognition

/-!
# What is derived is recognized

A row of tokens that is derived, with something behind it that cannot continue it, is read by the
rule of the grammar if there are levels enough for the derivation, and refused otherwise
(`expression_complete`, `program_complete`). What stands behind decides that a repetition stops where
the derivation does: behind a chain of level `k` there is no operator of a tighter level, since no
operator is on two levels, and behind an element of a compound there is a comma or the end. An
assignment is tried before an expression, and fails in front of every expression, as no expression
begins with an identifier and an equals sign (`Leads`).
-/

namespace Precedence

theorem BinaryOperator.symbol_inj {op op' : BinaryOperator} (h : op.symbol = op'.symbol) :
    op = op' := by
  have := congrArg BinaryOperator.ofSymbol? h
  rw [ofSymbol?_symbol, ofSymbol?_symbol] at this
  simpa using this

/-- The fixed words that are not operators. -/
def Grammar.marks : List String :=
  ["(", ")", ",", "?", ":", "="]

theorem BinaryOperator.symbol_not_mem_marks (op : BinaryOperator) :
    op.symbol ∉ Grammar.marks := by
  cases op <;> decide

theorem UnaryOperator.symbol_not_mem_marks (op : UnaryOperator) :
    op.symbol ∉ Grammar.marks := by
  cases op <;> decide

theorem Spans.lt_of_cons {tokens : Array Token} {p q : Nat} {t : Token} {ts : List Token}
    (h : Spans tokens p (t :: ts) q) : p < q ∧ q ≤ tokens.size := by
  have hq := h.stop_eq
  obtain ⟨ht, h⟩ : tokens[p]? = some t ∧ Spans tokens (p + 1) ts q := by
    cases h with
    | cons ht h => exact ⟨ht, h⟩
  rw [List.length_cons] at hq
  exact ⟨by omega, h.le_size (Array.getElem?_eq_some_iff.mp ht).1⟩

theorem Spans.head?_eq {tokens : Array Token} {p q : Nat} {ts : List Token}
    (h : Spans tokens p ts q) (hne : ts ≠ []) : tokens[p]? = ts.head? := by
  cases h with
  | nil => exact absurd rfl hne
  | cons ht _ => exact ht

namespace Grammar

open Trace Attempt

variable {options : GrammarOptions} {tokens : Array Token}

/-! ### How expressions begin -/

/-- A token that a primary begins with. -/
def OpensPrimary (options : GrammarOptions) (t : Token) : Prop :=
  t.kind = .identifier ∨ t.kind ∈ literalKinds options ∨ t.IsVerbatim "("

/-- The tokens begin as an expression does, and not as an assignment does. -/
def Leads (options : GrammarOptions) (ts : List Token) : Prop :=
  ∃ t us, ts = t :: us ∧ (OpensPrimary options t ∨ ∃ op : UnaryOperator, t.IsVerbatim op.symbol) ∧
    (t.kind = .identifier → ∀ u, us.head? = some u → ¬ u.IsVerbatim "=")

theorem not_verbatim_of_opensPrimary {t : Token} {text : String} (h : OpensPrimary options t)
    (hv : t.IsVerbatim text) : text = "(" := by
  rcases h with h | h | h
  · exact absurd (hv.1.symm.trans h) (by decide)
  · rw [hv.1, mem_literalKinds] at h
    simp at h
  · exact hv.text_unique h

theorem Leads.not_comma {ts : List Token} {t : Token} (h : Leads options ts)
    (ht : ts.head? = some t) : ¬ t.IsVerbatim "," := by
  obtain ⟨t', us, rfl, h, -⟩ := h
  obtain rfl : t' = t := by simpa using ht
  intro hv
  rcases h with h | ⟨op, h⟩
  · exact absurd (not_verbatim_of_opensPrimary h hv) (by decide)
  · exact op.symbol_not_mem_marks (h.text_unique hv ▸ by decide)

/-- What follows an expression that is a single identifier is not an equals sign. -/
theorem Leads.append {ts us : List Token} (h : Leads options ts)
    (hus : ∀ u, us.head? = some u → ¬ u.IsVerbatim "=") : Leads options (ts ++ us) := by
  obtain ⟨t, ts, rfl, ht, hid⟩ := h
  refine ⟨t, ts ++ us, rfl, ht, fun hk u hu => ?_⟩
  rcases ts with _ | ⟨t', ts⟩
  · exact hus u hu
  · exact hid hk u hu

theorem Primary.opens {d : Nat} {ts : List Token} {e : Expr} (h : Primary options d ts e) :
    ∃ t us, ts = t :: us ∧ OpensPrimary options t := by
  rcases h with ⟨t, hk⟩ | ⟨t, value, raw, hv⟩ | ⟨left, right, hl, hr, d, ts, e, h⟩
  · exact ⟨t, [], rfl, Or.inl hk⟩
  · exact ⟨t, [], rfl, Or.inr (Or.inl (kind_mem_literalKinds hv))⟩
  · exact ⟨left, ts ++ [right], rfl, Or.inr (Or.inr hl)⟩

theorem Primary.leads {d : Nat} {ts : List Token} {e : Expr} (h : Primary options d ts e) :
    Leads options ts := by
  rcases h with ⟨t, hk⟩ | ⟨t, value, raw, hv⟩ | ⟨left, right, hl, hr, d, ts, e, h⟩
  · exact ⟨t, [], rfl, Or.inl (Or.inl hk), by simp⟩
  · exact ⟨t, [], rfl, Or.inl (Or.inr (Or.inl (kind_mem_literalKinds hv))), by simp⟩
  · exact ⟨left, ts ++ [right], rfl, Or.inl (Or.inr (Or.inr hl)), fun hk =>
      absurd (hl.1.symm.trans hk) (by decide)⟩

theorem Unary.leads {d : Nat} {ts : List Token} {e : Expr} (h : Unary options d ts e) :
    Leads options ts := by
  rcases h with ⟨d, ts, e, h⟩ | ⟨t, op, hop, ht, d, ts, e, h⟩
  · exact h.leads
  · exact ⟨t, ts, rfl, Or.inr ⟨op, ht⟩, fun hk => absurd (ht.1.symm.trans hk) (by decide)⟩

theorem Level.leads : ∀ {k d : Nat} {ts : List Token} {e : Expr}, Level options k d ts e →
    Leads options ts
  | _, _, _, _, .unary d ts e h => h.leads
  | _, _, _, _, .chain k d ts left h d' us operands h' => by
    refine h.leads.append fun u hu hv => ?_
    rcases h' with _ | ⟨_, t, op, hop, ht⟩
    · simp at hu
    · obtain rfl : t = u := by simpa using hu
      exact op.symbol_not_mem_marks (ht.text_unique hv ▸ by decide)

theorem Expression.leads {d : Nat} {ts : List Token} {e : Expr} (h : Expression options d ts e) :
    Leads options ts := by
  rcases h with ⟨d, ts, e, h⟩ | ⟨question, colon, hq, hc, d₁, d₂, d₃, ts, us, vs, e₁, e₂, e₃, h₁⟩
  · exact h.leads
  · refine h₁.leads.append fun u hu hv => ?_
    obtain rfl : question = u := by simpa using hu
    exact absurd (hq.text_unique hv) (by decide)

theorem Assignable.head_not_comma {place : Place} {d : Nat} {ts : List Token} {e : Expr}
    (h : Assignable options place d ts e) {t : Token} (ht : ts.head? = some t) :
    ¬ t.IsVerbatim "," := by
  rcases h with ⟨_, d, ts, e, h⟩ | ⟨_, ha, t', equals, hk, he, d, ts, e, h⟩
  · exact h.leads.not_comma ht
  · obtain rfl : t' = t := by simpa using ht
    exact fun hv => absurd (hv.1.symm.trans hk) (by decide)

/-! ### What stands behind -/

/-- No operator of the levels up to `k` stands there. -/
def Stops (options : GrammarOptions) (tokens : Array Token) (k q : Nat) : Prop :=
  ∀ t, tokens[q]? = some t → ∀ j < k, ∀ op ∈ operatorsAt options j, ¬ t.IsVerbatim op.symbol

/-- A token that can stand behind an expression, or none, stands there. -/
def Closes (tokens : Array Token) (q : Nat) : Prop :=
  ∀ t, tokens[q]? = some t → ∃ text ∈ [",", ")", ":"], t.IsVerbatim text

/-- A token that can stand behind a compound, or none, stands there. -/
def Ends (tokens : Array Token) (q : Nat) : Prop :=
  ∀ t, tokens[q]? = some t → t.IsVerbatim ")"

theorem stops_of_mark {t : Token} {text : String} {q : Nat} (ht : tokens[q]? = some t)
    (hv : t.IsVerbatim text) (hm : text ∈ marks) (k : Nat) : Stops options tokens k q := by
  intro t' ht' j hj op hop hv'
  obtain rfl : t = t' := by simpa using ht.symm.trans ht'
  exact op.symbol_not_mem_marks (hv'.text_unique hv ▸ hm)

theorem Closes.stops {q : Nat} (h : Closes tokens q) (k : Nat) : Stops options tokens k q := by
  intro t ht
  obtain ⟨text, hm, hv⟩ := h t ht
  refine stops_of_mark ht hv ?_ k t ht
  simp only [List.mem_cons, List.not_mem_nil, or_false] at hm
  rcases hm with rfl | rfl | rfl <;> decide

theorem Ends.closes {q : Nat} (h : Ends tokens q) : Closes tokens q :=
  fun t ht => ⟨_, by decide, h t ht⟩

theorem mem_operatorsAt {k : Nat} {op : BinaryOperator} (h : op ∈ operatorsAt options k) :
    ∃ hk : k < options.precedence.length, op ∈ options.precedence[k] := by
  rw [operatorsAt, List.getD_eq_getElem?_getD] at h
  rcases hk : options.precedence[k]? with _ | ops
  · simp [hk] at h
  · obtain ⟨hlt, rfl⟩ := List.getElem?_eq_some_iff.mp hk
    exact ⟨hlt, by simpa [hk] using h⟩

/-- An operator stands on one level only, so that none of a tighter level has its symbol. -/
theorem stops_of_operator (hnodup : options.precedence.flatten.Nodup) {t : Token} {q k : Nat}
    {op : BinaryOperator} (ht : tokens[q]? = some t) (hop : op ∈ operatorsAt options k)
    (hv : t.IsVerbatim op.symbol) : Stops options tokens k q := by
  intro t' ht' j hj op' hop' hv'
  obtain rfl : t = t' := by simpa using ht.symm.trans ht'
  obtain rfl : op = op' := BinaryOperator.symbol_inj (hv.text_unique hv')
  obtain ⟨hj', hop'⟩ := mem_operatorsAt hop'
  obtain ⟨hk', hop⟩ := mem_operatorsAt hop
  have hpairs := List.pairwise_iff_getElem.mp (List.pairwise_flatten.mp hnodup).2
  exact hpairs j k hj' hk' hj op hop' op hop rfl

/-! ### Reading what is derived -/

/-- What trying a rule of the grammar comes to. -/
abbrev attempt (options : GrammarOptions) (tokens : Array Token) (levels : Nat)
    (rule : GrammarRule) : Attempt Production Part :=
  (graph options).trace tokens levels rule

theorem settles_verbatim {levels p : Nat} {t : Token} {text : String}
    (ht : tokens[p]? = some t) (hv : t.IsVerbatim text) :
    Settles True (attempt options tokens levels (.verbatim text) p) [] (p + 1) :=
  .of_reads (Rule.reads_verbatim.mpr ⟨t, ht, hv, rfl, rfl⟩)

/-- One level is left behind a reference. -/
theorem settles_nested {d p q : Nat} {e : Expr}
    (h : ∀ levels, Settles (d ≤ levels) (attempt options tokens levels (expression options) p)
      [.expr e] q) (levels : Nat) :
    Settles (d + 1 ≤ levels) (attempt options tokens levels nested p) [.expr e] q := by
  rcases levels with _ | levels
  · exact ⟨fun h' => absurd h' (by omega), fun _ => ⟨p, rfl⟩⟩
  · exact (h levels).iff (Nat.succ_le_succ_iff).symm

/-- The rule for the expressions that a compound is made of. -/
def Place.expression (options : GrammarOptions) : Place → GrammarRule
  | group => nested
  | program => Grammar.expression options

theorem settles_place (place : Place) {d p q : Nat} {e : Expr}
    (h : ∀ levels, Settles (d ≤ levels) (attempt options tokens levels (expression options) p)
      [.expr e] q) (levels : Nat) :
    Settles (d + place.levels ≤ levels)
      (attempt options tokens levels (place.expression options) p) [.expr e] q := by
  rcases place with _ | _
  · exact settles_nested h levels
  · exact h levels

/-- Neither an identifier nor a literal begins with this token. -/
theorem fails_leaves {levels p : Nat} {t : Token} (ht : tokens[p]? = some t) {text : String}
    (hv : t.IsVerbatim text) :
    (attempt options tokens levels
      (node options .identifier (.kind .identifier) Part.reduceIdentifier) p).Fails ∧
      (attempt options tokens levels (literal options) p).Fails := by
  constructor
  · refine Strategy.fails_node (Rule.fails_kind fun t' ht' => ?_)
    obtain rfl : t = t' := by simpa using ht.symm.trans ht'
    exact hv.not_kind (by decide)
  · refine fails_literal fun t' ht' hmem => ?_
    obtain rfl : t = t' := by simpa using ht.symm.trans ht'
    rw [hv.1, mem_literalKinds] at hmem
    simp at hmem

/-- In front of an expression no assignment is recognized. -/
theorem fails_assignment {place : Place} {levels p q : Nat} {ts : List Token}
    (h : Leads options ts) (hs : Spans tokens p ts q) (hc : Closes tokens q) :
    (attempt options tokens levels (node options (.assignment place)
      (.all [node options (.target place) (.kind .identifier) Part.reduceIdentifier,
        .verbatim "=", place.expression options]) Part.reduceAssignment) p).Fails := by
  obtain ⟨t, us, rfl, -, hid⟩ := h
  rcases hs with _ | ⟨ht, hs⟩
  refine Strategy.fails_node ?_
  by_cases hk : t.kind = .identifier
  · refine Attempt.fails_seq_right (reads_identifier.mpr ⟨t, ht, hk, rfl, rfl⟩) ?_
    refine Rule.fails_all_head (Rule.fails_verbatim fun u hu hv => ?_)
    rcases hs with _ | ⟨hu', hs⟩
    · obtain ⟨text, hm, hv'⟩ := hc u hu
      simp only [List.mem_cons, List.not_mem_nil, or_false] at hm
      rcases hm with rfl | rfl | rfl <;> exact absurd (hv.text_unique hv') (by decide)
    · obtain rfl : _ = u := by simpa using hu'.symm.trans hu
      exact hid hk _ rfl hv
  · refine Rule.fails_all_head (Strategy.fails_node (Rule.fails_kind fun t' ht' => ?_))
    obtain rfl : t = t' := by simpa using ht.symm.trans ht'
    exact hk

theorem Operands.stops (hnodup : options.precedence.flatten.Nodup) {k d p q : Nat}
    {ts : List Token} {operands : List (BinaryOperator × Expr)}
    (h : Operands options k d ts operands) (hs : Spans tokens p ts q)
    (hq : Stops options tokens (k + 1) q) : Stops options tokens k p := by
  rcases h with _ | ⟨_, t, op, hop, ht⟩
  · cases hs
    exact fun t ht j hj => hq t ht j (Nat.lt_succ_of_lt hj)
  · rcases hs with _ | ⟨ht', -⟩
    exact stops_of_operator hnodup ht' hop ht

theorem Assignable.ne_nil {place : Place} {d : Nat} {ts : List Token} {e : Expr}
    (h : Assignable options place d ts e) : ts ≠ [] := by
  rcases h with ⟨_, d, ts, e, h⟩ | _
  · obtain ⟨t, us, rfl, -⟩ := h.leads
    exact List.cons_ne_nil t us
  · exact List.cons_ne_nil _ _

theorem Elements.closes {place : Place} {d p q : Nat} {ts : List Token} {es : List Expr}
    (h : Elements options place d ts es) (hs : Spans tokens p ts q) (hq : Ends tokens q) :
    Closes tokens p := by
  rcases h with _ | ⟨_, comma, hc⟩
  · cases hs
    exact hq.closes
  · rcases hs with _ | ⟨ht, -⟩
    intro t ht'
    obtain rfl : comma = t := by simpa using ht.symm.trans ht'
    exact ⟨_, by decide, hc⟩

/-- Every comma is read as a hole, up to something that is no comma. -/
theorem settles_holes {place : Place} {levels : Nat} :
    ∀ {ts : List Token} {p q : Nat}, (∀ t ∈ ts, t.IsVerbatim ",") → Spans tokens p ts q →
      (∀ t, tokens[q]? = some t → ¬ t.IsVerbatim ",") →
      SettlesAgain True tokens (attempt options tokens levels
        (node options (.hole place) (.verbatim ",") Part.reduceHole)) p
        (List.replicate ts.length (.expr .hole)) q
  | [], _, _, _, .nil _, hq => settlesAgain_done (Strategy.fails_node (Rule.fails_verbatim hq))
  | t :: ts, p, q, hts, .cons ht hs, hq => by
    have hread : Settles True (attempt options tokens levels
        (node options (.hole place) (.verbatim ",") Part.reduceHole) p) [.expr .hole] (p + 1) :=
      Strategy.settles_node (settles_verbatim ht (hts t List.mem_cons_self)) rfl
    have hlt := (Spans.single ht).lt_of_cons
    exact (settlesAgain_next hread hlt.1 hlt.2
      (settles_holes (fun t ht => hts t (List.mem_cons_of_mem _ ht)) hs hq)).iff and_self_iff

/-- An operator of level `k` and its right operand. -/
def application (options : GrammarOptions) (k : Nat) : GrammarRule :=
  node options (.application (k + 1))
    (.all [node options (.binaryOperator (k + 1))
      (.any ((operatorsAt options k).map fun op => .verbatim op.symbol)) Part.reduceBinaryOperator,
      chainRule options k])
    Part.reduceApplication

mutual

theorem Primary.complete (hnodup : options.precedence.flatten.Nodup) :
    ∀ {d : Nat} {ts : List Token} {e : Expr}, Primary options d ts e →
    ∀ (levels : Nat) {p q : Nat}, Spans tokens p ts q →
      Settles (d ≤ levels) (attempt options tokens levels (primary options) p) [.expr e] q
  | _, _, _, .identifier t hk, levels, p, _, .cons ht (.nil _) => by
    have h : (attempt options tokens levels (node options .identifier (.kind .identifier)
        Part.reduceIdentifier) p).Reads [.expr (.identifier t.textValue t.span)] (p + 1) :=
      reads_identifier.mpr ⟨t, ht, hk, rfl, rfl⟩
    exact (Settles.orElse_left (.of_reads h)).iff (by simp)
  | _, _, _, .literal t value raw hv, levels, p, _, .cons ht (.nil _) => by
    have h : (attempt options tokens levels (literal options) p).Reads
        [.expr (.literal value raw t.span)] (p + 1) :=
      reads_literal.mpr ⟨t, value, raw, ht, hv, rfl, rfl⟩
    refine (Settles.orElse_right (Strategy.fails_node (Rule.fails_kind fun t' ht' hk => ?_))
      (Settles.orElse_left (.of_reads h))).iff (by simp)
    obtain rfl : t = t' := by simpa using ht.symm.trans ht'
    have := kind_mem_literalKinds hv
    rw [hk, mem_literalKinds] at this
    simp at this
  | _, _, _, .group left right hl hr d ts e h, levels, p, q, .cons hleft hs => by
    obtain ⟨m, hs₁, hs₂⟩ := hs.split
    rcases hs₂ with _ | ⟨hright, hnil⟩
    cases hnil
    have hends : Ends tokens m := fun t ht => by
      obtain rfl : right = t := by simpa using hright.symm.trans ht
      exact hr
    have hcompound := Compound.complete hnodup h levels hs₁ hends
    refine Settles.orElse_right (fails_leaves hleft hl).1
      (Settles.orElse_right (fails_leaves hleft hl).2 (Settles.orElse_left ?_))
    exact (Rule.settles_all_cons (settles_verbatim hleft hl) (Rule.settles_all_cons hcompound
      (Rule.settles_all_cons (settles_verbatim hright hr) Rule.settles_all_nil))).iff (by simp)

/-- The operators in front, the primary behind them, and what is made of both. -/
theorem Unary.parts (hnodup : options.precedence.flatten.Nodup) :
    ∀ {d : Nat} {ts : List Token} {e : Expr}, Unary options d ts e →
    ∀ (levels : Nat) {p q : Nat}, Spans tokens p ts q → ∃ c m e',
      SettlesAgain True tokens (attempt options tokens levels (node options .unaryOperator
        (.any (options.unaryOperators.map fun op => .verbatim op.symbol))
        Part.reduceUnaryOperator)) p c m ∧
      Settles (d ≤ levels) (attempt options tokens levels (primary options) m) [.expr e'] q ∧
      Part.applyUnary (c ++ [.expr e']) = some e
  | _, _, _, .primary d ts e h, levels, p, q, hs => by
    refine ⟨[], p, e, settlesAgain_done ?_, Primary.complete hnodup h levels hs, rfl⟩
    obtain ⟨t, us, rfl, ht⟩ := h.opens
    rcases hs with _ | ⟨ht', -⟩
    refine Strategy.fails_node (fails_oneOf fun u hu op _ hv => ?_)
    obtain rfl : t = u := by simpa using ht'.symm.trans hu
    exact op.symbol_not_mem_marks (not_verbatim_of_opensPrimary ht hv ▸ by decide)
  | _, _, _, .apply t op hop ht d ts e h, levels, p, q, .cons ht' hs => by
    obtain ⟨c, m, e', hstar, hprimary, he⟩ := Unary.parts hnodup h levels hs
    have hread : (attempt options tokens levels (node options .unaryOperator
        (.any (options.unaryOperators.map fun op => .verbatim op.symbol))
        Part.reduceUnaryOperator) p).Reads [.unary op] (p + 1) :=
      reads_unaryOperator.mpr ⟨t, op, ht', hop, ht, rfl, rfl⟩
    have hlt := (Spans.single ht').lt_of_cons
    exact ⟨.unary op :: c, m, e', (settlesAgain_next (.of_reads hread) hlt.1 hlt.2 hstar).iff
      (and_self_iff), hprimary, by simp [Part.applyUnary, he]⟩

theorem Level.complete (hnodup : options.precedence.flatten.Nodup) :
    ∀ {k d : Nat} {ts : List Token} {e : Expr}, Level options k d ts e →
    ∀ (levels : Nat) {p q : Nat}, Spans tokens p ts q → Stops options tokens k q →
      Settles (d ≤ levels) (attempt options tokens levels (chainRule options k) p) [.expr e] q
  | _, _, _, _, .unary d ts e h, levels, p, q, hs, _ => by
    obtain ⟨c, m, e', hstar, hprimary, he⟩ := Unary.parts hnodup h levels hs
    refine (Strategy.settles_node (Rule.settles_all_cons hstar.1
      (Rule.settles_all_cons hprimary Rule.settles_all_nil)) ?_).iff (by simp)
    simp [Part.reduceUnary, he]
  | _, _, _, _, .chain k d ts left h d' us operands h', levels, p, q, hs, hq => by
    obtain ⟨m, hs₁, hs₂⟩ := hs.split
    have hleft := Level.complete hnodup h levels hs₁ (h'.stops hnodup hs₂ hq)
    have hrest := Operands.complete hnodup h' levels hs₂ hq
    refine (Strategy.settles_node (Rule.settles_all_cons hleft
      (Rule.settles_all_cons hrest.1 Rule.settles_all_nil)) ?_).iff ?_
    · simp [Part.reduceLevel, applyOperands_map]
    · simp only [and_true]
      omega

theorem Operands.complete (hnodup : options.precedence.flatten.Nodup) :
    ∀ {k d : Nat} {ts : List Token}
    {operands : List (BinaryOperator × Expr)}, Operands options k d ts operands →
    ∀ (levels : Nat) {p q : Nat}, Spans tokens p ts q → Stops options tokens (k + 1) q →
      SettlesAgain (d ≤ levels) tokens (attempt options tokens levels
        (application options k)) p
        (operands.map fun x => .operand x.1 x.2) q
  | _, _, _, _, .nil k, levels, p, _, .nil _, hq => by
    refine (settlesAgain_done ?_).iff (by simp)
    exact Strategy.fails_node (Rule.fails_all_head (Strategy.fails_node
      (fails_oneOf fun t ht op hop => hq t ht k (Nat.lt_succ_self k) op hop)))
  | _, _, _, _, .cons k t op hop ht d ts right h d' us operands h', levels, p, q,
      .cons ht' hs, hq => by
    obtain ⟨m, hs₁, hs₂⟩ := hs.split
    have hright := Level.complete hnodup h levels hs₁ (h'.stops hnodup hs₂ hq)
    have hop' : (attempt options tokens levels (node options (.binaryOperator (k + 1))
        (.any ((operatorsAt options k).map fun op => .verbatim op.symbol))
        Part.reduceBinaryOperator) p).Reads [.binary op] (p + 1) :=
      reads_binaryOperator.mpr ⟨t, op, ht', hop, ht, rfl, rfl⟩
    have happly : Settles (d ≤ levels) (attempt options tokens levels (application options k) p)
        [.operand op right] m :=
      (Strategy.settles_node (Rule.settles_all_cons (.of_reads hop')
        (Rule.settles_all_cons hright Rule.settles_all_nil)) rfl).iff (by simp)
    have hlt := ((Spans.cons ht' hs₁).lt_of_cons)
    exact (settlesAgain_next happly hlt.1 hlt.2 (Operands.complete hnodup h' levels hs₂ hq)).iff
      Nat.max_le.symm

theorem Expression.complete (hnodup : options.precedence.flatten.Nodup) :
    ∀ {d : Nat} {ts : List Token} {e : Expr},
    Expression options d ts e → ∀ (levels : Nat) {p q : Nat}, Spans tokens p ts q →
      Closes tokens q →
      Settles (d ≤ levels) (attempt options tokens levels (expression options) p) [.expr e] q
  | _, _, _, .test d ts e h, levels, p, q, hs, hq => by
    have htest := Level.complete hnodup h levels hs (hq.stops _)
    have hbranches : (attempt options tokens levels
        (.all [.verbatim "?", nested, .verbatim ":", nested]) q).Fails := by
      refine Rule.fails_all_head (Rule.fails_verbatim fun t ht hv => ?_)
      obtain ⟨text, hm, hv'⟩ := hq t ht
      simp only [List.mem_cons, List.not_mem_nil, or_false] at hm
      rcases hm with rfl | rfl | rfl <;> exact absurd (hv.text_unique hv') (by decide)
    rw [expression_eq]
    exact (Strategy.settles_node (Rule.settles_all_cons htest (Rule.settles_all_cons
      (settles_optional_none hbranches) Rule.settles_all_nil)) rfl).iff (by simp)
  | _, _, _, .conditional question colon hquestion hcolon d₁ d₂ d₃ ts us vs e₁ e₂ e₃ h₁ h₂ h₃,
      levels, p, q, hs, hq => by
    obtain ⟨m₁, hs₁, hs⟩ := hs.split
    rcases hs with _ | ⟨hq', hs⟩
    obtain ⟨m₂, hs₂, hs⟩ := hs.split
    rcases hs with _ | ⟨hc', hs₃⟩
    have htest := Level.complete hnodup h₁ levels hs₁ (stops_of_mark hq' hquestion (by decide) _)
    have hcloses : Closes tokens m₂ := fun t ht => by
      obtain rfl : colon = t := by simpa using hc'.symm.trans ht
      exact ⟨_, by decide, hcolon⟩
    have hconsequent := settles_nested (fun n => Expression.complete hnodup h₂ n hs₂ hcloses) levels
    have halternate := settles_nested (fun n => Expression.complete hnodup h₃ n hs₃ hq) levels
    have hbranches := Rule.settles_all_cons (settles_verbatim hq' hquestion)
      (Rule.settles_all_cons hconsequent (Rule.settles_all_cons (settles_verbatim hc' hcolon)
        (Rule.settles_all_cons halternate Rule.settles_all_nil)))
    rw [expression_eq]
    refine (Strategy.settles_node (Rule.settles_all_cons htest (Rule.settles_all_cons
      (Settles.orElse_left hbranches) Rule.settles_all_nil)) rfl).iff ?_
    simp only [true_and, and_true]
    omega

theorem Assignable.complete (hnodup : options.precedence.flatten.Nodup) :
    ∀ {place : Place} {d : Nat} {ts : List Token} {e : Expr},
    Assignable options place d ts e → ∀ (levels : Nat) {p q : Nat}, Spans tokens p ts q →
      Closes tokens q →
      Settles (d ≤ levels) (attempt options tokens levels
        (assignable options place (place.expression options)) p) [.expr e] q
  | _, _, _, _, .expression place d ts e h, levels, p, q, hs, hq => by
    have hexpression := settles_place place
      (fun n => Expression.complete hnodup h n hs hq) levels
    unfold assignable
    by_cases ha : options.assignments
    · rw [if_pos ha]
      exact Settles.orElse_right (fails_assignment h.leads hs hq) (Settles.orElse_left hexpression)
    · rw [if_neg ha]
      exact hexpression
  | _, _, _, _, .assignment place ha t equals hk he d ts e h, levels, p, q,
      .cons ht (.cons he' hs), hq => by
    have hexpression := settles_place place
      (fun n => Expression.complete hnodup h n hs hq) levels
    have htarget : (attempt options tokens levels (node options (.target place)
        (.kind .identifier) Part.reduceIdentifier) p).Reads
        [.expr (.identifier t.textValue t.span)] (p + 1) :=
      reads_identifier.mpr ⟨t, ht, hk, rfl, rfl⟩
    unfold assignable
    rw [if_pos ha]
    exact Settles.orElse_left ((Strategy.settles_node (Rule.settles_all_cons (.of_reads htarget)
      (Rule.settles_all_cons (settles_verbatim he' he) (Rule.settles_all_cons hexpression
        Rule.settles_all_nil))) rfl).iff (by simp))

theorem Elements.complete (hnodup : options.precedence.flatten.Nodup) :
    ∀ {place : Place} {d : Nat} {ts : List Token} {es : List Expr},
    Elements options place d ts es → ∀ (levels : Nat) {p q : Nat}, Spans tokens p ts q →
      Ends tokens q →
      SettlesAgain (d ≤ levels) tokens (attempt options tokens levels
        (.all [elision options place, assignable options place (place.expression options)])) p
        (es.map .expr) q
  | _, _, _, _, .nil place, levels, p, _, .nil _, hq => by
    refine (settlesAgain_done (Rule.fails_all_head (Rule.fails_all_head
      (Rule.fails_verbatim fun t ht hv => ?_)))).iff (by simp)
    exact absurd (hv.text_unique (hq t ht)) (by decide)
  | _, _, _, _, .cons place comma hc commas hcs d ts e h d' us es h', levels, p, q,
      .cons hcomma hs, hq => by
    obtain ⟨m₁, hs₁, hs⟩ := hs.split
    obtain ⟨m₂, hs₂, hs₃⟩ := hs.split
    have helement := Assignable.complete hnodup h levels hs₂ (h'.closes hs₃ hq)
    have hholes : Settles True (attempt options tokens levels
        (.star (node options (.hole place) (.verbatim ",") Part.reduceHole)) (p + 1))
        (List.replicate commas.length (.expr .hole)) m₁ :=
      (settles_holes hcs hs₁ fun t ht => h.head_not_comma (hs₂.head?_eq h.ne_nil ▸ ht)).1
    have hround := Rule.settles_all_cons (Rule.settles_all_cons (settles_verbatim hcomma hc)
      (Rule.settles_all_cons hholes Rule.settles_all_nil))
      (Rule.settles_all_cons helement Rule.settles_all_nil)
    have hlt := (Spans.cons hcomma (hs₁.append hs₂)).lt_of_cons
    have hcaptures : (List.replicate commas.length Expr.hole ++ e :: es).map Part.expr =
        [] ++ (List.replicate commas.length (.expr .hole) ++ []) ++ ([.expr e] ++ []) ++
          es.map .expr := by
      simp
    rw [hcaptures]
    refine (settlesAgain_next hround hlt.1 hlt.2 (Elements.complete hnodup h' levels hs₃ hq)).iff ?_
    simp only [true_and, and_true]
    omega

theorem Compound.complete (hnodup : options.precedence.flatten.Nodup) :
    ∀ {place : Place} {d : Nat} {ts : List Token} {e : Expr},
    Compound options place d ts e → ∀ (levels : Nat) {p q : Nat}, Spans tokens p ts q →
      Ends tokens q →
      Settles (d ≤ levels) (attempt options tokens levels
        (compound options place (place.expression options)) p) [.expr e] q
  | _, _, _, _, .elements place d ts e h d' us es h', levels, p, q, hs, hq => by
    obtain ⟨m, hs₁, hs₂⟩ := hs.split
    have helement := Assignable.complete hnodup h levels hs₁ (h'.closes hs₂ hq)
    have hrest := Elements.complete hnodup h' levels hs₂ hq
    refine (Strategy.settles_node (Rule.settles_all_cons helement
      (Rule.settles_all_cons hrest.1 Rule.settles_all_nil)) ?_).iff ?_
    · rw [List.append_nil, List.singleton_append, ← List.map_cons]
      exact reduceCompound_map e es _
    · simp only [and_true]
      omega

end

/-! ### The whole row -/

/-- A program is read whole if the levels are enough for it, and refused otherwise. -/
theorem program_complete (hnodup : options.precedence.flatten.Nodup) {d : Nat} {ts : List Token}
    {e : Expr} (h : Compound options .program d ts e) (levels : Nat) :
    Settles (d ≤ levels) (attempt options ts.toArray levels (program options) 0) [.expr e]
      ts.length := by
  have hs : Spans ts.toArray 0 ts ts.length :=
    ((Spans.whole_iff (Nat.le_refl _)).mpr ⟨rfl, rfl⟩).1
  exact Compound.complete hnodup h levels hs fun t ht => by simp at ht

/-- No row of tokens has two trees, nor one tree at two depths. -/
theorem Compound.unique (hnodup : options.precedence.flatten.Nodup) {d d' : Nat}
    {ts : List Token} {e e' : Expr} (h : Compound options .program d ts e)
    (h' : Compound options .program d' ts e') : d = d' ∧ e = e' := by
  have hle : ∀ {d d' : Nat} {e e' : Expr}, Compound options .program d ts e →
      Compound options .program d' ts e' → d' ≤ d := by
    intro d d' e e' h h'
    by_cases hlt : d' ≤ d
    · exact hlt
    · exact absurd ((program_complete hnodup h' d).2 hlt)
        ((program_complete hnodup h d).1 (Nat.le_refl d)).not_refuses
  obtain rfl : d = d' := Nat.le_antisymm (hle h' h) (hle h h')
  have hread := (program_complete hnodup h d).1 (Nat.le_refl d)
  have hread' := (program_complete hnodup h' d).1 (Nat.le_refl d)
  exact ⟨rfl, by simpa using (hread.unique hread').1⟩

end Grammar

end Precedence
