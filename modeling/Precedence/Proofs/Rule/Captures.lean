import Precedence.Proofs.Rule.Run
import Precedence.Proofs.Rule.Trial

/-!
# What a rule can capture

`RuleGraph.Captures` tells what a rule can capture between two places, whichever alternatives are
taken and however often it repeats itself. A trial captures nothing else, also where a level was
refused before, as long as the table holds nothing else (`RuleGraph.run_sources`); and no trial on
the way fills it with anything else (`RuleGraph.TriesAmong.sound`). So whatever a node is made of was
captured by its rule (`RuleGraph.captures_of_tries`).
-/

namespace Precedence

variable {ι V : Type} [Capture V]

/-- What a rule can capture from one place up to another. -/
inductive RuleGraph.Captures (g : RuleGraph ι V) (tokens : Array Token) :
    Rule ι V → Nat → List V → Nat → Prop
  | kind (k : TokenKind) (p : Nat) (t : Token) (ht : tokens[p]? = some t) (hk : t.kind = k) :
    Captures g tokens (.kind k) p [Capture.ofToken t] (p + 1)
  | verbatim (text : String) (p : Nat) (t : Token) (ht : tokens[p]? = some t)
    (hkind : t.kind = .verbatim) (htext : t.text = text) :
    Captures g tokens (.verbatim text) p [] (p + 1)
  | nothing (p : Nat) : Captures g tokens .nothing p [] p
  | seq (r t : Rule ι V) (p m q : Nat) (c c' : List V) (h : Captures g tokens r p c m)
    (h' : Captures g tokens t m c' q) : Captures g tokens (.seq r t) p (c ++ c') q
  | choiceLeft (r t : Rule ι V) (p q : Nat) (c : List V) (h : Captures g tokens r p c q) :
    Captures g tokens (.choice r t) p c q
  | choiceRight (r t : Rule ι V) (p q : Nat) (c : List V) (h : Captures g tokens t p c q) :
    Captures g tokens (.choice r t) p c q
  | plusOnce (r : Rule ι V) (p q : Nat) (c : List V) (h : Captures g tokens r p c q) :
    Captures g tokens (.plus r) p c q
  | plusMore (r : Rule ι V) (p m q : Nat) (c c' : List V) (h : Captures g tokens r p c m)
    (h' : Captures g tokens (.plus r) m c' q) : Captures g tokens (.plus r) p (c ++ c') q
  | optionalNone (r : Rule ι V) (p : Nat) : Captures g tokens (.optional r) p [] p
  | optionalSome (r : Rule ι V) (p q : Nat) (c : List V) (h : Captures g tokens r p c q) :
    Captures g tokens (.optional r) p c q
  | node (r : Rule ι V) (reduce : Reducer V) (p q : Nat) (c : List V) (v : V)
    (h : Captures g tokens r p c q) (hv : reduce c ⟨tokens, p, q⟩ = some v) :
    Captures g tokens (.node r reduce) p [v] q
  | memoized (key : ι) (r : Rule ι V) (p q : Nat) (c : List V) (h : Captures g tokens r p c q) :
    Captures g tokens (.memoized key r) p c q
  | reference (slot : Nat) (r : Rule ι V) (p q : Nat) (c : List V) (hslot : g.target slot = some r)
    (h : Captures g tokens r p c q) : Captures g tokens (.reference slot) p c q

/-! ### What rules of each form can capture -/

section Forms

variable {g : RuleGraph ι V} {tokens : Array Token} {p q : Nat} {c : List V} {r : Rule ι V}

theorem captures_kind {k : TokenKind} : g.Captures tokens (.kind k) p c q ↔
    ∃ t, tokens[p]? = some t ∧ t.kind = k ∧ c = [Capture.ofToken t] ∧ q = p + 1 := by
  constructor
  · rintro ⟨⟩
    exact ⟨_, ‹_›, ‹_›, rfl, rfl⟩
  · rintro ⟨t, ht, hk, rfl, rfl⟩
    exact .kind k p t ht hk

theorem captures_verbatim {text : String} : g.Captures tokens (.verbatim text) p c q ↔
    ∃ t, tokens[p]? = some t ∧ (t.kind = .verbatim ∧ t.text = text) ∧ c = [] ∧ q = p + 1 := by
  constructor
  · rintro ⟨⟩
    exact ⟨_, ‹_›, ⟨‹_›, ‹_›⟩, rfl, rfl⟩
  · rintro ⟨t, ht, ⟨hkind, htext⟩, rfl, rfl⟩
    exact .verbatim text p t ht hkind htext

theorem captures_all_nil : g.Captures tokens (.all []) p c q ↔ c = [] ∧ q = p := by
  constructor
  · rintro ⟨⟩
    exact ⟨rfl, rfl⟩
  · rintro ⟨rfl, rfl⟩
    exact .nothing _

theorem captures_all_cons {rules : List (Rule ι V)} :
    g.Captures tokens (.all (r :: rules)) p c q ↔ ∃ c₁ m c₂, g.Captures tokens r p c₁ m ∧
      g.Captures tokens (.all rules) m c₂ q ∧ c = c₁ ++ c₂ := by
  constructor
  · rintro ⟨⟩
    exact ⟨_, _, _, ‹_›, ‹_›, rfl⟩
  · rintro ⟨c₁, m, c₂, h, h', rfl⟩
    exact .seq _ _ _ _ _ _ _ h h'

theorem captures_all_single :
    g.Captures tokens (.all [r]) p c q ↔ g.Captures tokens r p c q := by
  rw [captures_all_cons]
  constructor
  · rintro ⟨c₁, m, c₂, h, h', rfl⟩
    obtain ⟨rfl, rfl⟩ := captures_all_nil.mp h'
    rwa [List.append_nil]
  · intro h
    exact ⟨c, q, [], h, captures_all_nil.mpr ⟨rfl, rfl⟩, (List.append_nil c).symm⟩

/-- A verbatim token in front of a sequence is not captured. -/
theorem captures_all_verbatim {text : String} {rules : List (Rule ι V)}
    (h : g.Captures tokens (.all (.verbatim text :: rules)) p c q) :
    g.Captures tokens (.all rules) (p + 1) c q := by
  obtain ⟨_, _, _, hfirst, hrest, rfl⟩ := captures_all_cons.mp h
  obtain ⟨-, -, -, rfl, rfl⟩ := captures_verbatim.mp hfirst
  exact hrest

theorem exists_of_captures_any : ∀ {rules : List (Rule ι V)},
    g.Captures tokens (.any rules) p c q → ∃ r ∈ rules, g.Captures tokens r p c q
  | [], h => nomatch h
  | r :: _, .choiceLeft _ _ _ _ _ h => ⟨r, List.mem_cons_self, h⟩
  | _ :: _, .choiceRight _ _ _ _ _ h => by
    obtain ⟨r, hr, h⟩ := exists_of_captures_any h
    exact ⟨r, List.mem_cons_of_mem _ hr, h⟩

theorem captures_optional : g.Captures tokens (.optional r) p c q ↔
    c = [] ∧ q = p ∨ g.Captures tokens r p c q := by
  constructor
  · rintro ⟨⟩
    · exact Or.inl ⟨rfl, rfl⟩
    · exact Or.inr ‹_›
  · rintro (⟨rfl, rfl⟩ | h)
    · exact .optionalNone r _
    · exact .optionalSome _ _ _ _ h

/-- What a repetition can capture is a row of what its rule can. -/
theorem captures_star (h : g.Captures tokens (.star r) p c q) {Q : List V → Prop} (hnil : Q [])
    (happend : ∀ c c', Q c → Q c' → Q (c ++ c'))
    (hr : ∀ p c q, g.Captures tokens r p c q → Q c) : Q c := by
  have hplus : ∀ {ρ : Rule ι V} {p c q}, g.Captures tokens ρ p c q → ρ = .plus r → Q c := by
    intro ρ p c q h
    induction h with
    | plusOnce ρ p q c h =>
      rintro ⟨⟩
      exact hr p c q h
    | plusMore ρ p m q c c' h h' _ ih =>
      intro he
      cases he
      exact happend c c' (hr p c m h) (ih rfl)
    | _ => simp
  rcases captures_optional.mp h with ⟨rfl, -⟩ | h
  · exact hnil
  · exact hplus h rfl

/-- What a node can capture, with its outcomes remembered or not, is what it makes of its rule's
captures. -/
theorem captures_node {strategy : Strategy} {key : ι} {reduce : Reducer V} :
    g.Captures tokens (strategy.node key r reduce) p c q ↔ ∃ c' v, g.Captures tokens r p c' q ∧
      reduce c' ⟨tokens, p, q⟩ = some v ∧ c = [v] := by
  have hnode : g.Captures tokens (.node r reduce) p c q ↔ ∃ c' v, g.Captures tokens r p c' q ∧
      reduce c' ⟨tokens, p, q⟩ = some v ∧ c = [v] := by
    constructor
    · rintro ⟨⟩
      exact ⟨_, _, ‹_›, ‹_›, rfl⟩
    · rintro ⟨c', v, h, hv, rfl⟩
      exact .node _ _ _ _ _ _ h hv
  rcases strategy with _ | _
  · exact hnode
  · rw [← hnode]
    constructor
    · rintro ⟨⟩
      exact ‹_›
    · exact .memoized _ _ _ _ _

theorem captures_reference {slot : Nat} : g.Captures tokens (.reference slot) p c q ↔
    ∃ r, g.target slot = some r ∧ g.Captures tokens r p c q := by
  constructor
  · rintro ⟨⟩
    exact ⟨_, ‹_›, ‹_›⟩
  · rintro ⟨r, hslot, h⟩
    exact .reference _ _ _ _ _ hslot h

end Forms

/-! ### Trying a rule -/

variable [BEq ι] [Hashable ι]

/-- A predicate of every node that a rule is built of, references apart. -/
def Rule.Nodes (P : Rule ι V → Reducer V → Prop) : Rule ι V → Prop
  | seq r t => Nodes P r ∧ Nodes P t
  | choice r t => Nodes P r ∧ Nodes P t
  | plus r => Nodes P r
  | optional r => Nodes P r
  | node r reduce => P r reduce ∧ Nodes P r
  | memoized _ r => Nodes P r
  | _ => True

/-- What is remembered under a key was captured by its rule. -/
structure ParseState.Sourced (g : RuleGraph ι V) (rules : ι → Rule ι V) (tokens : Array Token)
    (s : ParseState ι V) : Prop where
  tokens_eq : s.tokens = tokens
  remembered : ∀ table, s.memo = some table → ∀ key p captures stop,
    table[(key, p)]? = some (some (captures, stop)) →
      g.Captures tokens (rules key) p captures stop

/-- Where trying `r` succeeds, it captures what the rule can capture. -/
def Recognizer.Sources (g : RuleGraph ι V) (rules : ι → Rule ι V) (tokens : Array Token)
    (r : Recognizer ι V) (rule : Rule ι V) : Prop :=
  ∀ s, s.Sourced g rules tokens → (r s).2.Sourced g rules tokens ∧
    ∀ captures, (r s).1 = some captures →
      g.Captures tokens rule s.position captures (r s).2.position

variable {g : RuleGraph ι V} {rules : ι → Rule ι V} {tokens : Array Token} {s s' : ParseState ι V}

namespace ParseState

theorem Sourced.restore (h : s.Sourced g rules tokens) (p : Nat) :
    (s.restore p).Sourced g rules tokens :=
  ⟨h.tokens_eq, h.remembered⟩

theorem Sourced.recordFailure (h : s.Sourced g rules tokens) (what : String) :
    (s.recordFailure what).Sourced g rules tokens := by
  rw [recordFailure_eq]
  exact ⟨h.tokens_eq, h.remembered⟩

theorem Sourced.exitNested (h : s.Sourced g rules tokens) :
    s.exitNested.Sourced g rules tokens :=
  ⟨h.tokens_eq, h.remembered⟩

theorem Sourced.enterNested (h : s.Sourced g rules tokens) :
    s.enterNested.2.Sourced g rules tokens := by
  unfold ParseState.enterNested
  split
  · exact h
  · split
    · exact ⟨h.tokens_eq, h.remembered⟩
    · exact ⟨h.tokens_eq, h.remembered⟩

theorem Sourced.remember [LawfulBEq ι] (h : s.Sourced g rules tokens) {key : ι} {p : Nat}
    {o : Outcome V} (ho : ∀ captures stop, o = some (captures, stop) →
      g.Captures tokens (rules key) p captures stop) :
    (s.remember key p o).Sourced g rules tokens :=
  ⟨h.tokens_eq, remembers_read_iff.mp ((remembers_read_iff.mpr h.remembered).remember ho)⟩

theorem sourced_start (strategy : Strategy) (tokens : Array Token) :
    (strategy.start tokens).Sourced g rules tokens := by
  refine ⟨?_, remembers_read_iff.mp (remembers_start strategy tokens)⟩
  cases strategy <;> rfl

end ParseState

namespace Recognizer

variable {r t : Recognizer ι V} {ρ τ : Rule ι V}

/-- Trying something that fails captures nothing. -/
theorem sources_failed (hs : s.Sourced g rules tokens) {p : Nat} :
    ((none, s) : Option (List V) × ParseState ι V).2.Sourced g rules tokens ∧
      ∀ captures, (none : Option (List V)) = some captures →
        g.Captures tokens ρ p captures s.position :=
  ⟨hs, fun _ h => absurd h (by simp)⟩

theorem sources_expecting {what : String} {wanted : Token → Bool} {capture : Token → List V}
    (h : ∀ p t, tokens[p]? = some t → wanted t → g.Captures tokens ρ p (capture t) (p + 1)) :
    Sources g rules tokens (expecting what wanted capture) ρ := by
  intro s hs
  rcases expecting_cases what wanted capture s with ⟨t, ht, hw, hout⟩ | ⟨-, hout⟩ <;> rw [hout]
  · rw [hs.tokens_eq] at ht
    refine ⟨hs.restore _, fun _ hc => ?_⟩
    obtain rfl := Option.some.inj hc
    exact h s.position t ht hw
  · exact sources_failed (hs.recordFailure what)

theorem sources_kind (k : TokenKind) : Sources g rules tokens
    (expecting k.label (·.kind == k) fun token => [Capture.ofToken token]) (.kind k) := by
  refine sources_expecting fun p t ht hw => .kind k p t ht ?_
  simpa using hw

theorem sources_verbatim (text : String) : Sources g rules tokens
    (expecting (Token.quote text) (fun token => token.kind == .verbatim && token.text == text)
      fun _ => []) (.verbatim text) := by
  refine sources_expecting fun p t ht hw => ?_
  obtain ⟨hkind, htext⟩ : t.kind = .verbatim ∧ t.text = text := by simpa using hw
  exact .verbatim text p t ht hkind htext

theorem Sources.seq (hr : Sources g rules tokens r ρ) (ht : Sources g rules tokens t τ) :
    Sources g rules tokens (seq r t) (.seq ρ τ) := by
  intro s hs
  obtain ⟨hs', h⟩ := hr s hs
  unfold Recognizer.seq
  generalize r s = out at hs' h ⊢
  rcases out with ⟨_ | captures, s'⟩
  · exact sources_failed (hs'.restore _)
  · obtain ⟨hs'', h'⟩ := ht s' hs'
    simp only
    generalize t s' = out at hs'' h' ⊢
    rcases out with ⟨_ | more, s''⟩
    · exact sources_failed (hs''.restore _)
    · refine ⟨hs'', fun _ hc => ?_⟩
      obtain rfl := Option.some.inj hc
      exact .seq _ _ _ _ _ _ _ (h captures rfl) (h' more rfl)

theorem Sources.choice (hr : Sources g rules tokens r ρ) (ht : Sources g rules tokens t τ) :
    Sources g rules tokens (choice r t) (.choice ρ τ) := by
  intro s hs
  obtain ⟨hs', h⟩ := hr s hs
  unfold Recognizer.choice
  generalize r s = out at hs' h ⊢
  rcases out with ⟨_ | captures, s'⟩
  · obtain ⟨hs'', h'⟩ := ht (s'.restore s.position) (hs'.restore _)
    simp only
    generalize t (s'.restore s.position) = out at hs'' h' ⊢
    rcases out with ⟨_ | more, s''⟩
    · exact sources_failed (hs''.restore _)
    · exact ⟨hs'', fun captures hc => .choiceRight _ _ _ _ _ (h' captures hc)⟩
  · exact ⟨hs', fun captures hc => .choiceLeft _ _ _ _ _ (h captures hc)⟩

/-- Further rounds capture nothing and read nothing, or what another repetition can capture. -/
theorem Sources.rounds (hr : Sources g rules tokens r ρ) :
    ∀ (n : Nat) (s : ParseState ι V), s.Sourced g rules tokens →
      (rounds r n s).2.Sourced g rules tokens ∧
        ((rounds r n s).1 = [] ∧ (rounds r n s).2.position = s.position ∨
          g.Captures tokens (.plus ρ) s.position (rounds r n s).1 (rounds r n s).2.position)
  | 0, _, hs => ⟨hs, Or.inl ⟨rfl, rfl⟩⟩
  | n + 1, s, hs => by
    obtain ⟨hs', h⟩ := hr s hs
    unfold Recognizer.rounds
    generalize r s = out at hs' h ⊢
    rcases out with ⟨_ | captures, s'⟩
    · exact ⟨hs'.restore _, Or.inl ⟨rfl, rfl⟩⟩
    · simp only
      by_cases hp : s.position < s'.position
      · rw [if_pos hp]
        obtain ⟨hs'', hmore⟩ := Sources.rounds hr n s' hs'
        refine ⟨hs'', Or.inr ?_⟩
        rcases hmore with ⟨hnil, hstay⟩ | hmore
        · show g.Captures tokens _ _ (captures ++ (Recognizer.rounds r n s').1)
            (Recognizer.rounds r n s').2.position
          rw [hnil, hstay, List.append_nil]
          exact .plusOnce _ _ _ _ (h captures rfl)
        · exact .plusMore _ _ _ _ _ _ (h captures rfl) hmore
      · rw [if_neg hp]
        exact ⟨hs'.restore _, Or.inl ⟨rfl, rfl⟩⟩

theorem Sources.plus (hr : Sources g rules tokens r ρ) :
    Sources g rules tokens (plus r) (.plus ρ) := by
  intro s hs
  obtain ⟨hs', h⟩ := hr s hs
  unfold Recognizer.plus
  generalize r s = out at hs' h ⊢
  rcases out with ⟨_ | captures, s'⟩
  · exact sources_failed hs'
  · obtain ⟨hs'', hmore⟩ := hr.rounds (s'.tokens.size - s'.position + 1) s' hs'
    refine ⟨hs'', fun _ hc => ?_⟩
    obtain rfl := Option.some.inj hc
    rcases hmore with ⟨hnil, hstay⟩ | hmore
    · simp only
      rw [hnil, hstay, List.append_nil]
      exact .plusOnce _ _ _ _ (h captures rfl)
    · exact .plusMore _ _ _ _ _ _ (h captures rfl) hmore

theorem Sources.optional (hr : Sources g rules tokens r ρ) :
    Sources g rules tokens (optional r) (.optional ρ) := by
  intro s hs
  obtain ⟨hs', h⟩ := hr s hs
  unfold Recognizer.optional
  generalize r s = out at hs' h ⊢
  rcases out with ⟨_ | captures, s'⟩
  · refine ⟨hs'.restore _, fun _ hc => ?_⟩
    obtain rfl := Option.some.inj hc
    exact .optionalNone _ _
  · exact ⟨hs', fun captures hc => .optionalSome _ _ _ _ (h captures hc)⟩

theorem Sources.node (hr : Sources g rules tokens r ρ) (reduce : Reducer V) :
    Sources g rules tokens (node r reduce) (.node ρ reduce) := by
  intro s hs
  obtain ⟨hs', h⟩ := hr s hs
  unfold Recognizer.node
  generalize r s = out at hs' h ⊢
  rcases out with ⟨_ | captures, s'⟩
  · exact sources_failed hs'
  · have htokens : s'.tokens = tokens := hs'.tokens_eq
    simp only [htokens]
    rcases hv : reduce captures ⟨tokens, s.position, s'.position⟩ with _ | v
    · exact sources_failed (hs'.restore _)
    · refine ⟨hs', fun _ hc => ?_⟩
      obtain rfl := Option.some.inj hc
      exact .node _ _ _ _ _ _ (h captures rfl) hv

theorem Sources.memoized [LawfulBEq ι] (hr : Sources g rules tokens r ρ) {key : ι}
    (hkey : rules key = ρ) :
    Sources g rules tokens (memoized key r) (.memoized key ρ) := by
  intro s hs
  obtain ⟨hs', h⟩ := hr s hs
  rcases memoized_cases key r s with
    ⟨-, hout⟩ | ⟨-, -, hout⟩ | ⟨-, -, hout⟩ | ⟨captures, stop, -, hget, hout⟩ <;> rw [hout]
  · exact ⟨hs', fun captures hc => .memoized _ _ _ _ _ (h captures hc)⟩
  · refine ⟨hs'.remember fun captures stop ho => ?_,
      fun captures hc => .memoized _ _ _ _ _ (h captures hc)⟩
    obtain ⟨captures, hc, ho⟩ := Option.map_eq_some_iff.mp ho
    obtain ⟨rfl, rfl⟩ := Prod.mk.inj ho
    exact hkey ▸ h captures hc
  · exact sources_failed hs
  · have hremembered :=
      (ParseState.remembers_read_iff.mpr hs.remembered).remembered hget captures stop rfl
    refine ⟨hs.restore _, fun _ hc => ?_⟩
    obtain rfl := Option.some.inj hc
    exact .memoized _ _ _ _ _ (hkey ▸ hremembered)

theorem sources_reference {target : Option (Recognizer ι V)} {slot : Nat}
    (h : ∀ r, target = some r → ∃ ρ, g.target slot = some ρ ∧ Sources g rules tokens r ρ) :
    Sources g rules tokens (reference target) (.reference slot) := by
  intro s hs
  unfold reference
  rcases target with _ | r
  · exact sources_failed hs
  · obtain ⟨ρ, hslot, hr⟩ := h r rfl
    have hs' := hs.enterNested
    have hposition := s.enterNested_still.2.1
    generalize s.enterNested = entered at hs' hposition ⊢
    rcases entered with ⟨_ | _, s'⟩
    · exact sources_failed hs'
    · obtain ⟨hs'', hc⟩ := hr s' hs'
      refine ⟨hs''.exitNested, fun captures h => .reference _ _ _ _ _ hslot ?_⟩
      exact hposition ▸ hc captures h

/-- What is remembered behind it was captured too. -/
theorem Sources.sourced (hr : Sources g rules tokens r ρ) (hs : s.Sourced g rules tokens)
    {result : Option (List V)} (h : r s = (result, s')) : s'.Sourced g rules tokens := by
  have hs' := (hr s hs).1
  rwa [h] at hs'

theorem Rounds.sourced {n : Nat} (h : Rounds r n s s') (hr : Sources g rules tokens r ρ)
    (hs : s.Sourced g rules tokens) : s'.Sourced g rules tokens := by
  induction h with
  | here n s => exact hs
  | next h hlt h' ih => exact ih (hr.sourced hs h)

end Recognizer

/-! ### Rules of a graph -/

open Recognizer

variable [LawfulBEq ι]

theorem Rule.run_sources {target : Nat → Option (Recognizer ι V)}
    (href : ∀ slot, Sources g rules tokens (Recognizer.reference (target slot))
      (.reference slot)) :
    ∀ rule : Rule ι V, rule.Keyed rules → Sources g rules tokens (rule.run target) rule
  | kind k, _ => sources_kind k
  | verbatim text, _ => sources_verbatim text
  | nothing, _ => fun _ hs => ⟨hs, fun _ hc => Option.some.inj hc ▸ .nothing _⟩
  | never, _ => fun _ hs => sources_failed hs
  | seq r t, h => (run_sources href r h.1).seq (run_sources href t h.2)
  | choice r t, h => (run_sources href r h.1).choice (run_sources href t h.2)
  | plus r, h => (run_sources href r h).plus
  | optional r, h => (run_sources href r h).optional
  | node r reduce, h => (run_sources href r h).node reduce
  | memoized _ r, h => (run_sources href r h.2).memoized h.1
  | reference slot, _ => href slot

/-- A rule of a graph captures nothing but what it can capture. -/
theorem RuleGraph.run_sources
    (hg : ∀ slot rule, g.target slot = some rule → rule.Keyed rules) (levels : Nat)
    (rule : Rule ι V) (hrule : rule.Keyed rules) :
    Sources g rules tokens (rule.run (g.follow levels)) rule := by
  induction levels generalizing rule with
  | zero =>
    refine Rule.run_sources (fun slot => sources_reference fun r h => ?_) rule hrule
    obtain ⟨ρ, hslot, rfl⟩ := Option.map_eq_some_iff.mp h
    exact ⟨ρ, hslot, fun _ hs => sources_failed hs⟩
  | succ levels ih =>
    refine Rule.run_sources (fun slot => sources_reference fun r h => ?_) rule hrule
    obtain ⟨ρ, hslot, rfl⟩ := Option.map_eq_some_iff.mp h
    exact ⟨ρ, hslot, ih ρ (hg slot ρ hslot)⟩

/-! ### The trials on the way -/

section Trials

variable {P : Rule ι V → Reducer V → Prop}

/-- The keys of the rules that are tried are right, and `P` holds of their nodes. -/
structure RuleGraph.Sound (g : RuleGraph ι V) (rules : ι → Rule ι V)
    (P : Rule ι V → Reducer V → Prop) : Prop where
  keyed : ∀ slot rule, g.target slot = some rule → rule.Keyed rules
  nodes : ∀ slot rule, g.target slot = some rule → rule.Nodes P

/-- A trial of such a rule, where the table holds nothing but what was captured. -/
structure Trial.Sound (g : RuleGraph ι V) (rules : ι → Rule ι V) (tokens : Array Token)
    (P : Rule ι V → Reducer V → Prop) (t : Trial ι V) : Prop where
  keyed : t.rule.Keyed rules
  nodes : t.rule.Nodes P
  sourced : t.state.Sourced g rules tokens

theorem RuleGraph.Tries.sound {t u : Trial ι V} (h : g.Tries t u) (hg : g.Sound rules P)
    (ht : t.Sound g rules tokens P) : u.Sound g rules tokens P := by
  obtain ⟨hk, hn, hs⟩ := ht
  have hrun (levels : Nat) (r : Rule ι V) (hr : r.Keyed rules) :
      Sources g rules tokens (r.run (g.follow levels)) r :=
    RuleGraph.run_sources hg.keyed levels r hr
  cases h with
  | seqLeft levels r t s => exact ⟨hk.1, hn.1, hs⟩
  | seqRight levels r t s s' captures h =>
    exact ⟨hk.2, hn.2, (hrun levels r hk.1).sourced hs h⟩
  | choiceLeft levels r t s => exact ⟨hk.1, hn.1, hs⟩
  | choiceRight levels r t s s' h =>
    exact ⟨hk.2, hn.2, ((hrun levels r hk.1).sourced hs h).restore _⟩
  | plusFirst levels r s => exact ⟨hk, hn, hs⟩
  | plusAgain levels r s s' s'' captures h h' =>
    exact ⟨hk, hn, h'.sourced (hrun levels r hk) ((hrun levels r hk).sourced hs h)⟩
  | optional levels r s => exact ⟨hk, hn, hs⟩
  | node levels r reduce s => exact ⟨hk, hn.2, hs⟩
  | memoized levels key r s h => exact ⟨hk.2, hn, hs⟩
  | reference levels slot r s s' h h' =>
    have hs' := hs.enterNested
    rw [h'] at hs'
    exact ⟨hg.keyed slot r h, hg.nodes slot r h, hs'⟩

theorem RuleGraph.TriesAmong.sound {t u : Trial ι V} (h : g.TriesAmong t u)
    (hg : g.Sound rules P) (ht : t.Sound g rules tokens P) : u.Sound g rules tokens P := by
  induction h with
  | refl => exact ht
  | tail _ h ih => exact h.sound hg ih

/-- Whatever a node is made of on the way was captured by its rule. -/
theorem RuleGraph.captures_of_tries (hg : g.Sound rules P) {t : Trial ι V}
    (ht : t.Sound g rules tokens P) {levels : Nat} {r : Rule ι V} {reduce : Reducer V}
    {captures : List V} (h : g.TriesAmong t ⟨levels, .node r reduce, s⟩)
    (hrun : r.run (g.follow levels) s = (some captures, s')) :
    P r reduce ∧ s'.tokens = tokens ∧ g.Captures tokens r s.position captures s'.position := by
  obtain ⟨hk, ⟨hP, -⟩, hs⟩ := RuleGraph.TriesAmong.sound h hg ht
  obtain ⟨hs', hc⟩ := RuleGraph.run_sources hg.keyed levels r hk s hs
  rw [hrun] at hs' hc
  exact ⟨hP, hs'.tokens_eq, hc captures rfl⟩

end Trials

end Precedence
