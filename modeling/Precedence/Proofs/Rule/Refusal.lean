import Mathlib
import Precedence.Proofs.Rule.Semantics
import Precedence.Proofs.Rule.Trial

/-!
# No refusal is silent

Where a rule was tried and no level was refused, it did what it means, with a table of outcomes or
without one (`RuleGraph.run_means`), and so did every rule that was tried on the way
(`RuleGraph.apply_evaluates`). For a refusal stays in the state (`KeepsRefusal`): if there is none at
the end, there was none before, so that each part of a rule that was tried ended without one; and a
table that is filled by such trials holds nothing but what rules mean. So wherever the limit makes a
trial come to something else, the state tells.
-/

namespace Precedence

variable {ι V : Type} [BEq ι] [Hashable ι]

/-! ### Parts of what was not refused -/

namespace Recognizer

variable {r t : Recognizer ι V} {s s' : ParseState ι V}

theorem KeepsRefusal.none_of_none (k : KeepsRefusal r) (h : (r s).2.overflow = none) :
    s.overflow = none := by
  rcases ho : s.overflow with _ | i
  · rfl
  · exact absurd ((k s s.tokens i ⟨ho, rfl⟩).1.symm.trans h) (by simp)

theorem seq_overflow (k : KeepsRefusal t) (h : (seq r t s).2.overflow = none) :
    (r s).2.overflow = none ∧
      ∀ captures s', r s = (some captures, s') → (t s').2.overflow = none := by
  unfold seq at h
  generalize r s = out at h ⊢
  rcases out with ⟨_ | captures, s'⟩
  · exact ⟨h, fun _ _ he => absurd he (by simp)⟩
  · have ht : (t s').2.overflow = none := by
      simp only at h
      generalize t s' = out at h ⊢
      rcases out with ⟨_ | more, s''⟩
      · exact h
      · exact h
    refine ⟨k.none_of_none ht, fun _ _ he => ?_⟩
    obtain ⟨-, rfl⟩ := Prod.mk.inj he
    exact ht

theorem choice_overflow (k : KeepsRefusal t) (h : (choice r t s).2.overflow = none) :
    (r s).2.overflow = none ∧
      ∀ s', r s = (none, s') → (t (s'.restore s.position)).2.overflow = none := by
  unfold choice at h
  generalize r s = out at h ⊢
  rcases out with ⟨_ | captures, s'⟩
  · have ht : (t (s'.restore s.position)).2.overflow = none := by
      simp only at h
      generalize t (s'.restore s.position) = out at h ⊢
      rcases out with ⟨_ | more, s''⟩
      · exact h
      · exact h
    have hs' : (s'.restore s.position).overflow = none := k.none_of_none ht
    refine ⟨hs', fun _ he => ?_⟩
    obtain ⟨-, rfl⟩ := Prod.mk.inj he
    exact ht
  · exact ⟨h, fun _ he => absurd he (by simp)⟩

theorem rounds_succ_overflow (k : KeepsRefusal r) {n : Nat}
    (h : (rounds r (n + 1) s).2.overflow = none) : (r s).2.overflow = none ∧
      ∀ captures s', r s = (some captures, s') → s.position < s'.position →
        (rounds r n s').2.overflow = none := by
  unfold rounds at h
  generalize r s = out at h ⊢
  rcases out with ⟨_ | captures, s'⟩
  · exact ⟨h, fun _ _ he => absurd he (by simp)⟩
  · simp only at h
    by_cases hp : s.position < s'.position
    · rw [if_pos hp] at h
      have hs' : s'.overflow = none := by
        rcases ho : s'.overflow with _ | i
        · rfl
        · exact absurd ((k.rounds n s' s'.tokens i ⟨ho, rfl⟩).1.symm.trans h) (by simp)
      refine ⟨hs', fun _ _ he _ => ?_⟩
      obtain ⟨-, rfl⟩ := Prod.mk.inj he
      exact h
    · rw [if_neg hp] at h
      refine ⟨h, fun _ _ he hlt => ?_⟩
      obtain ⟨-, rfl⟩ := Prod.mk.inj he
      exact absurd hlt hp

theorem plus_overflow (k : KeepsRefusal r) (h : (plus r s).2.overflow = none) :
    (r s).2.overflow = none ∧ ∀ captures s', r s = (some captures, s') →
      (rounds r (s'.tokens.size - s'.position + 1) s').2.overflow = none := by
  unfold plus at h
  generalize r s = out at h ⊢
  rcases out with ⟨_ | captures, s'⟩
  · exact ⟨h, fun _ _ he => absurd he (by simp)⟩
  · have hs' : s'.overflow = none := by
      rcases ho : s'.overflow with _ | i
      · rfl
      · exact absurd ((k.rounds _ s' s'.tokens i ⟨ho, rfl⟩).1.symm.trans h) (by simp)
    refine ⟨hs', fun _ _ he => ?_⟩
    obtain ⟨-, rfl⟩ := Prod.mk.inj he
    exact h

theorem optional_overflow : (optional r s).2.overflow = (r s).2.overflow := by
  unfold optional
  generalize r s = out
  rcases out with ⟨_ | captures, s'⟩
  · rfl
  · rfl

theorem node_overflow (reduce : Reducer V) :
    (node r reduce s).2.overflow = (r s).2.overflow := by
  unfold node
  generalize r s = out
  rcases out with ⟨_ | captures, s'⟩
  · rfl
  · simp only
    rcases reduce captures ⟨s'.tokens, s.position, s'.position⟩ with _ | value
    · rfl
    · rfl

end Recognizer

section Meaning

variable [Capture V]

/-- Under each key, the rules of the graph have at most the rule that belongs to it, as it is where
each rule that is built has a number of its own (`Script.keyed`). -/
def RuleGraph.Keyed (g : RuleGraph ι V) (rules : ι → Rule ι V) : Prop :=
  ∀ slot rule, g.target slot = some rule → rule.Keyed rules

/-- Nothing was refused yet, that many levels are left, and what is remembered is what the rules
mean. -/
structure ParseState.Truthful (g : RuleGraph ι V) (rules : ι → Rule ι V) (tokens : Array Token)
    (levels : Nat) (s : ParseState ι V) : Prop where
  tokens_eq : s.tokens = tokens
  overflow_eq : s.overflow = none
  depth_add : s.depth + levels = nestingLimit
  remembered : ∀ table, s.memo = some table → ∀ key p o, table[(key, p)]? = some o →
    g.Evaluates tokens (rules key) p o

/-- Where trying `r` ends without a refusal, it comes to what the rule means. -/
def Recognizer.Means (g : RuleGraph ι V) (rules : ι → Rule ι V) (tokens : Array Token)
    (levels : Nat) (r : Recognizer ι V) (rule : Rule ι V) : Prop :=
  ∀ s, s.Truthful g rules tokens levels → (r s).2.overflow = none →
    g.Evaluates tokens rule s.position (outcomeOf (r s)) ∧
      (r s).2.Truthful g rules tokens levels

variable {g : RuleGraph ι V} {rules : ι → Rule ι V} {tokens : Array Token} {levels : Nat}
  {s s' : ParseState ι V}

theorem ParseState.Truthful.restore (h : s.Truthful g rules tokens levels) (p : Nat) :
    (s.restore p).Truthful g rules tokens levels :=
  ⟨h.tokens_eq, h.overflow_eq, h.depth_add, h.remembered⟩

theorem ParseState.Truthful.recordFailure (h : s.Truthful g rules tokens levels) (what : String) :
    (s.recordFailure what).Truthful g rules tokens levels := by
  rw [recordFailure_eq]
  exact ⟨h.tokens_eq, h.overflow_eq, h.depth_add, h.remembered⟩

theorem ParseState.truthful_start (strategy : Strategy) (tokens : Array Token) :
    (strategy.start tokens).Truthful g rules tokens nestingLimit := by
  cases strategy <;> exact ⟨rfl, rfl, rfl, remembers_start _ tokens⟩

/-- One level less is left behind a reference. -/
theorem ParseState.Truthful.enterNested (h : s.Truthful g rules tokens (levels + 1)) :
    s.enterNested = (true, { s with depth := s.depth + 1 }) ∧
      ({ s with depth := s.depth + 1 } : ParseState ι V).Truthful g rules tokens levels := by
  have hd := h.depth_add
  refine ⟨?_, h.tokens_eq, h.overflow_eq, by simp only; omega, h.remembered⟩
  unfold ParseState.enterNested
  rw [if_neg (by rw [h.overflow_eq]; simp), if_neg (by omega)]

namespace Recognizer

variable {r t : Recognizer ι V} {ρ τ : Rule ι V}

theorem means_expecting {what : String} {wanted : Token → Bool} {capture : Token → List V}
    (hreads : ∀ p t, tokens[p]? = some t → wanted t →
      g.Evaluates tokens ρ p (some (capture t, p + 1)))
    (hfails : ∀ p, (∀ t, tokens[p]? = some t → ¬ wanted t) → g.Evaluates tokens ρ p none) :
    Means g rules tokens levels (expecting what wanted capture) ρ := by
  intro s hs _
  rcases expecting_cases what wanted capture s with ⟨t, ht, hw, hout⟩ | ⟨hnot, hout⟩ <;> rw [hout]
  · exact ⟨hreads s.position t (hs.tokens_eq ▸ ht) hw, hs.restore _⟩
  · exact ⟨hfails s.position (hs.tokens_eq ▸ hnot), hs.recordFailure what⟩

theorem means_kind (k : TokenKind) : Means g rules tokens levels
    (expecting k.label (·.kind == k) fun token => [Capture.ofToken token]) (.kind k) := by
  refine means_expecting (fun p t ht hw => .kindReads k p t ht ?_)
    fun p hnot => .kindFails k p fun t ht hk => hnot t ht ?_
  · simpa using hw
  · simpa using hk

theorem means_verbatim (text : String) : Means g rules tokens levels
    (expecting (Token.quote text) (fun token => token.kind == .verbatim && token.text == text)
      fun _ => []) (.verbatim text) := by
  refine means_expecting (fun p t ht hw => ?_) fun p hnot => .verbatimFails text p fun t ht hv =>
    hnot t ht ?_
  · obtain ⟨hkind, htext⟩ : t.kind = .verbatim ∧ t.text = text := by simpa using hw
    exact .verbatimReads text p t ht hkind htext
  · simpa using hv

theorem Means.seq (hr : Means g rules tokens levels r ρ) (ht : Means g rules tokens levels t τ)
    (k : KeepsRefusal t) : Means g rules tokens levels (seq r t) (.seq ρ τ) := by
  intro s hs hnone
  obtain ⟨hleft, hright⟩ := seq_overflow k hnone
  obtain ⟨h, hs'⟩ := hr s hs hleft
  unfold Recognizer.seq
  generalize r s = out at h hs' hright ⊢
  rcases out with ⟨_ | captures, s'⟩
  · exact ⟨.seqFailsLeft _ _ _ h, hs'.restore _⟩
  · obtain ⟨h', hs''⟩ := ht s' hs' (hright captures s' rfl)
    simp only
    generalize t s' = out at h' hs'' ⊢
    rcases out with ⟨_ | more, s''⟩
    · exact ⟨.seqFailsRight _ _ _ _ _ h h', hs''.restore _⟩
    · exact ⟨.seqReads _ _ _ _ _ _ _ h h', hs''⟩

theorem Means.choice (hr : Means g rules tokens levels r ρ) (ht : Means g rules tokens levels t τ)
    (k : KeepsRefusal t) : Means g rules tokens levels (choice r t) (.choice ρ τ) := by
  intro s hs hnone
  obtain ⟨hleft, hright⟩ := choice_overflow k hnone
  obtain ⟨h, hs'⟩ := hr s hs hleft
  unfold Recognizer.choice
  generalize r s = out at h hs' hright ⊢
  rcases out with ⟨_ | captures, s'⟩
  · obtain ⟨h', hs''⟩ := ht _ (hs'.restore s.position) (hright s' rfl)
    simp only
    generalize t (s'.restore s.position) = out at h' hs'' ⊢
    rcases out with ⟨_ | more, s''⟩
    · exact ⟨.choiceRight _ _ _ _ h h', hs''.restore _⟩
    · exact ⟨.choiceRight _ _ _ _ h h', hs''⟩
  · exact ⟨.choiceLeft _ _ _ _ h, hs'⟩

/-- The rounds that are allowed are never too few, as each reads one token at least. -/
theorem Means.rounds (hr : Means g rules tokens levels r ρ) (k : KeepsRefusal r) :
    ∀ (n : Nat) (s : ParseState ι V), s.Truthful g rules tokens levels →
      tokens.size - s.position < n → (rounds r n s).2.overflow = none →
      g.Repeats tokens ρ s.position (rounds r n s).1 (rounds r n s).2.position ∧
        (rounds r n s).2.Truthful g rules tokens levels
  | 0, _, _, hn, _ => absurd hn (Nat.not_lt_zero _)
  | n + 1, s, hs, hn, hnone => by
    obtain ⟨hfirst, hrest⟩ := rounds_succ_overflow k hnone
    obtain ⟨h, hs'⟩ := hr s hs hfirst
    unfold Recognizer.rounds
    rcases hout : r s with ⟨_ | captures, s'⟩
    · rw [hout] at h hs'
      exact ⟨.fails _ _ h, hs'.restore _⟩
    · rw [hout] at h hs'
      simp only
      by_cases hp : s.position < s'.position
      · rw [if_pos hp]
        have hsize : s'.position ≤ tokens.size := (h.forward captures _ rfl).2 hp
        obtain ⟨h', hs''⟩ := Means.rounds hr k n s' hs' (by omega)
          (hrest captures s' hout hp)
        exact ⟨.next _ _ _ _ _ _ h hp h', hs''⟩
      · rw [if_neg hp]
        exact ⟨.stuck _ _ _ _ h hp, hs'.restore _⟩

theorem Means.plus (hr : Means g rules tokens levels r ρ) (k : KeepsRefusal r) :
    Means g rules tokens levels (plus r) (.plus ρ) := by
  intro s hs hnone
  obtain ⟨hfirst, hrest⟩ := plus_overflow k hnone
  obtain ⟨h, hs'⟩ := hr s hs hfirst
  unfold Recognizer.plus
  generalize r s = out at h hs' hrest ⊢
  rcases out with ⟨_ | captures, s'⟩
  · exact ⟨.plusFails _ _ h, hs'⟩
  · obtain ⟨h', hs''⟩ := hr.rounds k _ s' hs' (by rw [hs'.tokens_eq]; omega)
      (hrest captures s' rfl)
    exact ⟨.plusReads _ _ _ _ _ _ h h', hs''⟩

theorem Means.optional (hr : Means g rules tokens levels r ρ) :
    Means g rules tokens levels (optional r) (.optional ρ) := by
  intro s hs hnone
  obtain ⟨h, hs'⟩ := hr s hs (optional_overflow.symm.trans hnone)
  unfold Recognizer.optional
  generalize r s = out at h hs' ⊢
  rcases out with ⟨_ | captures, s'⟩
  · exact ⟨.optionalFails _ _ h, hs'.restore _⟩
  · exact ⟨.optionalReads _ _ _ h, hs'⟩

theorem Means.node (hr : Means g rules tokens levels r ρ) (reduce : Reducer V) :
    Means g rules tokens levels (node r reduce) (.node ρ reduce) := by
  intro s hs hnone
  obtain ⟨h, hs'⟩ := hr s hs ((node_overflow reduce).symm.trans hnone)
  unfold Recognizer.node
  generalize r s = out at h hs' ⊢
  rcases out with ⟨_ | captures, s'⟩
  · exact ⟨.nodeFails _ _ _ h, hs'⟩
  · have htokens : s'.tokens = tokens := hs'.tokens_eq
    simp only [htokens]
    rcases hv : reduce captures ⟨tokens, s.position, s'.position⟩ with _ | value
    · exact ⟨.nodeRejects _ _ _ _ _ h hv, hs'.restore _⟩
    · exact ⟨.nodeReads _ _ _ _ _ _ h hv, hs'⟩

theorem Means.memoized [LawfulBEq ι] (hr : Means g rules tokens levels r ρ) {key : ι}
    (hkey : rules key = ρ) : Means g rules tokens levels (memoized key r) (.memoized key ρ) := by
  intro s hs hnone
  have hremembered {o : Outcome V} (hget : s.remembered? key = some o) :
      g.Evaluates tokens ρ s.position o :=
    hkey ▸ ParseState.Remembers.remembered hs.remembered hget
  rcases memoized_cases key r s with
    ⟨-, hout⟩ | ⟨-, -, hout⟩ | ⟨-, hget, hout⟩ | ⟨captures, stop, -, hget, hout⟩ <;>
    rw [hout] at hnone ⊢
  · obtain ⟨h, hs'⟩ := hr s hs hnone
    exact ⟨.memoized _ _ _ _ h, hs'⟩
  · obtain ⟨h, hs'⟩ := hr s hs hnone
    exact ⟨.memoized _ _ _ _ h, hs'.tokens_eq, hs'.overflow_eq, hs'.depth_add,
      ParseState.Remembers.remember hs'.remembered (hkey ▸ h)⟩
  · exact ⟨.memoized _ _ _ _ (hremembered hget), hs⟩
  · exact ⟨.memoized _ _ _ _ (hremembered hget), hs.restore stop⟩

theorem means_openReference {slot : Nat} (hg : g.target slot = none) :
    Means g rules tokens levels (reference none) (.reference slot) :=
  fun _ hs _ => ⟨.openReference slot _ hg, hs⟩

/-- It is enough to tell what references mean behind which there is something. -/
theorem means_follow {f : Rule ι V → Recognizer ι V}
    (h : ∀ slot ρ, g.target slot = some ρ →
      Means g rules tokens levels (reference (some (f ρ))) (.reference slot)) (slot : Nat) :
    Means g rules tokens levels (reference ((g.target slot).map f)) (.reference slot) := by
  rcases hslot : g.target slot with _ | ρ
  · exact means_openReference hslot
  · exact h slot ρ hslot

/-- At the limit there is no way behind a reference without a refusal. -/
theorem means_reference_zero (r : Recognizer ι V) (slot : Nat) :
    Means g rules tokens 0 (reference (some r)) (.reference slot) := by
  intro s hs hnone
  have hd : nestingLimit ≤ s.depth := Nat.le_of_eq hs.depth_add.symm
  simp [reference, ParseState.enterNested, hs.overflow_eq, if_pos hd] at hnone

theorem Means.reference_succ (hr : Means g rules tokens levels r ρ) {slot : Nat}
    (hslot : g.target slot = some ρ) :
    Means g rules tokens (levels + 1) (reference (some r)) (.reference slot) := by
  intro s hs hnone
  obtain ⟨henter, hs'⟩ := hs.enterNested
  unfold reference at hnone ⊢
  simp only [henter] at hnone ⊢
  obtain ⟨h, hs''⟩ := hr _ hs' hnone
  refine ⟨.reference _ _ _ _ hslot h, hs''.tokens_eq, hs''.overflow_eq, ?_, hs''.remembered⟩
  have hd := hs.depth_add
  have hd' := hs''.depth_add
  simp only [ParseState.exitNested]
  omega

theorem Rounds.truthful {n : Nat} (h : Rounds r n s s') (hr : Means g rules tokens levels r ρ)
    (k : KeepsRefusal r) (hs : s.Truthful g rules tokens levels)
    (hnone : (rounds r n s).2.overflow = none) :
    s'.Truthful g rules tokens levels ∧ (r s').2.overflow = none := by
  induction h with
  | here n s => exact ⟨hs, (rounds_succ_overflow k hnone).1⟩
  | @next n s s' s'' captures h hlt h' ih =>
    obtain ⟨hfirst, hrest⟩ := rounds_succ_overflow k hnone
    obtain ⟨-, hs'⟩ := hr s hs hfirst
    rw [h] at hs'
    exact ih hs' (hrest captures s' h hlt)

end Recognizer

/-! ### Rules of a graph -/

variable [LawfulBEq ι]

open Recognizer

theorem Rule.run_means {target : Nat → Option (Recognizer ι V)}
    (href : ∀ slot, Means g rules tokens levels (Recognizer.reference (target slot))
      (.reference slot)) :
    ∀ rule : Rule ι V, rule.Keyed rules → Means g rules tokens levels (rule.run target) rule
  | kind k, _ => means_kind k
  | verbatim text, _ => means_verbatim text
  | nothing, _ => fun _ hs _ => ⟨.nothing _, hs⟩
  | never, _ => fun _ hs _ => ⟨.never _, hs⟩
  | seq r t, h => (run_means href r h.1).seq (run_means href t h.2) (keepsRefusal target t)
  | choice r t, h => (run_means href r h.1).choice (run_means href t h.2) (keepsRefusal target t)
  | plus r, h => (run_means href r h).plus (keepsRefusal target r)
  | optional r, h => (run_means href r h).optional
  | node r reduce, h => (run_means href r h).node reduce
  | memoized _ r, h => (run_means href r h.2).memoized h.1
  | reference slot, _ => href slot

/-- A rule of a graph that was tried without a refusal came to what it means. -/
theorem RuleGraph.run_means (hg : g.Keyed rules) (levels : Nat) (rule : Rule ι V)
    (hrule : rule.Keyed rules) : Means g rules tokens levels (rule.run (g.follow levels)) rule := by
  induction levels generalizing rule with
  | zero =>
    exact Rule.run_means (means_follow fun slot _ _ => means_reference_zero _ slot) rule hrule
  | succ levels ih =>
    exact Rule.run_means (means_follow fun slot ρ hslot =>
      (ih ρ (hg slot ρ hslot)).reference_succ hslot) rule hrule

/-! ### The trials on the way -/

/-- A trial that is made for such a rule. -/
structure Trial.Unrefused (g : RuleGraph ι V) (rules : ι → Rule ι V) (tokens : Array Token)
    (t : Trial ι V) : Prop where
  keyed : t.rule.Keyed rules
  truthful : t.state.Truthful g rules tokens t.levels
  overflow_eq : (t.run g).2.overflow = none

/-- Where a trial ends without a refusal, the trials that it makes do. -/
theorem RuleGraph.Tries.unrefused {t u : Trial ι V} (h : g.Tries t u) (hg : g.Keyed rules)
    (ht : t.Unrefused g rules tokens) : u.Unrefused g rules tokens := by
  obtain ⟨hk, hs, hnone⟩ := ht
  cases h with
  | seqLeft levels r t s =>
    exact ⟨hk.1, hs, (seq_overflow (Rule.keepsRefusal _ t) hnone).1⟩
  | seqRight levels r t s s' captures h =>
    obtain ⟨hleft, hright⟩ := seq_overflow (Rule.keepsRefusal _ t) hnone
    obtain ⟨-, hs'⟩ := RuleGraph.run_means hg levels r hk.1 s hs hleft
    rw [h] at hs'
    exact ⟨hk.2, hs', hright captures s' h⟩
  | choiceLeft levels r t s =>
    exact ⟨hk.1, hs, (choice_overflow (Rule.keepsRefusal _ t) hnone).1⟩
  | choiceRight levels r t s s' h =>
    obtain ⟨hleft, hright⟩ := choice_overflow (Rule.keepsRefusal _ t) hnone
    obtain ⟨-, hs'⟩ := RuleGraph.run_means hg levels r hk.1 s hs hleft
    rw [h] at hs'
    exact ⟨hk.2, hs'.restore _, hright s' h⟩
  | plusFirst levels r s =>
    exact ⟨hk, hs, (plus_overflow (Rule.keepsRefusal _ r) hnone).1⟩
  | plusAgain levels r s s' s'' captures h h' =>
    have hr : Means g rules tokens levels (r.run (g.follow levels)) r :=
      RuleGraph.run_means hg levels r hk
    obtain ⟨hfirst, hrest⟩ := plus_overflow (Rule.keepsRefusal _ r) hnone
    obtain ⟨-, hs'⟩ := hr s hs hfirst
    rw [h] at hs'
    obtain ⟨hs'', hround⟩ := h'.truthful hr (Rule.keepsRefusal _ r) hs' (hrest captures s' h)
    exact ⟨hk, hs'', hround⟩
  | optional levels r s => exact ⟨hk, hs, optional_overflow.symm.trans hnone⟩
  | node levels r reduce s => exact ⟨hk, hs, (node_overflow reduce).symm.trans hnone⟩
  | memoized levels key r s h =>
    refine ⟨hk.2, hs, ?_⟩
    simp only [Trial.run, Rule.run, Recognizer.memoized] at hnone
    by_cases hm : s.isMemoizing
    · rw [if_pos hm, h hm] at hnone
      exact hnone
    · rw [if_neg hm] at hnone
      exact hnone
  | reference levels slot r s s' h h' =>
    obtain ⟨-, -, rfl⟩ := ParseState.enterNested_eq_true h'
    refine ⟨hg slot r h, hs.enterNested.2, ?_⟩
    simp only [Trial.run, Rule.run, RuleGraph.follow, h, Option.map_some, Recognizer.reference,
      h'] at hnone
    exact hnone

theorem RuleGraph.TriesAmong.unrefused {t u : Trial ι V} (h : g.TriesAmong t u)
    (hg : g.Keyed rules) (ht : t.Unrefused g rules tokens) : u.Unrefused g rules tokens := by
  induction h with
  | refl => exact ht
  | tail _ h ih => exact h.unrefused hg ih

/-- What a trial without a refusal came to is what its rule means, and nothing else is. -/
theorem Trial.Unrefused.evaluates_iff {t : Trial ι V} (h : t.Unrefused g rules tokens)
    (hg : g.Keyed rules) (o : Outcome V) :
    g.Evaluates tokens t.rule t.state.position o ↔ o = outcomeOf (t.run g) := by
  have heval := (RuleGraph.run_means hg t.levels t.rule h.keyed t.state h.truthful h.overflow_eq).1
  exact ⟨fun h' => h'.unique heval, fun h' => h' ▸ heval⟩

/-- If a rule is tried in a fresh state of either kind, at any place, and no refusal is on record at
the end, then it came to just what it means; and so did every rule that was tried on the way. -/
theorem RuleGraph.apply_evaluates (hg : g.Keyed rules) {rule : Rule ι V} (hrule : rule.Keyed rules)
    (strategy : Strategy) (p : Nat)
    (h : (g.apply rule ((strategy.start tokens).restore p)).2.overflow = none) :
    (∀ o, g.Evaluates tokens rule p o ↔
        o = outcomeOf (g.apply rule ((strategy.start tokens).restore p))) ∧
      ∀ u, g.TriesAmong ⟨nestingLimit, rule, (strategy.start tokens).restore p⟩ u →
        ∀ o, g.Evaluates tokens u.rule u.state.position o ↔ o = outcomeOf (u.run g) := by
  have ht : Trial.Unrefused g rules tokens
      ⟨nestingLimit, rule, (strategy.start tokens).restore p⟩ :=
    ⟨hrule, (ParseState.truthful_start strategy tokens).restore p, h⟩
  exact ⟨ht.evaluates_iff hg, fun u hu =>
    (RuleGraph.TriesAmong.unrefused hu hg ht).evaluates_iff hg⟩

theorem groups_keyed : groups.Keyed fun _ => groupForms := by
  intro slot rule h
  simp only [groups, RuleGraph.close, RuleGraph.isOpen] at h
  split at h
  · obtain rfl := Option.some.inj h
    exact ⟨rfl, trivial, ⟨trivial, trivial, trivial, trivial⟩, trivial⟩
  · exact absurd h (by simp)

theorem group_keyed : group.Keyed fun _ => groupForms :=
  ⟨rfl, trivial, ⟨trivial, trivial, trivial, trivial⟩, trivial⟩

/-- The inner group is read, with a table, as it is meant to be. -/
theorem groups_apply_evaluates :
    (groups.apply group ((Strategy.packrat.start openGroup).restore 1)).2.overflow = none ∧
      groups.Evaluates openGroup group 1
        (outcomeOf (groups.apply group ((Strategy.packrat.start openGroup).restore 1))) :=
  have h : (groups.apply group
      ((Strategy.packrat.start openGroup).restore 1)).2.overflow = none := by cbv
  ⟨h, ((RuleGraph.apply_evaluates groups_keyed group_keyed .packrat 1 h).1 _).mpr rfl⟩

end Meaning

end Precedence
