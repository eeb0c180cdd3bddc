import Precedence.Proofs.Rule.Run
import Precedence.Proofs.Rule.Trial

/-!
# What trying a rule keeps

A rule that fails leaves the cursor where it was; a rule that succeeds leaves it between its start
and the end of the tokens. Either way the depth is restored, a refusal stays on record, and the
furthest failure is only added to (`Recognizer.Contract`). Every way to build a rule hands that on
(`Honors.seq` and so on), so that it holds of all rules of all graphs, in every state that trials and
moves of the cursor lead to (`RuleGraph.keeps_contract`). What a table remembers must lie ahead of the
cursor for this, which is why the invariant of states speaks of the table (`ParseState.Placed`).
-/

namespace Precedence

namespace FailureRecord

/-- The second record has what the first has, or is of a place further on. -/
structure Extends (r r' : FailureRecord) : Prop where
  furthest_le : r.furthest ≤ r'.furthest
  expected_prefix : r'.furthest = r.furthest → r.expected <+: r'.expected

variable {r r' r'' : FailureRecord}

theorem Extends.refl (r : FailureRecord) : Extends r r := ⟨Nat.le_refl _, fun _ => List.prefix_rfl⟩

theorem Extends.trans (h : Extends r r') (h' : Extends r' r'') : Extends r r'' := by
  refine ⟨Nat.le_trans h.furthest_le h'.furthest_le, fun he => ?_⟩
  have h₁ := h.furthest_le
  have h₂ := h'.furthest_le
  exact (h.expected_prefix (by omega)).trans (h'.expected_prefix (by omega))

theorem extends_note (r : FailureRecord) (f : Nat × String) : r.Extends (r.note f) := by
  unfold note
  split_ifs with h h'
  · refine ⟨Nat.le_of_lt h, fun he => ?_⟩
    simp only at he
    omega
  · exact ⟨Nat.le_refl _, fun _ => List.prefix_append _ _⟩
  · exact .refl r

end FailureRecord

variable {ι V : Type} [BEq ι] [Hashable ι]

namespace ParseState

/-- Nothing of the first state is lost in the second, wherever its cursor stands. -/
structure Precedes (s s' : ParseState ι V) : Prop where
  tokens_eq : s'.tokens = s.tokens
  depth_eq : s'.depth = s.depth
  overflow_eq : ∀ i, s.overflow = some i → s'.overflow = some i
  record_extends : s.record.Extends s'.record

/-- The cursor stands among the tokens or behind them, and whatever is remembered lies ahead of the
place where it was found. -/
structure Placed (s : ParseState ι V) : Prop where
  position_le : s.position ≤ s.tokens.size
  remembered_le : ∀ table, s.memo = some table → ∀ (key : ι) (p : Nat) (captures : List V)
    (stop : Nat), table[(key, p)]? = some (some (captures, stop)) →
      p ≤ stop ∧ stop ≤ s.tokens.size

variable {s s' s'' : ParseState ι V}

theorem Precedes.refl (s : ParseState ι V) : Precedes s s := ⟨rfl, rfl, fun _ h => h, .refl _⟩

theorem Precedes.trans (h : Precedes s s') (h' : Precedes s' s'') : Precedes s s'' :=
  ⟨h'.tokens_eq.trans h.tokens_eq, h'.depth_eq.trans h.depth_eq,
    fun i hi => h'.overflow_eq i (h.overflow_eq i hi), h.record_extends.trans h'.record_extends⟩

theorem Precedes.restore (h : Precedes s s') (p : Nat) : Precedes s (s'.restore p) :=
  ⟨h.tokens_eq, h.depth_eq, h.overflow_eq, h.record_extends⟩

theorem precedes_recordFailure (s : ParseState ι V) (what : String) :
    Precedes s (s.recordFailure what) := by
  rw [recordFailure_eq]
  exact ⟨rfl, rfl, fun _ h => h, FailureRecord.extends_note _ _⟩

theorem Placed.restore (h : Placed s) {p : Nat} (hp : p ≤ s.tokens.size) : Placed (s.restore p) :=
  ⟨hp, h.remembered_le⟩

theorem Placed.recordFailure (h : Placed s) (what : String) : Placed (s.recordFailure what) := by
  rw [recordFailure_eq]
  exact ⟨h.position_le, h.remembered_le⟩

theorem placed_start (strategy : Strategy) (tokens : Array Token) :
    (strategy.start tokens : ParseState ι V).Placed := by
  refine ⟨?_, remembers_read_iff.mp (remembers_start strategy tokens)⟩
  cases strategy <;> exact Nat.zero_le _

theorem Placed.remember [LawfulBEq ι] (h : Placed s') {key : ι} {p : Nat} {o : Outcome V}
    (ho : ∀ captures stop, o = some (captures, stop) → p ≤ stop ∧ stop ≤ s'.tokens.size) :
    Placed (s'.remember key p o) :=
  ⟨h.position_le, remembers_read_iff.mp ((remembers_read_iff.mpr h.remembered_le).remember ho)⟩

theorem Placed.remembered (h : Placed s) {key : ι} {captures : List V} {stop : Nat}
    (hget : s.remembered? key = some (some (captures, stop))) :
    s.position ≤ stop ∧ stop ≤ s.tokens.size :=
  (remembers_read_iff.mpr h.remembered_le).remembered hget captures stop rfl

end ParseState

open ParseState

namespace Recognizer

/-- What trying something in a state must come to. -/
structure Contract (s : ParseState ι V) (out : Option (List V) × ParseState ι V) : Prop
    extends s.Precedes out.2 where
  fails : out.1 = none → out.2.position = s.position
  reads : ∀ captures, out.1 = some captures →
    s.position ≤ out.2.position ∧ out.2.position ≤ s.tokens.size

/-- The contract is kept, and states stay as the contract needs them. -/
def Honors (r : Recognizer ι V) : Prop :=
  ∀ s, s.Placed → Contract s (r s) ∧ (r s).2.Placed

section Honors

variable {s s' : ParseState ι V} {captures : List V} {r t : Recognizer ι V}

theorem contract_failed (h : s.Precedes s') (hp : s'.position = s.position) :
    Contract s (none, s') :=
  ⟨h, fun _ => hp, fun _ h => absurd h (by simp)⟩

theorem contract_read (h : s.Precedes s') (hle : s.position ≤ s'.position)
    (hsize : s'.position ≤ s.tokens.size) (captures : List V) : Contract s (some captures, s') :=
  ⟨h, fun h => absurd h (by simp), fun _ _ => ⟨hle, hsize⟩⟩

/-- The cursor is put back to where it was in the state before. -/
theorem placed_back (hs : s.Placed) (h : s.Precedes s') (h' : s'.Placed) :
    (s'.restore s.position).Placed :=
  h'.restore (h.tokens_eq ▸ hs.position_le)

theorem honors_expecting (what : String) (wanted : Token → Bool) (capture : Token → List V) :
    Honors (expecting what wanted capture : Recognizer ι V) := by
  intro s hs
  rcases expecting_cases what wanted capture s with ⟨token, ht, -, hout⟩ | ⟨-, hout⟩ <;> rw [hout]
  · have hlt := (Array.getElem?_eq_some_iff.mp ht).1
    exact ⟨contract_read ((Precedes.refl s).restore _) (Nat.le_succ _) hlt _, hs.restore hlt⟩
  · refine ⟨contract_failed (precedes_recordFailure s what) ?_, hs.recordFailure what⟩
    rw [recordFailure_eq]
    rfl

theorem Honors.seq (hr : Honors r) (ht : Honors t) : Honors (seq r t) := by
  intro s hs
  obtain ⟨h, hs'⟩ := hr s hs
  unfold Recognizer.seq
  generalize r s = out at h hs' ⊢
  rcases out with ⟨_ | captures, s'⟩
  · exact ⟨contract_failed (h.toPrecedes.restore _) rfl, placed_back hs h.toPrecedes hs'⟩
  · obtain ⟨h', hs''⟩ := ht s' hs'
    obtain ⟨hle, -⟩ := h.reads captures rfl
    have hsize := h.tokens_eq
    simp only
    generalize t s' = out at h' hs'' ⊢
    have hkeeps := h.toPrecedes.trans h'.toPrecedes
    rcases out with ⟨_ | more, s''⟩
    · exact ⟨contract_failed (hkeeps.restore _) rfl, placed_back hs hkeeps hs''⟩
    · obtain ⟨hle', hsize'⟩ := h'.reads more rfl
      exact ⟨contract_read hkeeps (Nat.le_trans hle hle') (hsize ▸ hsize') _, hs''⟩

theorem Honors.choice (hr : Honors r) (ht : Honors t) : Honors (choice r t) := by
  intro s hs
  obtain ⟨h, hs'⟩ := hr s hs
  unfold Recognizer.choice
  generalize r s = out at h hs' ⊢
  rcases out with ⟨_ | captures, s'⟩
  · have hback := placed_back hs h.toPrecedes hs'
    obtain ⟨h', hs''⟩ := ht (s'.restore s.position) hback
    have hsize := h.tokens_eq
    simp only
    generalize t (s'.restore s.position) = out at h' hs'' ⊢
    have hkeeps := (h.toPrecedes.restore s.position).trans h'.toPrecedes
    rcases out with ⟨_ | more, s''⟩
    · exact ⟨contract_failed (hkeeps.restore _) rfl, placed_back hs hkeeps hs''⟩
    · obtain ⟨hle, hsize'⟩ := h'.reads more rfl
      exact ⟨contract_read hkeeps hle (hsize ▸ hsize') _, hs''⟩
  · exact ⟨h, hs'⟩

/-- Every round is tried in a state behind the first one, and so is what comes after the last. -/
theorem Honors.rounds (hr : Honors r) : ∀ (n : Nat) (s : ParseState ι V), s.Placed →
    Contract s (some (rounds r n s).1, (rounds r n s).2) ∧ (rounds r n s).2.Placed
  | 0, s, hs => ⟨contract_read (.refl s) (Nat.le_refl _) hs.position_le _, hs⟩
  | n + 1, s, hs => by
    obtain ⟨h, hs'⟩ := hr s hs
    have hstop : Contract s (some ([] : List V), (r s).2.restore s.position) :=
      contract_read (h.toPrecedes.restore _) (Nat.le_refl _) hs.position_le _
    have hback := placed_back hs h.toPrecedes hs'
    unfold Recognizer.rounds
    generalize r s = out at h hs' hstop hback ⊢
    rcases out with ⟨_ | captures, s'⟩
    · exact ⟨hstop, hback⟩
    · simp only
      by_cases hp : s.position < s'.position
      · rw [if_pos hp]
        obtain ⟨h', hs''⟩ := Honors.rounds hr n s' hs'
        obtain ⟨hle, hsize⟩ := h'.reads _ rfl
        exact ⟨contract_read (h.toPrecedes.trans h'.toPrecedes)
          (Nat.le_trans (Nat.le_of_lt hp) hle) (h.tokens_eq ▸ hsize) _, hs''⟩
      · rw [if_neg hp]
        exact ⟨hstop, hback⟩

theorem Honors.plus (hr : Honors r) : Honors (plus r) := by
  intro s hs
  obtain ⟨h, hs'⟩ := hr s hs
  unfold Recognizer.plus
  generalize r s = out at h hs' ⊢
  rcases out with ⟨_ | captures, s'⟩
  · exact ⟨h, hs'⟩
  · obtain ⟨h', hs''⟩ := hr.rounds (s'.tokens.size - s'.position + 1) s' hs'
    obtain ⟨hle, -⟩ := h.reads captures rfl
    obtain ⟨hle', hsize⟩ := h'.reads _ rfl
    exact ⟨contract_read (h.toPrecedes.trans h'.toPrecedes) (Nat.le_trans hle hle')
      (h.tokens_eq ▸ hsize) _, hs''⟩

theorem Honors.optional (hr : Honors r) : Honors (optional r) := by
  intro s hs
  obtain ⟨h, hs'⟩ := hr s hs
  unfold Recognizer.optional
  generalize r s = out at h hs' ⊢
  rcases out with ⟨_ | captures, s'⟩
  · exact ⟨contract_read (h.toPrecedes.restore _) (Nat.le_refl _) hs.position_le _,
      placed_back hs h.toPrecedes hs'⟩
  · exact ⟨h, hs'⟩

theorem Honors.node (hr : Honors r) (reduce : Reducer V) : Honors (node r reduce) := by
  intro s hs
  obtain ⟨h, hs'⟩ := hr s hs
  unfold Recognizer.node
  generalize r s = out at h hs' ⊢
  rcases out with ⟨_ | captures, s'⟩
  · exact ⟨h, hs'⟩
  · simp only
    rcases reduce captures ⟨s'.tokens, s.position, s'.position⟩ with _ | value
    · exact ⟨contract_failed (h.toPrecedes.restore _) rfl, placed_back hs h.toPrecedes hs'⟩
    · obtain ⟨hle, hsize⟩ := h.reads captures rfl
      exact ⟨contract_read h.toPrecedes hle hsize _, hs'⟩

theorem Honors.memoized [LawfulBEq ι] (hr : Honors r) (key : ι) : Honors (memoized key r) := by
  intro s hs
  obtain ⟨h, hs'⟩ := hr s hs
  rcases memoized_cases key r s with
    ⟨-, hout⟩ | ⟨-, -, hout⟩ | ⟨-, -, hout⟩ | ⟨captures, stop, -, hget, hout⟩ <;> rw [hout]
  · exact ⟨h, hs'⟩
  · refine ⟨⟨⟨h.tokens_eq, h.depth_eq, h.overflow_eq, h.record_extends⟩, h.fails, h.reads⟩,
      hs'.remember fun captures stop ho => ?_⟩
    obtain ⟨c, hc, hstop⟩ := Option.map_eq_some_iff.mp ho
    obtain ⟨-, rfl⟩ := Prod.mk.injEq .. ▸ hstop
    rw [h.tokens_eq]
    exact h.reads c hc
  · exact ⟨contract_failed (.refl s) rfl, hs⟩
  · -- The jump is to a place that the table has under this very place.
    obtain ⟨hle, hsize⟩ := hs.remembered hget
    exact ⟨contract_read ((Precedes.refl s).restore _) hle hsize _, hs.restore hsize⟩

theorem honors_reference {target : Option (Recognizer ι V)}
    (h : ∀ r, target = some r → Honors r) : Honors (reference target) := by
  intro s hs
  unfold reference
  rcases target with _ | r
  · exact ⟨contract_failed (.refl s) rfl, hs⟩
  · unfold enterNested
    simp only
    split_ifs with ho hd
    · exact ⟨contract_failed (.refl s) rfl, hs⟩
    · refine ⟨contract_failed ⟨rfl, rfl, fun i hi => ?_, .refl _⟩ rfl,
        hs.position_le, hs.remembered_le⟩
      rw [hi] at ho
      exact absurd rfl ho
    · obtain ⟨h', hs'⟩ := h r rfl { s with depth := s.depth + 1 }
        ⟨hs.position_le, hs.remembered_le⟩
      have hdepth : (r { s with depth := s.depth + 1 }).2.depth - 1 = s.depth := by
        rw [h'.depth_eq]
        rfl
      exact ⟨⟨⟨h'.tokens_eq, hdepth, h'.overflow_eq, h'.record_extends⟩, h'.fails, h'.reads⟩,
        hs'.position_le, hs'.remembered_le⟩

theorem Rounds.placed {n : Nat} (h : Rounds r n s s') (hr : Honors r) (hs : s.Placed) :
    s'.Placed ∧ s'.tokens = s.tokens := by
  induction h with
  | here n s => exact ⟨hs, rfl⟩
  | @next n s s' s'' captures h hlt h' ih =>
    obtain ⟨hc, hs'⟩ := hr s hs
    rw [h] at hc hs'
    obtain ⟨hs'', htokens⟩ := ih hs'
    exact ⟨hs'', htokens.trans hc.tokens_eq⟩

end Honors

end Recognizer

open Recognizer

section Rules

variable [Capture V] [LawfulBEq ι]

theorem Rule.honors {target : Nat → Option (Recognizer ι V)}
    (ht : ∀ slot r, target slot = some r → Honors r) :
    ∀ rule : Rule ι V, Honors (rule.run target)
  | kind _ => honors_expecting _ _ _
  | verbatim _ => honors_expecting _ _ _
  | nothing => fun s hs => ⟨contract_read (.refl s) (Nat.le_refl _) hs.position_le _, hs⟩
  | never => fun s hs => ⟨contract_failed (.refl s) rfl, hs⟩
  | seq r t => (honors ht r).seq (honors ht t)
  | choice r t => (honors ht r).choice (honors ht t)
  | plus r => (honors ht r).plus
  | optional r => (honors ht r).optional
  | node r reduce => (honors ht r).node reduce
  | memoized key r => (honors ht r).memoized key
  | reference slot => honors_reference (ht slot)

theorem RuleGraph.honors (g : RuleGraph ι V) (levels : Nat) (rule : Rule ι V) :
    Honors (rule.run (g.follow levels)) := by
  induction levels generalizing rule with
  | zero =>
    refine Rule.honors (fun slot r hr => ?_) rule
    obtain ⟨_, -, rfl⟩ := Option.map_eq_some_iff.mp hr
    exact fun s hs => ⟨contract_failed (.refl s) rfl, hs⟩
  | succ levels ih =>
    refine Rule.honors (fun slot r hr => ?_) rule
    obtain ⟨rule, -, rfl⟩ := Option.map_eq_some_iff.mp hr
    exact ih rule

/-! ### The trials in the course of a trial -/

variable {g : RuleGraph ι V} {t u : Trial ι V}

/-- Trials are made in states that the contract can be relied on. -/
theorem RuleGraph.Tries.placed (h : g.Tries t u) (hs : t.state.Placed) :
    u.state.Placed ∧ u.state.tokens = t.state.tokens := by
  cases h with
  | seqLeft levels r t s => exact ⟨hs, rfl⟩
  | seqRight levels r t s s' captures h =>
    obtain ⟨hc, hs'⟩ := g.honors levels r s hs
    rw [h] at hc hs'
    exact ⟨hs', hc.tokens_eq⟩
  | choiceLeft levels r t s => exact ⟨hs, rfl⟩
  | choiceRight levels r t s s' h =>
    obtain ⟨hc, hs'⟩ := g.honors levels r s hs
    rw [h] at hc hs'
    exact ⟨placed_back hs hc.toPrecedes hs', hc.tokens_eq⟩
  | plusFirst levels r s => exact ⟨hs, rfl⟩
  | plusAgain levels r s s' s'' captures h h' =>
    obtain ⟨hc, hs'⟩ := g.honors levels r s hs
    rw [h] at hc hs'
    obtain ⟨hs'', htokens⟩ := h'.placed (g.honors levels r) hs'
    exact ⟨hs'', htokens.trans hc.tokens_eq⟩
  | optional levels r s => exact ⟨hs, rfl⟩
  | node levels r reduce s => exact ⟨hs, rfl⟩
  | memoized levels key r s h => exact ⟨hs, rfl⟩
  | reference levels slot r s s' h h' =>
    obtain ⟨-, -, rfl⟩ := enterNested_eq_true h'
    exact ⟨⟨hs.position_le, hs.remembered_le⟩, rfl⟩

theorem RuleGraph.TriesAmong.placed (h : g.TriesAmong t u) (hs : t.state.Placed) :
    u.state.Placed ∧ u.state.tokens = t.state.tokens := by
  induction h with
  | refl => exact ⟨hs, rfl⟩
  | tail _ h ih =>
    obtain ⟨hs', htokens⟩ := h.placed ih.1
    exact ⟨hs', htokens.trans ih.2⟩

/-- Reducers are handed stretches of the tokens. -/
theorem RuleGraph.Hands.within {stretch : Stretch} (h : g.Hands t stretch) (hs : t.state.Placed) :
    stretch.tokens = t.state.tokens ∧ stretch.start ≤ stretch.stop ∧
      stretch.stop ≤ t.state.tokens.size := by
  obtain ⟨levels, r, reduce, s, captures, s', hamong, hrun, rfl⟩ := h
  obtain ⟨hs', htokens⟩ := RuleGraph.TriesAmong.placed hamong hs
  obtain ⟨hc, -⟩ := g.honors levels r s hs'
  rw [hrun] at hc
  obtain ⟨hle, hsize⟩ := hc.reads captures rfl
  exact ⟨hc.tokens_eq.trans htokens, hle, htokens ▸ hsize⟩

/-! ### States that trials lead to -/

/-- A state that a fresh one is turned into by trying rules and by moving the cursor among the
tokens. -/
inductive ParseState.Reachable (tokens : Array Token) : ParseState ι V → Prop
  | fresh (strategy : Strategy) : Reachable tokens (strategy.start tokens)
  | tried {s : ParseState ι V} (h : Reachable tokens s) (g : RuleGraph ι V) (rule : Rule ι V) :
    Reachable tokens (g.apply rule s).2
  | restored {s : ParseState ι V} (h : Reachable tokens s) {p : Nat} (hp : p ≤ tokens.size) :
    Reachable tokens (s.restore p)

theorem ParseState.Reachable.placed {tokens : Array Token} {s : ParseState ι V}
    (h : Reachable tokens s) : s.Placed ∧ s.tokens = tokens := by
  induction h with
  | fresh strategy => exact ⟨placed_start strategy tokens, by rcases strategy with _ | _ <;> rfl⟩
  | tried _ g rule ih =>
    obtain ⟨hc, hs'⟩ := g.honors nestingLimit rule _ ih.1
    exact ⟨hs', hc.tokens_eq.trans ih.2⟩
  | restored _ hp ih => exact ⟨ih.1.restore (ih.2 ▸ hp), ih.2⟩

variable {tokens : Array Token} {s : ParseState ι V}

/-- Whatever rule of whatever graph is tried in a state that trials lead to, the contract is kept,
and each reducer that is asked on the way is handed a stretch of the tokens. -/
theorem RuleGraph.keeps_contract (h : s.Reachable tokens) (g : RuleGraph ι V) (rule : Rule ι V) :
    Contract s (g.apply rule s) ∧ ∀ stretch, g.Hands ⟨nestingLimit, rule, s⟩ stretch →
      stretch.tokens = tokens ∧ stretch.start ≤ stretch.stop ∧ stretch.stop ≤ tokens.size := by
  obtain ⟨hs, rfl⟩ := h.placed
  exact ⟨(g.honors nestingLimit rule s hs).1, fun stretch hstretch => hstretch.within hs⟩

/-- After a group was tried where it is not closed, the one in it can be tried from its place. -/
theorem groups_keep_contract :
    ParseState.Reachable openGroup
        ((groups.apply group (Strategy.packrat.start openGroup)).2.restore 1) ∧
      Contract ((groups.apply group (Strategy.packrat.start openGroup)).2.restore 1)
        (groups.apply group
          ((groups.apply group (Strategy.packrat.start openGroup)).2.restore 1)) :=
  have h : ParseState.Reachable openGroup
      ((groups.apply group (Strategy.packrat.start openGroup)).2.restore 1) :=
    .restored (.tried (.fresh .packrat) groups group) (by decide)
  ⟨h, (RuleGraph.keeps_contract h groups group).1⟩

end Rules

end Precedence
