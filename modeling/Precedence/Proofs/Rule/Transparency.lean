import Precedence.Proofs.Rule.Refusal

/-!
# A table of outcomes changes nothing

What trying a rule comes to without a refusal does not depend on how many levels are left
(`RuleGraph.refines`). So where a row of trials without a table meets no refusal, every visit of a
memoized rule on the way has one answer for its key and place, whatever its depth and whichever trial
of the row it belongs to, and a table of earlier outcomes holds just these. What the table skips is
the noting of failures that are on record already. Hence the same row of trials on a state with a
table reports the same at every step (`RuleGraph.reports_memoizing`).
-/

namespace Precedence

namespace Trace

variable {ι α β V : Type}

/-- Where the first is not refused, the second comes to the same, with the same failures, and the
first makes good visits only. -/
def Refines (good : Visit ι → Prop) (t u : Trace ι α) : Prop :=
  ∀ a, t.result = .ok a →
    u.result = .ok a ∧ u.failures = t.failures ∧ ∀ v ∈ t.visits, good v

variable {good : Visit ι → Prop}

theorem refines_pure (a : α) : Refines good (pure a) (pure a) :=
  fun _ ha => ⟨ha, rfl, fun v hv => by simp [pure] at hv⟩

theorem refines_failing (p : Nat) (what : String) :
    Refines good (failing p what : Trace ι (Outcome V)) (failing p what) :=
  fun _ ha => ⟨ha, rfl, fun v hv => by simp [failing] at hv⟩

theorem refines_refused (p : Nat) (u : Trace ι α) : Refines good (refused p) u :=
  fun a ha => absurd ha (by simp [refused])

theorem Refines.bind {t u : Trace ι α} (h : Refines good t u) {k k' : α → Trace ι β}
    (hk : ∀ a, Refines good (k a) (k' a)) : Refines good (t.bind k) (u.bind k') := by
  intro b hb
  rcases ht : t.result with i | a
  · rw [bind_error ht] at hb
    exact absurd hb (by simp)
  · rw [bind_ok ht] at hb
    obtain ⟨hu, hfailures, hvisits⟩ := h a ht
    obtain ⟨hu', hfailures', hvisits'⟩ := hk a b hb
    rw [bind_ok ht, bind_ok hu]
    refine ⟨hu', by rw [hfailures, hfailures'], fun v hv => ?_⟩
    exact (List.mem_append.mp hv).elim (hvisits v) (hvisits' v)

theorem Refines.andThen {t u : Trace ι (Outcome V)} (h : Refines good t u)
    {k k' : List V → Nat → Trace ι (Outcome V)} (hk : ∀ c m, Refines good (k c m) (k' c m)) :
    Refines good (t.andThen k) (u.andThen k') :=
  h.bind fun
    | none => refines_pure _
    | some (c, m) => hk c m

theorem Refines.orElse {t u t' u' : Trace ι (Outcome V)} (h : Refines good t u)
    (h' : Refines good t' u') : Refines good (t.orElse t') (u.orElse u') :=
  h.bind fun
    | none => h'
    | some _ => refines_pure _

theorem Refines.rounds {a b : Attempt ι V} (h : ∀ p, Refines good (a p) (b p)) :
    ∀ n p, Refines good (Attempt.rounds a n p) (Attempt.rounds b n p)
  | 0, _ => refines_pure _
  | n + 1, p => (h p).bind fun
    | none => refines_pure _
    | some (c, m) => by
      by_cases hpm : p < m
      · simp only [if_pos hpm]
        exact (Refines.rounds h n m).bind fun _ => refines_pure _
      · simp only [if_neg hpm]
        exact refines_pure _

end Trace

open Trace

theorem Attempt.refines_expecting {ι V : Type} {good : Visit ι → Prop} (tokens : Array Token)
    (what : String) (wanted : Token → Bool) (capture : Token → List V) (p : Nat) :
    Refines good (expecting tokens what wanted capture p : Trace ι (Outcome V))
      (expecting tokens what wanted capture p) := by
  unfold expecting
  rcases tokens[p]? with _ | token
  · exact refines_failing p what
  · by_cases hw : wanted token
    · simp only [if_pos hw]
      exact refines_pure _
    · simp only [if_neg hw]
      exact refines_failing p what

section Levels

variable {ι V : Type} [Capture V]

/-- Such a visit comes to the same if more levels are left for it. -/
def RuleGraph.Settled (g : RuleGraph ι V) (rules : ι → Rule ι V) (tokens : Array Token)
    (most : Nat) (v : Visit ι) : Prop :=
  v.levels ≤ most ∧ ∀ more, v.levels ≤ more →
    (g.trace tokens more (rules v.key) v.position).result =
        (g.trace tokens v.levels (rules v.key) v.position).result ∧
      (g.trace tokens more (rules v.key) v.position).failures =
        (g.trace tokens v.levels (rules v.key) v.position).failures

variable {g : RuleGraph ι V} {rules : ι → Rule ι V} {tokens : Array Token} {most levels : Nat}

theorem Rule.refines (hmost : levels ≤ most)
    (href : ∀ more, levels ≤ more → ∀ slot p, Refines (g.Settled rules tokens most)
      (Attempt.reference (g.traceBehind tokens levels slot) p)
      (Attempt.reference (g.traceBehind tokens more slot) p)) :
    ∀ rule : Rule ι V, rule.Keyed rules → ∀ more, levels ≤ more → ∀ p,
      Refines (g.Settled rules tokens most) (g.trace tokens levels rule p)
        (g.trace tokens more rule p)
  | kind _, _, _, _, p => Attempt.refines_expecting _ _ _ _ p
  | verbatim _, _, _, _, p => Attempt.refines_expecting _ _ _ _ p
  | nothing, _, _, _, _ => refines_pure _
  | never, _, _, _, _ => refines_pure _
  | seq r t, hk, n, hn, p => (refines hmost href r hk.1 n hn p).andThen fun _ m =>
    (refines hmost href t hk.2 n hn m).bind fun _ => refines_pure _
  | choice r t, hk, n, hn, p =>
    (refines hmost href r hk.1 n hn p).orElse (refines hmost href t hk.2 n hn p)
  | plus r, hk, n, hn, p => (refines hmost href r hk n hn p).andThen fun _ m =>
    (Refines.rounds (refines hmost href r hk n hn) _ m).bind fun _ => refines_pure _
  | optional r, hk, n, hn, p => (refines hmost href r hk n hn p).orElse (refines_pure _)
  | node r _, hk, n, hn, p => (refines hmost href r hk n hn p).andThen fun _ _ => refines_pure _
  | memoized key r, hk, n, hn, p => by
    intro a ha
    obtain ⟨hresult, hfailures, hvisits⟩ := refines hmost href r hk.2 n hn p a ha
    refine ⟨hresult, hfailures, fun v hv => ?_⟩
    rcases List.mem_cons.mp hv with rfl | hv
    · refine ⟨hmost, fun more hmore => ?_⟩
      obtain ⟨hresult', hfailures', -⟩ := refines hmost href r hk.2 more hmore p a ha
      simp only [hk.1]
      exact ⟨hresult'.trans ha.symm, hfailures'⟩
    · exact hvisits v hv
  | reference slot, _, n, hn, p => href n hn slot p

/-- More levels change nothing where those that are left are enough. -/
theorem RuleGraph.refines (hg : g.Keyed rules) :
    ∀ (levels : Nat), levels ≤ most → ∀ rule : Rule ι V, rule.Keyed rules → ∀ more,
      levels ≤ more → ∀ p, Refines (g.Settled rules tokens most) (g.trace tokens levels rule p)
        (g.trace tokens more rule p)
  | 0, hmost => Rule.refines hmost fun more _ slot p => by
    rcases hslot : g.target slot with _ | rule
    · have hopen : ∀ n, g.traceBehind tokens n slot = none := by
        rintro (_ | n) <;> simp [traceBehind, hslot]
      rw [hopen, hopen]
      exact refines_pure _
    · simp only [traceBehind, hslot, Option.map_some, Attempt.reference]
      exact refines_refused p _
  | levels + 1, hmost => Rule.refines hmost fun more hmore slot p => by
    obtain ⟨more, rfl⟩ : ∃ n, more = n + 1 := ⟨more - 1, by omega⟩
    rcases hslot : g.target slot with _ | rule
    · simp only [traceBehind, hslot, Option.map_none]
      exact refines_pure _
    · simp only [traceBehind, hslot, Option.map_some]
      exact RuleGraph.refines hg levels (by omega) rule (hg slot rule hslot) more (by omega) p

end Levels

section Reports

variable {ι V : Type} [BEq ι] [Hashable ι] [Capture V]

/-- What can be seen of a state after a rule was tried in it. -/
structure Report (V : Type) where
  result : Option (List V)
  position : Nat
  furthest : Nat
  expected : List String
  overflow : Option Nat

def Report.of (out : Option (List V) × ParseState ι V) : Report V :=
  ⟨out.1, out.2.position, out.2.furthest, out.2.expected, out.2.overflow⟩

/-- Rules are tried one after the other, each at its place, and all on one state. -/
def RuleGraph.reports (g : RuleGraph ι V) : List (Rule ι V × Nat) → ParseState ι V → List (Report V)
  | [], _ => []
  | (rule, p) :: steps, s =>
    let out := g.apply rule (s.restore p)
    .of out :: g.reports steps out.2

variable [LawfulBEq ι] {g : RuleGraph ι V} {rules : ι → Rule ι V} {tokens : Array Token}
  {s s' : ParseState ι V}

/-- The answers for each key and place: what its rule comes to with all levels left. -/
def RuleGraph.answer (g : RuleGraph ι V) (rules : ι → Rule ι V) (tokens : Array Token) (key : ι) :
    Attempt ι V :=
  g.trace tokens nestingLimit (rules key)

theorem RuleGraph.apply_follows (hg : g.Keyed rules) {rule : Rule ι V} (hrule : rule.Keyed rules) :
    Recognizer.Follows (g.answer rules tokens) tokens nestingLimit
      (g.Settled rules tokens nestingLimit) (g.apply rule)
      (g.trace tokens nestingLimit rule) :=
  g.run_follows hg (fun _ hv => hv.2 nestingLimit hv.1) nestingLimit rule hrule

/-- If a trial meets no refusal without a table, it arrives where its trace says, with a table and
without one. -/
theorem RuleGraph.arrives_of_overflow (hg : g.Keyed rules) {rule : Rule ι V}
    (hrule : rule.Keyed rules) (hs : s.Ready (g.answer rules tokens) tokens nestingLimit)
    (hs' : s'.Ready (g.answer rules tokens) tokens nestingLimit) (hmemo : s.isMemoizing = false)
    (hposition : s'.position = s.position) (h : (g.apply rule s).2.overflow = none) :
    ∃ o, Recognizer.Arrives (g.answer rules tokens) s o
        (g.trace tokens nestingLimit rule s.position).failures (g.apply rule s) ∧
      Recognizer.Arrives (g.answer rules tokens) s' o
        (g.trace tokens nestingLimit rule s.position).failures (g.apply rule s') := by
  have hagrees := apply_follows hg hrule s hs fun hm => absurd hm (by simp [hmemo])
  rcases ht : (g.trace tokens nestingLimit rule s.position).result with i | o
  · exact absurd ((hagrees.refused i ht).1.symm.trans h) (by simp)
  · obtain ⟨-, -, hvisits⟩ := RuleGraph.refines hg nestingLimit (Nat.le_refl nestingLimit) rule
      hrule nestingLimit (Nat.le_refl _) s.position o ht
    have hagrees' := apply_follows hg hrule s' hs' fun _ => hposition ▸ hvisits
    rw [hposition] at hagrees'
    exact ⟨o, hagrees.arrives o ht, hagrees'.arrives o ht⟩

theorem RuleGraph.reports_eq (hg : g.Keyed rules) : ∀ (steps : List (Rule ι V × Nat))
    (s s' : ParseState ι V), (∀ step ∈ steps, step.1.Keyed rules) →
    s.Ready (g.answer rules tokens) tokens nestingLimit →
    s'.Ready (g.answer rules tokens) tokens nestingLimit →
    s.isMemoizing = false → s'.record = s.record →
    (∀ report ∈ g.reports steps s, report.overflow = none) →
      g.reports steps s' = g.reports steps s
  | [], _, _, _, _, _, _, _, _ => rfl
  | (rule, p) :: steps, s, s', hsteps, hs, hs', hmemo, hrecord, h => by
    obtain ⟨o, harrives, harrives'⟩ := arrives_of_overflow hg (hsteps _ List.mem_cons_self)
      (hs.restore p) (hs'.restore p) hmemo rfl (h _ List.mem_cons_self)
    have hout := harrives.ready (hs.restore p)
    have hout' := harrives'.ready (hs'.restore p)
    have hrecord' : (g.apply rule (s'.restore p)).2.record =
        (g.apply rule (s.restore p)).2.record := by
      rw [harrives.state_eq, harrives'.state_eq]
      exact congrArg (FailureRecord.noteAll · _) hrecord
    have hrest := RuleGraph.reports_eq hg steps _ _
      (fun step hstep => hsteps step (List.mem_cons_of_mem _ hstep)) hout hout'
      (harrives.isMemoizing_eq.trans hmemo) hrecord'
      fun report hreport => h report (List.mem_cons_of_mem _ hreport)
    have hreport : Report.of (g.apply rule (s'.restore p)) =
        Report.of (g.apply rule (s.restore p)) := by
      obtain ⟨hfurthest, hexpected⟩ := FailureRecord.mk.inj hrecord'
      unfold Report.of
      rw [harrives.result_eq, harrives'.result_eq, harrives.position_eq, harrives'.position_eq,
        hfurthest, hexpected, hout.overflow_eq, hout'.overflow_eq]
      rfl
    exact congrArg₂ List.cons hreport hrest

/-- If a row of trials on a state without a table reports no refusal, the same row on a state with a
table reports the same at every step. -/
theorem RuleGraph.reports_memoizing (hg : g.Keyed rules) {steps : List (Rule ι V × Nat)}
    (hsteps : ∀ step ∈ steps, step.1.Keyed rules) (tokens : Array Token)
    (h : ∀ report ∈ g.reports steps (.ofTokens tokens), report.overflow = none) :
    g.reports steps (.memoizing tokens) = g.reports steps (.ofTokens tokens) :=
  reports_eq hg steps (.ofTokens tokens) (.memoizing tokens) hsteps
    (ParseState.start_ready _ tokens .backtracking) (ParseState.start_ready _ tokens .packrat)
    rfl rfl h

/-- The outer group, which is not closed, and then the inner one twice. -/
def groupSteps : List (Rule Nat Grammar.Part × Nat) := [(group, 0), (group, 1), (group, 1)]

theorem groups_reports_memoizing :
    (∀ report ∈ groups.reports groupSteps (.ofTokens openGroup), report.overflow = none) ∧
      groups.reports groupSteps (.memoizing openGroup) =
        groups.reports groupSteps (.ofTokens openGroup) :=
  have hsteps : ∀ step ∈ groupSteps, step.1.Keyed fun _ => groupForms := by
    simp [groupSteps, group_keyed]
  have h : ∀ report ∈ groups.reports groupSteps (.ofTokens openGroup), report.overflow = none := by
    decide
  ⟨h, RuleGraph.reports_memoizing groups_keyed hsteps openGroup h⟩

end Reports

end Precedence
