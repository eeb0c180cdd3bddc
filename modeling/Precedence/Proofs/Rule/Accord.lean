import Precedence.Proofs.Rule.Anticipation
import Precedence.Proofs.Rule.Run

/-!
# Attempts that come to the same

Two attempts accord if they come to the same at each place, and the furthest failures beyond the
place where it goes on from there are as far on (`Attempt.Accords`). What one of them notes and the
other does not lies no further on than that place, so that the failures noted later hide it. This is
kept by all the ways to build rules, provided that the second part of a sequence tells where it
fails (`Attempt.AccordsLoudly`). It is kept too when an attempt is put into a node with something
behind it that is never there (`Attempt.AccordsLoudly.padded`).
-/

namespace Precedence

namespace Trace

variable {ι α β γ V : Type}

/-- The furthest place at which a failure is noted. -/
def reach (t : Trace ι α) : Nat :=
  (FailureRecord.noteAll ⟨0, []⟩ t.failures).furthest

theorem reach_congr {t : Trace ι α} {u : Trace ι β} (h : t.failures = u.failures) :
    t.reach = u.reach := by
  rw [reach, h, reach]

theorem reach_of_append {t : Trace ι α} {u : Trace ι β} {v : Trace ι γ}
    (h : t.failures = u.failures ++ v.failures) : t.reach = max u.reach v.reach := by
  rw [reach, h, FailureRecord.noteAll_append, FailureRecord.furthest_noteAll, reach, reach]

theorem le_reach {t : Trace ι α} {f : Nat × String} (hf : f ∈ t.failures) : f.1 ≤ t.reach :=
  (FailureRecord.holds_noteAll hf).le

theorem reach_le {t : Trace ι α} {p : Nat} (h : ∀ f ∈ t.failures, f.1 ≤ p) : t.reach ≤ p := by
  rcases hfailures : t.failures with _ | ⟨f, failures⟩
  · rw [reach, hfailures]
    exact Nat.zero_le p
  · have hf : f ∈ t.failures := hfailures ▸ List.mem_cons_self
    exact (FailureRecord.exists_mem_furthest hf).elim fun _ => h _

/-- Both come to the same, and beyond the place where it goes on from there the furthest failures
are as far on. -/
inductive Alike (p : Nat) (t u : Trace ι (Outcome V)) : Prop
  | reads {c : List V} {q : Nat} (h : t.Reads c q) (h' : u.Reads c q)
    (hreach : max q t.reach = max q u.reach)
  | fails (h : t.Fails) (h' : u.Fails) (hreach : max p t.reach = max p u.reach)
  | refuses {i : Nat} (h : t.result = .error i) (h' : u.result = .error i)

namespace Alike

variable {p : Nat} {t u : Trace ι (Outcome V)}

theorem refl (p : Nat) (t : Trace ι (Outcome V)) : Alike p t t := by
  rcases t.cases with ⟨c, q, h⟩ | h | ⟨i, h⟩
  · exact .reads h h rfl
  · exact .fails h h rfl
  · exact .refuses h h

theorem result_eq (h : Alike p t u) : t.result = u.result := by
  rcases h with ⟨h, h', -⟩ | ⟨h, h', -⟩ | ⟨h, h'⟩ <;> exact h.trans h'.symm

/-- What is visited does not matter. -/
theorem visits (h : Alike p t u) (seen seen' : List (Visit ι)) :
    Alike p ⟨t.result, t.failures, seen⟩ ⟨u.result, u.failures, seen'⟩ := by
  rcases h with ⟨h, h', hreach⟩ | ⟨h, h', hreach⟩ | ⟨h, h'⟩
  · exact .reads h h' hreach
  · exact .fails h h' hreach
  · exact .refuses h h'

end Alike

end Trace

open Trace

namespace Attempt

variable {ι V : Type}

/-- The attempt reads the language, and the other one comes to the same. -/
structure Accords (tokens : Array Token) (L : Language V) (a b : Attempt ι V) : Prop where
  readsIn : ReadsIn tokens L a
  alike : ∀ p, Alike p (a p) (b p)

/-- The attempts accord, and both tell where they fail. -/
structure AccordsLoudly (tokens : Array Token) (L : Language V) (a b : Attempt ι V) : Prop extends
    Accords tokens L a b where
  loud : a.Loud
  loud' : b.Loud

variable {tokens : Array Token} {L M : Language V} {a b r r' t t' : Attempt ι V}

theorem Loud.le_reach (h : a.Loud) {p : Nat} (hfails : (a p).Fails) : p ≤ (a p).reach :=
  (h p hfails).elim fun _ hf => Nat.le_trans hf.2 (Trace.le_reach hf.1)

theorem Accords.readsIn' (h : Accords tokens L a b) : ReadsIn tokens L b := fun p c q hread =>
  h.readsIn p c q ((h.alike p).result_eq.trans hread)

theorem Accords.mono (h : Accords tokens L a b) (hLM : ∀ ts c, L ts c → M ts c) :
    Accords tokens M a b :=
  ⟨h.readsIn.mono hLM, h.alike⟩

theorem AccordsLoudly.mono (h : AccordsLoudly tokens L a b) (hLM : ∀ ts c, L ts c → M ts c) :
    AccordsLoudly tokens M a b :=
  ⟨h.toAccords.mono hLM, h.loud, h.loud'⟩

/-! ### Single tokens -/

theorem accordsLoudly_expecting {what : String} {wanted : Token → Bool} {capture : Token → List V}
    (hreads : ∀ (p : Nat) t, tokens[p]? = some t → wanted t → L [t] (capture t)) :
    AccordsLoudly tokens L (expecting tokens what wanted capture : Attempt ι V)
      (expecting tokens what wanted capture) where
  readsIn := readsIn_expecting hreads
  alike p := .refl p _
  loud := loud_expecting
  loud' := loud_expecting

/-! ### Sequences -/

theorem accordsLoudly_nothing :
    AccordsLoudly tokens .nothing (fun p => pure (some ([], p)) : Attempt ι V)
      (fun p => pure (some ([], p))) where
  readsIn := readsIn_nothing
  alike p := .refl p _
  loud p h := by simp at h
  loud' p h := by simp at h

theorem result_seq_of_refuses {p i : Nat} (h : (r p).result = .error i) :
    (seq r t p).result = .error i := by
  simp only [seq, andThen, bind_error h]

/-- The second part tells where it fails, and that hides what the first ones noted before. -/
theorem Accords.seq (hr : Accords tokens L r r') (ht : AccordsLoudly tokens M t t') :
    Accords tokens (L.followedBy M) (seq r t) (seq r' t') where
  readsIn := hr.readsIn.seq ht.readsIn
  alike p := by
    rcases hr.alike p with @⟨c, m, h, h', hreach⟩ | ⟨h, h', hreach⟩ | ⟨h, h'⟩
    · have hleft := reach_of_append (failures_seq_of_reads (t := t) h)
      have hright := reach_of_append (failures_seq_of_reads (t := t') h')
      rcases ht.alike m with @⟨d, q, h₂, h₂', hreach₂⟩ | ⟨h₂, h₂', hreach₂⟩ | ⟨h₂, h₂'⟩
      · have hmq : m ≤ q := ht.readsIn.le h₂
        exact .reads (reads_seq.mpr ⟨c, m, d, h, h₂, rfl⟩) (reads_seq.mpr ⟨c, m, d, h', h₂', rfl⟩)
          (by omega)
      · have hm := ht.loud.le_reach h₂
        have hm' := ht.loud'.le_reach h₂'
        exact .fails (fails_seq_right h h₂) (fails_seq_right h' h₂') (by omega)
      · exact .refuses (by rw [result_seq_of_reads h, h₂]; rfl)
          (by rw [result_seq_of_reads h', h₂']; rfl)
    · refine .fails (fails_seq_left h) (fails_seq_left h') ?_
      rwa [reach_congr (failures_seq_of_fails h), reach_congr (failures_seq_of_fails h')]
    · exact .refuses (result_seq_of_refuses h) (result_seq_of_refuses h')

theorem AccordsLoudly.seq (hr : AccordsLoudly tokens L r r') (ht : AccordsLoudly tokens M t t') :
    AccordsLoudly tokens (L.followedBy M) (seq r t) (seq r' t') where
  toAccords := hr.toAccords.seq ht
  loud := hr.loud.seq ht.loud hr.readsIn.le
  loud' := hr.loud'.seq ht.loud' hr.readsIn'.le

/-! ### Alternatives -/

theorem accords_never :
    Accords tokens L (fun _ => Trace.pure none : Attempt ι V) (fun _ => Trace.pure none) :=
  ⟨readsIn_never, fun p => .refl p _⟩

theorem result_choice_of_refuses {p i : Nat} (h : (r p).result = .error i) :
    (choice r t p).result = .error i := by
  simp only [choice, orElse, bind_error h]

theorem Accords.choice (hr : Accords tokens L r r') (ht : Accords tokens L t t') :
    Accords tokens L (choice r t) (choice r' t') where
  readsIn := hr.readsIn.choice ht.readsIn
  alike p := by
    show Alike p ((r p).orElse (t p)) ((r' p).orElse (t' p))
    rcases hr.alike p with ⟨h, h', hreach⟩ | ⟨h, h', hreach⟩ | ⟨h, h'⟩
    · refine .reads (orElse_of_reads h) (orElse_of_reads h') ?_
      rwa [reach_congr (failures_orElse_of_reads h), reach_congr (failures_orElse_of_reads h')]
    · have hleft := reach_of_append (failures_orElse_of_fails (u := t p) h)
      have hright := reach_of_append (failures_orElse_of_fails (u := t' p) h')
      rcases ht.alike p with ⟨h₂, h₂', hreach₂⟩ | ⟨h₂, h₂', hreach₂⟩ | ⟨h₂, h₂'⟩
      · have hpq := ht.readsIn.le h₂
        exact .reads (reads_orElse.mpr (Or.inr ⟨h, h₂⟩)) (reads_orElse.mpr (Or.inr ⟨h', h₂'⟩))
          (by omega)
      · exact .fails (fails_choice h h₂) (fails_choice h' h₂') (by omega)
      · exact .refuses ((orElse_of_fails h).trans h₂) ((orElse_of_fails h').trans h₂')
    · exact .refuses (result_choice_of_refuses h) (result_choice_of_refuses h')

theorem AccordsLoudly.choice (hr : AccordsLoudly tokens L r r') (ht : Accords tokens L t t') :
    AccordsLoudly tokens L (choice r t) (choice r' t') :=
  ⟨hr.toAccords.choice ht, hr.loud.choice, hr.loud'.choice⟩

theorem Accords.optional (hr : Accords tokens L r r') :
    AccordsLoudly tokens L.orNothing (optional r) (optional r') where
  toAccords := (hr.mono fun _ _ => Or.inl).choice
    (accordsLoudly_nothing.toAccords.mono fun _ _ => Or.inr)
  loud := loud_optional
  loud' := loud_optional

/-! ### Repetitions -/

theorem result_rounds_of_refuses {n p i : Nat} (h : (r p).result = .error i) :
    (rounds r (n + 1) p).result = .error i := by
  simp only [rounds, bind_error h]

theorem Accords.alike_rounds (hr : Accords tokens L r r') : ∀ n p,
    Alike p (rounds r n p) (rounds r' n p)
  | 0, p => .refl p _
  | n + 1, p => by
    rcases hr.alike p with @⟨c, m, h, h', hreach⟩ | ⟨h, h', hreach⟩ | ⟨h, h'⟩
    · by_cases hpm : p < m
      · have hleft := reach_of_append (failures_rounds_of_reads (n := n) h hpm)
        have hright := reach_of_append (failures_rounds_of_reads (n := n) h' hpm)
        have hresult := rounds_succ_of_reads h hpm n
        have hresult' := rounds_succ_of_reads h' hpm n
        rcases hr.alike_rounds n m with @⟨d, q, h₂, h₂', hreach₂⟩ | ⟨h₂, -, -⟩ | ⟨h₂, h₂'⟩
        · have hmq : m ≤ q := (hr.readsIn.rounds n).le h₂
          exact .reads (hresult.trans (reads_prepend.mpr ⟨d, h₂, rfl⟩))
            (hresult'.trans (reads_prepend.mpr ⟨d, h₂', rfl⟩)) (by omega)
        · exact absurd h₂ (not_fails_rounds n m)
        · exact .refuses (by rw [hresult, result_prepend, h₂]; rfl)
            (by rw [hresult', result_prepend, h₂']; rfl)
      · have hleft := reach_congr (failures_rounds_of_still (n := n) h hpm)
        have hright := reach_congr (failures_rounds_of_still (n := n) h' hpm)
        exact .reads (result_rounds_of_still h hpm) (result_rounds_of_still h' hpm) (by omega)
    · refine .reads (rounds_of_fails h _) (rounds_of_fails h' _) ?_
      rwa [reach_congr (failures_rounds_of_fails h), reach_congr (failures_rounds_of_fails h')]
    · exact .refuses (result_rounds_of_refuses h) (result_rounds_of_refuses h')

/-- The rounds behind a first one, as many as there are tokens left. -/
theorem Accords.rounds (hr : Accords tokens L r r') : AccordsLoudly tokens L.Many
    (fun p => rounds r (tokens.size - p + 1) p) (fun p => rounds r' (tokens.size - p + 1) p) where
  readsIn p := hr.readsIn.rounds _ p
  alike p := hr.alike_rounds _ p
  loud _ hfails := absurd hfails (not_fails_rounds _ _)
  loud' _ hfails := absurd hfails (not_fails_rounds _ _)

theorem Accords.star (hr : Accords tokens L r r') :
    AccordsLoudly tokens L.Many (star tokens r) (star tokens r') :=
  (hr.seq hr.rounds).optional.mono fun _ _ h => h.elim .of_followedBy fun ⟨hts, hc⟩ =>
    hts ▸ hc ▸ .nil

/-! ### Nodes and references -/

section Node

variable {reduce : Reducer V}

theorem result_node_of_refuses {p i : Nat} (h : (r p).result = .error i) :
    (node tokens r reduce p).result = .error i := by
  simp only [node, andThen, bind_error h]

/-- Nothing that was read is rejected; else its failures would be noted behind the place where the
parse goes on. -/
theorem Accords.node (hr : Accords tokens L r r') (hmakes : reduce.Makes L M) :
    Accords tokens M (node tokens r reduce) (node tokens r' reduce) where
  readsIn := hr.readsIn.node hmakes
  alike p := by
    rcases hr.alike p with @⟨c, q, h, h', hreach⟩ | ⟨h, h', hreach⟩ | ⟨h, h'⟩
    · obtain ⟨ts, hts, hs⟩ := hr.readsIn _ _ _ h
      obtain ⟨v, -, hreduce⟩ := hmakes ts c hts
      refine .reads (reads_node.mpr ⟨c, v, h, hreduce _ _ _ hs, rfl⟩)
        (reads_node.mpr ⟨c, v, h', hreduce _ _ _ hs, rfl⟩) ?_
      rwa [reach_congr failures_node, reach_congr failures_node]
    · refine .fails (fails_node h) (fails_node h') ?_
      rwa [reach_congr failures_node, reach_congr failures_node]
    · exact .refuses (result_node_of_refuses h) (result_node_of_refuses h')

theorem ReadsIn.exists_reduce (hr : ReadsIn tokens L r) (hmakes : reduce.Makes L M) {p m : Nat}
    {c : List V} (h : (r p).Reads c m) : ∃ v, reduce c ⟨tokens, p, m⟩ = some v := by
  obtain ⟨ts, hts, hs⟩ := hr _ _ _ h
  obtain ⟨v, -, hreduce⟩ := hmakes ts c hts
  exact ⟨v, hreduce _ _ _ hs⟩

theorem AccordsLoudly.node (hr : AccordsLoudly tokens L r r') (hmakes : reduce.Makes L M) :
    AccordsLoudly tokens M (node tokens r reduce) (node tokens r' reduce) where
  toAccords := hr.toAccords.node hmakes
  loud := hr.loud.node (hr.readsIn.exists_reduce hmakes)
  loud' := hr.loud'.node (hr.readsIn'.exists_reduce hmakes)

end Node

theorem accordsLoudly_refused :
    AccordsLoudly tokens L (Trace.refused : Attempt ι V) Trace.refused where
  readsIn _ _ _ h := by simp [Reads, refused] at h
  alike p := .refl p _
  loud p h := by simp [Fails, refused] at h
  loud' p h := by simp [Fails, refused] at h

/-! ### What is never there -/

theorem reach_expecting (what : String) (wanted : Token → Bool) (capture : Token → List V)
    (p : Nat) : (expecting tokens what wanted capture p : Trace ι (Outcome V)).reach ≤ p :=
  reach_le fun _ hf => Nat.le_of_eq (congrArg Prod.fst (noted_expecting hf))

theorem reach_choice {p : Nat} (h : (r p).reach ≤ p) (h' : (t p).reach ≤ p) :
    (choice r t p).reach ≤ p := by
  rcases (r p).cases with ⟨c, q, hread⟩ | hfails | ⟨i, hi⟩
  · exact reach_congr (failures_orElse_of_reads hread (u := t p)) ▸ h
  · have hboth : (choice r t p).reach = _ :=
      reach_of_append (failures_orElse_of_fails hfails (u := t p))
    omega
  · have hleft : (choice r t p).failures = (r p).failures := by
      simp only [choice, orElse, bind_error hi]
    exact reach_congr hleft ▸ h

/-- It fails everywhere, and notes no failure further on. -/
def Idle (a : Attempt ι V) : Prop :=
  ∀ p, (a p).Fails ∧ (a p).reach ≤ p

/-- It reads nothing wherever it is tried, and notes no failure further on. -/
def Still (a : Attempt ι V) : Prop :=
  ∀ p, (a p).Reads [] p ∧ (a p).reach ≤ p

theorem Idle.seq (h : r.Idle) : (seq r t).Idle := by
  intro p
  rw [reach_congr (failures_seq_of_fails (h p).1)]
  exact ⟨fails_seq_left (h p).1, (h p).2⟩

theorem Idle.node (h : r.Idle) (reduce : Reducer V) : (node tokens r reduce).Idle := by
  intro p
  rw [reach_congr failures_node]
  exact ⟨fails_node (h p).1, (h p).2⟩

theorem Idle.star (h : r.Idle) : (star tokens r).Still := by
  intro p
  obtain ⟨hfails, hreach⟩ := h.seq (t := fun p => Attempt.rounds r (tokens.size - p + 1) p) p
  refine ⟨reads_optional.mpr (Or.inr ⟨hfails, rfl, rfl⟩), ?_⟩
  have hnone : (Attempt.star tokens r p).failures = _ :=
    (failures_orElse_of_fails (u := Trace.pure (some ([], p))) hfails).trans (List.append_nil _)
  exact reach_congr hnone ▸ hreach

theorem still_nothing : Still (fun p => pure (some ([], p)) : Attempt ι V) := fun p =>
  ⟨reads_pure.mpr rfl, Nat.zero_le p⟩

theorem Still.seq (h : r.Still) (h' : t.Still) : (seq r t).Still := by
  intro p
  have hr := (h p).2
  have ht := (h' p).2
  refine ⟨reads_seq.mpr ⟨[], p, [], (h p).1, (h' p).1, rfl⟩, ?_⟩
  rw [reach_of_append (failures_seq_of_reads (h p).1)]
  omega

/-- An attempt accords with itself in a node around it, if the node adds nothing to what is read. -/
theorem AccordsLoudly.padded (h : AccordsLoudly tokens L a b) (ht : t.Still) {reduce : Reducer V}
    (hreduce : ∀ ts c, L ts c → ∃ v, c = [v] ∧ ∀ stretch, reduce c stretch = some v) :
    AccordsLoudly tokens L a (Attempt.node tokens (Attempt.seq b t) reduce) where
  readsIn := h.readsIn
  alike p := by
    rcases h.alike p with @⟨c, q, hread, hread', hreach⟩ | ⟨hfails, hfails', hreach⟩ | ⟨hi, hi'⟩
    · obtain ⟨ts, hts, -⟩ := h.readsIn _ _ _ hread
      obtain ⟨v, rfl, hv⟩ := hreduce ts c hts
      refine .reads hread (reads_node.mpr
        ⟨[v], v, reads_seq.mpr ⟨[v], q, [], hread', (ht q).1, rfl⟩, hv _, rfl⟩) ?_
      have hq := (ht q).2
      rw [reach_congr failures_node, reach_of_append (failures_seq_of_reads hread')]
      omega
    · refine .fails hfails (fails_node (fails_seq_left hfails')) ?_
      rwa [reach_congr failures_node, reach_congr (failures_seq_of_fails hfails')]
    · exact .refuses hi (result_node_of_refuses (result_seq_of_refuses hi'))
  loud := h.loud
  loud' := by
    have ht' : t.Loud := fun p hfails => absurd hfails (ht p).1.not_fails
    refine (h.loud'.seq ht' h.readsIn'.le).node fun {p c m} hread => ?_
    obtain ⟨d, q, d', hread', hnothing, rfl⟩ := reads_seq.mp hread
    obtain ⟨rfl, rfl⟩ := (ht q).1.unique hnothing
    obtain ⟨ts, hts, -⟩ := h.readsIn' _ _ _ hread'
    obtain ⟨v, rfl, hv⟩ := hreduce ts d hts
    exact ⟨v, hv _⟩

end Attempt

/-! ### Rules -/

section Rules

variable {ι V : Type} [Capture V]

/-- What trying the one rule comes to, and the other. -/
abbrev Rule.Accords (tokens : Array Token) (levels : Nat)
    (target target' : Nat → Option (Attempt ι V)) (L : Language V) (r r' : Rule ι V) : Prop :=
  Attempt.Accords tokens L (r.trace tokens levels target) (r'.trace tokens levels target')

abbrev Rule.AccordsLoudly (tokens : Array Token) (levels : Nat)
    (target target' : Nat → Option (Attempt ι V)) (L : Language V) (r r' : Rule ι V) : Prop :=
  Attempt.AccordsLoudly tokens L (r.trace tokens levels target) (r'.trace tokens levels target')

variable {tokens : Array Token} {levels : Nat} {target target' : Nat → Option (Attempt ι V)}
  {L M : Language V} {r r' : Rule ι V}

namespace Rule

theorem accordsLoudly_verbatim (text : String) :
    (verbatim text : Rule ι V).AccordsLoudly tokens levels target target' (.verbatim text)
      (.verbatim text) :=
  Attempt.accordsLoudly_expecting fun _ t _ h => ⟨t, Token.isVerbatim_iff.mp h, rfl, rfl⟩

theorem accordsLoudly_kind (k : TokenKind) :
    (kind k : Rule ι V).AccordsLoudly tokens levels target target' (.single fun t => t.kind = k)
      (.kind k) :=
  Attempt.accordsLoudly_expecting fun _ t _ h => ⟨t, beq_iff_eq.mp h, rfl, rfl⟩

theorem accordsLoudly_all_nil :
    (all [] : Rule ι V).AccordsLoudly tokens levels target target' .nothing (all []) :=
  Attempt.accordsLoudly_nothing

/-- Alternatives for the same things in the same order. -/
theorem accords_any {α : Type} {f g : α → Rule ι V} : ∀ {l : List α},
    (∀ x ∈ l, (f x).Accords tokens levels target target' L (g x)) →
      (any (l.map f)).Accords tokens levels target target' L (any (l.map g))
  | [], _ => Attempt.accords_never
  | _ :: _, h => (h _ List.mem_cons_self).choice
    (accords_any fun x hx => h x (List.mem_cons_of_mem _ hx))

end Rule

namespace Rule

theorem reach_any : ∀ {rules : List (Rule ι V)} {p : Nat},
    (∀ r ∈ rules, (r.trace tokens levels target p).reach ≤ p) →
      ((any rules).trace tokens levels target p).reach ≤ p
  | [], p, _ => Nat.zero_le p
  | _ :: _, _, h => Attempt.reach_choice (h _ List.mem_cons_self)
    (reach_any fun r hr => h r (List.mem_cons_of_mem _ hr))

theorem idle_all_head (h : Attempt.Idle (r.trace tokens levels target)) (rules : List (Rule ι V)) :
    Attempt.Idle ((all (r :: rules)).trace tokens levels target) :=
  h.seq

end Rule

namespace Strategy

variable {strategy strategy' : Strategy} {key key' : ι} {reduce : Reducer V}

/-- For nodes, neither their keys nor the strategies matter. -/
theorem accords_of_node (h : Attempt.Accords tokens L
      (Attempt.node tokens (r.trace tokens levels target) reduce)
      (Attempt.node tokens (r'.trace tokens levels target') reduce)) :
    (strategy.node key r reduce).Accords tokens levels target target' L
      (strategy'.node key' r' reduce) := by
  refine ⟨fun p c q hread => h.readsIn p c q (result_node.symm.trans hread), fun p => ?_⟩
  rcases strategy with _ | _ <;> rcases strategy' with _ | _ <;> exact (h.alike p).visits _ _

theorem loud_node (h : (Attempt.node tokens (r.trace tokens levels target) reduce).Loud) :
    Attempt.Loud ((strategy.node key r reduce).trace tokens levels target) := by
  rcases strategy with _ | _ <;> exact h

theorem idle_node (h : Attempt.Idle (r.trace tokens levels target)) (reduce : Reducer V) :
    Attempt.Idle ((strategy.node key r reduce).trace tokens levels target) := by
  rcases strategy with _ | _ <;> exact h.node reduce

/-- A node accords with itself, whatever it rejects. -/
theorem accords_same (hsame : r.trace tokens levels target = r.trace tokens levels target')
    (hreads : Attempt.ReadsIn tokens L ((strategy.node key r reduce).trace tokens levels target)) :
    (strategy.node key r reduce).Accords tokens levels target target' L
      (strategy'.node key' r reduce) := by
  refine accords_of_node ⟨fun p c q h => hreads p c q (result_node.trans h), fun p => ?_⟩
  rw [hsame]
  exact .refl p _

theorem accordsLoudly_padded {s : Rule ι V}
    (h : r.AccordsLoudly tokens levels target target' L r')
    (hs : Attempt.Still (s.trace tokens levels target'))
    (hreduce : ∀ ts c, L ts c → ∃ v, c = [v] ∧ ∀ stretch, reduce c stretch = some v) :
    r.AccordsLoudly tokens levels target target' L (strategy.node key (.seq r' s) reduce) := by
  have hpadded := h.padded hs hreduce
  refine ⟨⟨hpadded.readsIn, fun p => ?_⟩, hpadded.loud, loud_node hpadded.loud'⟩
  rcases strategy with _ | _
  · exact hpadded.alike p
  · exact (hpadded.alike p).visits _ _

theorem accords_node (h : r.Accords tokens levels target target' L r') (hmakes : reduce.Makes L M) :
    (strategy.node key r reduce).Accords tokens levels target target' M
      (strategy'.node key' r' reduce) :=
  accords_of_node (h.node hmakes)

theorem accordsLoudly_node (h : r.AccordsLoudly tokens levels target target' L r')
    (hmakes : reduce.Makes L M) :
    (strategy.node key r reduce).AccordsLoudly tokens levels target target' M
      (strategy'.node key' r' reduce) :=
  ⟨accords_of_node (h.node hmakes).toAccords, loud_node (h.node hmakes).loud,
    loud_node (h.node hmakes).loud'⟩

end Strategy

end Rules

end Precedence
