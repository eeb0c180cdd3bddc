import Precedence.Proofs.Grammar.Recognition

/-!
# What failures tell of the tokens

An attempt that reads a language notes a failure only where something of the language would have gone
on, and as long as it does not come to a place it does not depend on what stands there: on another
row that begins alike it comes to the same, unless that row has one of the tokens there that were
noted as missing (`Attempt.Predicts`). This is kept by all the ways to build rules. The second part
of a sequence has to tell where it fails, or else the first part could read on unnoticed
(`Attempt.Directs`).
-/

namespace Precedence

/-- The token in the words of a rule that wants it. -/
def Token.terminal (t : Token) : String :=
  if t.kind = .verbatim then quote t.text else t.kind.label

theorem Token.IsVerbatim.terminal_eq {t : Token} {text : String} (h : t.IsVerbatim text) :
    t.terminal = quote text := by
  rw [Token.terminal, if_pos h.1, h.2]

theorem Token.terminal_of_kind {t : Token} {k : TokenKind} (h : t.kind = k) (hk : k ≠ .verbatim) :
    t.terminal = k.label := by
  rw [Token.terminal, if_neg (h ▸ hk), h]

/-- Rows of tokens, with what is captured of each. -/
abbrev Language (V : Type) := List Token → List V → Prop

namespace Language

variable {V : Type}

/-- Nothing is read. -/
def nothing : Language V := fun ts c => ts = [] ∧ c = []

def followedBy (L M : Language V) : Language V := fun ts c =>
  ∃ us d vs d', L us d ∧ M vs d' ∧ ts = us ++ vs ∧ c = d ++ d'

def orNothing (L : Language V) : Language V := fun ts c => L ts c ∨ ts = [] ∧ c = []

/-- Any number of times, one after the other. -/
inductive Many (L : Language V) : Language V
  | nil : Many L [] []
  | cons {ts us : List Token} {c d : List V} (h : L ts c) (h' : Many L us d) :
    Many L (ts ++ us) (c ++ d)

theorem Many.of_followedBy {L : Language V} {ts : List Token} {c : List V}
    (h : (L.followedBy (Many L)) ts c) : Many L ts c := by
  obtain ⟨us, d, vs, d', h, h', rfl, rfl⟩ := h
  exact .cons h h'

end Language

/-- Of each row with its captures, the reducer makes something that belongs to the second language,
wherever the row stands. -/
def Reducer.Makes {V : Type} (reduce : Reducer V) (L M : Language V) : Prop :=
  ∀ ts c, L ts c → ∃ v, M ts [v] ∧
    ∀ tokens p q, Spans tokens p ts q → reduce c ⟨tokens, p, q⟩ = some v

/-- A row of tokens, another one that begins alike, and the rows that are the beginnings of what is
looked for. -/
structure Comparison where
  tokens : Array Token
  others : Array Token
  /-- The rows are the same up to here. -/
  common : Nat
  common_le : common ≤ tokens.size
  same : ∀ p, p < common → others[p]? = tokens[p]?
  viable : List Token → Prop
  viable_of_append : ∀ ts us, viable (ts ++ us) → viable ts

namespace Spans

variable {tokens : Array Token} {p q : Nat} {ts : List Token}

theorem le_stop (h : Spans tokens p ts q) : p ≤ q := by
  rw [h.stop_eq]
  omega

theorem take_eq (h : Spans tokens p ts q) :
    tokens.toList.take q = tokens.toList.take p ++ ts := by
  rw [h.stop_eq, List.take_add, h.drop_eq, List.take_left]

theorem copy {others : Array Token} (h : Spans tokens p ts q)
    (hsame : ∀ j, j < q → others[j]? = tokens[j]?) : Spans others p ts q := by
  induction h with
  | nil p => exact .nil p
  | cons ht h ih => exact .cons ((hsame _ h.le_stop).trans ht) (ih hsame)

end Spans

open Trace

namespace Comparison

variable {ι V : Type} (w : Comparison)

/-- Whatever the language goes on with from here is viable. -/
def Fits (L : Language V) (p : Nat) : Prop :=
  p ≤ w.tokens.size ∧ ∀ ts c, L ts c → w.viable (w.tokens.toList.take p ++ ts)

/-- A failure is noted where the tokens could go on with what is missing. -/
def Foresees (failure : Nat × String) : Prop :=
  failure.1 ≤ w.tokens.size ∧ ∃ t : Token, t.terminal = failure.2 ∧
    w.viable (w.tokens.toList.take failure.1 ++ [t])

/-- The trace does not go beyond what the rows have in common. -/
structure Stays (t : Trace ι (Outcome V)) : Prop where
  not_refuses : ¬ t.Refuses
  reads_le : ∀ {c q}, t.Reads c q → q ≤ w.common
  noted_le : ∀ f ∈ t.failures, f.1 ≤ w.common

/-- Where the rows part, the other one has what was noted as missing. -/
def Parts (t : Trace ι (Outcome V)) : Prop :=
  ∃ token, w.others[w.common]? = some token ∧ (w.common, token.terminal) ∈ t.failures

variable {w} {L M : Language V}

theorem Fits.of_imp {p : Nat} (h : w.Fits M p) (himp : ∀ ts c, L ts c → ∃ d, M ts d) :
    w.Fits L p :=
  ⟨h.1, fun ts c hts => (himp ts c hts).elim fun d hd => h.2 ts d hd⟩

theorem Stays.of_reads {t : Trace ι (Outcome V)} {c : List V} {m : Nat} (h : t.Reads c m)
    (hm : m ≤ w.common) (hnoted : ∀ f ∈ t.failures, f.1 ≤ w.common) : w.Stays t :=
  ⟨h.not_refuses, fun h' => (h.unique h').2 ▸ hm, hnoted⟩

theorem Stays.of_fails {t : Trace ι (Outcome V)} (h : t.Fails)
    (hnoted : ∀ f ∈ t.failures, f.1 ≤ w.common) : w.Stays t :=
  ⟨fun ⟨_, hi⟩ => absurd (hi.symm.trans h) (by simp), fun h' => absurd h h'.not_fails, hnoted⟩

theorem Parts.of_subset {t u : Trace ι (Outcome V)} (h : w.Parts t)
    (hsub : t.failures ⊆ u.failures) : w.Parts u :=
  h.imp fun _ h => ⟨h.1, hsub h.2⟩

end Comparison

namespace Trace

variable {ι V : Type} {t u : Trace ι (Outcome V)} {k : List V → Nat → Trace ι (Outcome V)}
  {c : List V} {m : Nat}

theorem failures_andThen_of_reads (h : t.Reads c m) :
    (t.andThen k).failures = t.failures ++ (k c m).failures := by
  unfold andThen
  rw [bind_ok h]

theorem failures_andThen_of_fails (h : t.Fails) : (t.andThen k).failures = t.failures := by
  unfold andThen
  rw [bind_ok h]
  exact List.append_nil _

theorem failures_orElse_of_reads (h : t.Reads c m) : (t.orElse u).failures = t.failures := by
  unfold orElse
  rw [bind_ok h]
  exact List.append_nil _

theorem failures_orElse_of_fails (h : t.Fails) :
    (t.orElse u).failures = t.failures ++ u.failures := by
  unfold orElse
  rw [bind_ok h]

theorem failures_prepend (d : List V) :
    (t.bind fun o => pure (prepend d o)).failures = t.failures := by
  rw [bind_map]

theorem result_prepend (d : List V) :
    (t.bind fun o => pure (prepend d o)).result = t.result.map (prepend d) := by
  rw [bind_map]

end Trace

namespace Attempt

variable {ι V : Type}

/-- Whatever the attempt reads is of the language. -/
def ReadsIn (tokens : Array Token) (L : Language V) (a : Attempt ι V) : Prop :=
  ∀ p c q, (a p).Reads c q → ∃ ts, L ts c ∧ Spans tokens p ts q

/-- The attempt reads the language, foresees how the tokens could go on, and comes to the same as the
other one as long as it stays with what the rows have in common. -/
structure Predicts (w : Comparison) (L : Language V) (a b : Attempt ι V) : Prop where
  reads : ∀ {p c q}, (a p).Reads c q → ∃ ts, L ts c ∧ Spans w.tokens p ts q
  foresees : ∀ {p}, w.Fits L p → ∀ f ∈ (a p).failures, w.Foresees f
  agrees : ∀ {p}, p ≤ w.common → w.Stays (a p) → (a p).result = (b p).result ∨ w.Parts (a p)

/-- A failure is always noted, at the start or further on. -/
def Loud (a : Attempt ι V) : Prop :=
  ∀ p, (a p).Fails → ∃ f ∈ (a p).failures, p ≤ f.1

/-- The attempt predicts, tells where it fails, and has something to read. -/
structure Directs (w : Comparison) (L : Language V) (a b : Attempt ι V) : Prop extends
    Predicts w L a b where
  loud : a.Loud
  inhabited : ∃ ts c, L ts c

variable {w : Comparison} {L M : Language V} {r r' t t' : Attempt ι V}

theorem Predicts.readsIn (h : Predicts w L r r') : ReadsIn w.tokens L r :=
  fun _ _ _ => h.reads

theorem Predicts.mono (h : Predicts w L r r') (hLM : ∀ ts c, L ts c → M ts c) :
    Predicts w M r r' where
  reads hread := (h.reads hread).imp fun ts hts => ⟨hLM ts _ hts.1, hts.2⟩
  foresees hfits := h.foresees (hfits.of_imp fun ts c hts => ⟨c, hLM ts c hts⟩)
  agrees := h.agrees

theorem Directs.mono (h : Directs w L r r') (hLM : ∀ ts c, L ts c → M ts c) :
    Directs w M r r' :=
  ⟨h.toPredicts.mono hLM, h.loud, h.inhabited.imp fun ts => Exists.imp fun c => hLM ts c⟩

/-! ### What is read -/

section ReadsIn

variable {tokens : Array Token}

theorem ReadsIn.le (h : ReadsIn tokens L r) {p q : Nat} {c : List V} (hread : (r p).Reads c q) :
    p ≤ q :=
  (h p c q hread).elim fun _ hts => hts.2.le_stop

theorem ReadsIn.mono (h : ReadsIn tokens L r) (hLM : ∀ ts c, L ts c → M ts c) :
    ReadsIn tokens M r := fun p c q hread =>
  (h p c q hread).imp fun ts hts => ⟨hLM ts c hts.1, hts.2⟩

theorem readsIn_expecting {what : String} {wanted : Token → Bool} {capture : Token → List V}
    (hreads : ∀ (p : Nat) t, tokens[p]? = some t → wanted t → L [t] (capture t)) :
    ReadsIn tokens L (expecting tokens what wanted capture : Attempt ι V) := by
  intro p c q hread
  obtain ⟨t, ht, hw, rfl, rfl⟩ := reads_expecting.mp hread
  exact ⟨[t], hreads _ t ht hw, .single ht⟩

theorem readsIn_nothing :
    ReadsIn tokens .nothing (fun p => pure (some ([], p)) : Attempt ι V) := by
  intro p c q hread
  obtain ⟨rfl, rfl⟩ := Prod.mk.inj (Option.some.inj (reads_pure.mp hread))
  exact ⟨[], ⟨rfl, rfl⟩, .nil p⟩

theorem readsIn_never : ReadsIn tokens L (fun _ => Trace.pure none : Attempt ι V) :=
  fun _ _ _ hread => by simp at hread

theorem ReadsIn.seq (hr : ReadsIn tokens L r) (ht : ReadsIn tokens M t) :
    ReadsIn tokens (L.followedBy M) (seq r t) := by
  intro p c q hread
  obtain ⟨d, m, d', h, h', rfl⟩ := reads_seq.mp hread
  obtain ⟨ts, hts, hs⟩ := hr _ _ _ h
  obtain ⟨us, hus, hs'⟩ := ht _ _ _ h'
  exact ⟨ts ++ us, ⟨ts, d, us, d', hts, hus, rfl, rfl⟩, hs.append hs'⟩

theorem ReadsIn.choice (hr : ReadsIn tokens L r) (ht : ReadsIn tokens L t) :
    ReadsIn tokens L (choice r t) := by
  intro p c q hread
  rcases reads_choice.mp hread with h | ⟨-, h⟩
  · exact hr p c q h
  · exact ht p c q h

theorem ReadsIn.rounds (hr : ReadsIn tokens L r) (n : Nat) :
    ReadsIn tokens L.Many (rounds r n) := fun _ _ _ h =>
  rounds_induction (P := fun p c q => ∃ ts, L.Many ts c ∧ Spans tokens p ts q)
    (fun p => ⟨[], .nil, .nil p⟩)
    (fun _ _ _ _ _ h ⟨us, hus, hs⟩ =>
      (hr _ _ _ h).elim fun ts hts => ⟨ts ++ us, .cons hts.1 hus, hts.2.append hs⟩) h

theorem ReadsIn.node (hr : ReadsIn tokens L r) {reduce : Reducer V} (hmakes : reduce.Makes L M) :
    ReadsIn tokens M (node tokens r reduce) := by
  intro p c q hread
  obtain ⟨d, v, h, hv, rfl⟩ := reads_node.mp hread
  obtain ⟨ts, hts, hs⟩ := hr _ _ _ h
  obtain ⟨v', hv', hreduce⟩ := hmakes ts d hts
  obtain rfl : v' = v := Option.some.inj ((hreduce _ _ _ hs).symm.trans hv)
  exact ⟨ts, hv', hs⟩

end ReadsIn

/-! ### Single tokens -/

section Expecting

variable {tokens : Array Token} {what : String} {wanted : Token → Bool} {capture : Token → List V}

/-- The only failure is that what is wanted is missing here. -/
theorem noted_expecting {p : Nat} {f : Nat × String}
    (hf : f ∈ (expecting tokens what wanted capture p : Trace ι (Outcome V)).failures) :
    f = (p, what) := by
  unfold expecting at hf
  rcases ht : tokens[p]? with _ | t
  · rw [ht] at hf
    exact List.mem_singleton.mp hf
  · simp only [ht] at hf
    by_cases hw : wanted t
    · simp [hw, Trace.pure] at hf
    · simp only [hw, Bool.false_eq_true, if_false] at hf
      exact List.mem_singleton.mp hf

theorem loud_expecting : (expecting tokens what wanted capture : Attempt ι V).Loud := by
  intro p hfails
  refine ⟨(p, what), ?_, Nat.le_refl _⟩
  unfold expecting at hfails ⊢
  rcases ht : tokens[p]? with _ | t
  · exact List.mem_singleton_self _
  · simp only [ht] at hfails ⊢
    by_cases hw : wanted t
    · simp [hw] at hfails
    · simp only [hw, Bool.false_eq_true, if_false]
      exact List.mem_singleton_self _

end Expecting

theorem directs_expecting {what : String} {wanted : Token → Bool} {capture : Token → List V}
    (hreads : ∀ (p : Nat) t, w.tokens[p]? = some t → wanted t → L [t] (capture t))
    (hwanted : ∀ t, wanted t → t.terminal = what) {sample : Token}
    (hsample : sample.terminal = what) {c : List V} (hL : L [sample] c) :
    Directs w L (expecting w.tokens what wanted capture : Attempt ι V)
      (expecting w.others what wanted capture) where
  reads := readsIn_expecting hreads _ _ _
  foresees {p} hfits f hf := by
    obtain rfl := noted_expecting hf
    exact ⟨hfits.1, sample, hsample, hfits.2 _ _ hL⟩
  agrees {p} hp hstays := by
    rcases Nat.lt_or_eq_of_le hp with hlt | rfl
    · refine Or.inl ?_
      unfold expecting
      rw [w.same p hlt]
    -- the rows part here, so that nothing was read here
    have hnot : ∀ t, w.tokens[w.common]? = some t → ¬ wanted t := fun t ht hw =>
      absurd (hstays.reads_le (reads_expecting.mpr ⟨t, ht, hw, rfl, rfl⟩)) (by omega)
    have hfails : (expecting w.tokens what wanted capture w.common :
        Trace ι (Outcome V)).Fails := fails_expecting hnot
    have hnoted : (expecting w.tokens what wanted capture w.common :
        Trace ι (Outcome V)).failures = [(w.common, what)] := by
      unfold expecting
      rcases ht : w.tokens[w.common]? with _ | t
      · rfl
      · simp only [hnot t ht, Bool.false_eq_true, if_false]
        rfl
    by_cases hother : ∃ t, w.others[w.common]? = some t ∧ wanted t
    · obtain ⟨t, ht, hw⟩ := hother
      exact Or.inr ⟨t, ht, by rw [hnoted, hwanted t hw]; exact List.mem_singleton_self _⟩
    · exact Or.inl (hfails.trans (fails_expecting fun t ht hw => hother ⟨t, ht, hw⟩).symm)
  loud := loud_expecting
  inhabited := ⟨_, _, hL⟩

/-! ### Sequences -/

theorem directs_nothing :
    Directs w .nothing (fun p => pure (some ([], p)) : Attempt ι V) (fun p => pure (some ([], p)))
    where
  reads := readsIn_nothing _ _ _
  foresees _ f hf := by simp [Trace.pure] at hf
  agrees _ _ := Or.inl rfl
  loud p h := by simp at h
  inhabited := ⟨[], [], rfl, rfl⟩

section Seq

variable {p m : Nat} {c : List V}

theorem result_seq_of_reads (h : (r p).Reads c m) :
    (seq r t p).result = (t m).result.map (prepend c) :=
  (andThen_of_reads h).trans (result_prepend c)

theorem failures_seq_of_reads (h : (r p).Reads c m) :
    (seq r t p).failures = (r p).failures ++ (t m).failures :=
  (failures_andThen_of_reads h).trans (congrArg _ (failures_prepend c))

theorem failures_seq_of_fails (h : (r p).Fails) : (seq r t p).failures = (r p).failures :=
  failures_andThen_of_fails h

end Seq

theorem Loud.seq (hr : r.Loud) (ht : t.Loud)
    (hforward : ∀ {p c m}, (r p).Reads c m → p ≤ m) : (seq r t).Loud := by
  intro p hfails
  rcases (r p).cases with ⟨c, m, h⟩ | h | h
  · have hfails' : (t m).Fails := by
      unfold Attempt.seq Fails at hfails
      rw [andThen_of_reads h] at hfails
      exact fails_prepend.mp hfails
    obtain ⟨f, hf, hm⟩ := ht m hfails'
    exact ⟨f, failures_seq_of_reads h ▸ List.mem_append_right _ hf,
      Nat.le_trans (hforward h) hm⟩
  · obtain ⟨f, hf, hp⟩ := hr p h
    exact ⟨f, failures_seq_of_fails h ▸ hf, hp⟩
  · obtain ⟨i, hi⟩ := andThen_of_refuses (k := fun c m => (t m).bind fun o =>
      pure (prepend c o)) h
    exact absurd (hi.symm.trans hfails) (by simp)

/-- Where a sequence stays, its first part does; if that reads something, the second does too. -/
theorem stays_seq (ht : Directs w M t t') {p : Nat} (hstays : w.Stays (seq r t p)) :
    w.Stays (r p) ∧ ∀ c m, (r p).Reads c m → m ≤ w.common ∧ w.Stays (t m) := by
  have hsecond : ∀ c m, (r p).Reads c m → m ≤ w.common ∧ w.Stays (t m) := by
    intro c m h
    have hstays' : w.Stays (t m) := by
      refine ⟨fun hrefuses => ?_, fun {d q} hread => ?_, fun f hf => ?_⟩
      · exact hstays.not_refuses (by
          unfold seq Refuses
          rw [andThen_of_reads h]
          exact refuses_prepend.mpr hrefuses)
      · exact hstays.reads_le (reads_seq.mpr ⟨c, m, d, h, hread, rfl⟩)
      · exact hstays.noted_le f (failures_seq_of_reads h ▸ List.mem_append_right _ hf)
    refine ⟨?_, hstays'⟩
    rcases (t m).cases with ⟨d, q, hread⟩ | hfails | hrefuses
    · exact Nat.le_trans (ht.readsIn.le hread) (hstays'.reads_le hread)
    · obtain ⟨f, hf, hm⟩ := ht.loud m hfails
      exact Nat.le_trans hm (hstays'.noted_le f hf)
    · exact absurd hrefuses hstays'.not_refuses
  refine ⟨⟨fun hrefuses => hstays.not_refuses (andThen_of_refuses hrefuses),
    fun {c q} h => (hsecond c q h).1, fun f hf => hstays.noted_le f ?_⟩, hsecond⟩
  rcases (r p).cases with ⟨c, m, h⟩ | h | h
  · exact failures_seq_of_reads h ▸ List.mem_append_left _ hf
  · exact failures_seq_of_fails h ▸ hf
  · exact absurd (andThen_of_refuses h) hstays.not_refuses

theorem Predicts.seq (hr : Predicts w L r r') (ht : Directs w M t t') :
    Predicts w (L.followedBy M) (seq r t) (seq r' t') where
  reads := hr.readsIn.seq ht.readsIn _ _ _
  foresees {p} hfits f hf := by
    obtain ⟨us, d, hus⟩ := ht.inhabited
    have hfits' : w.Fits L p := ⟨hfits.1, fun ts c hts => w.viable_of_append _ us (by
      rw [List.append_assoc]
      exact hfits.2 _ _ ⟨ts, c, us, d, hts, hus, rfl, rfl⟩)⟩
    rcases (r p).cases with ⟨c, m, h⟩ | h | h
    · rcases List.mem_append.mp (failures_seq_of_reads h ▸ hf) with hf | hf
      · exact hr.foresees hfits' f hf
      · obtain ⟨ts, hts, hs⟩ := hr.reads h
        refine ht.foresees ⟨hs.le_size hfits.1, fun vs c' hvs => ?_⟩ f hf
        rw [hs.take_eq, List.append_assoc]
        exact hfits.2 _ _ ⟨ts, c, vs, c', hts, hvs, rfl, rfl⟩
    · exact hr.foresees hfits' f (failures_seq_of_fails h ▸ hf)
    · obtain ⟨i, h⟩ := h
      refine hr.foresees hfits' f ?_
      simpa only [Attempt.seq, andThen, bind_error h] using hf
  agrees {p} hp hstays := by
    obtain ⟨hfirst, hsecond⟩ := stays_seq ht hstays
    rcases (r p).cases with ⟨c, m, h⟩ | h | h
    · rcases hr.agrees hp hfirst with heq | hparts
      · have h' : (r' p).Reads c m := heq.symm.trans h
        obtain ⟨hm, hstays'⟩ := hsecond c m h
        rcases ht.agrees hm hstays' with heq' | hparts
        · exact Or.inl (by rw [result_seq_of_reads h, result_seq_of_reads h', heq'])
        · exact Or.inr (hparts.of_subset
            (failures_seq_of_reads h ▸ List.subset_append_right _ _))
      · exact Or.inr (hparts.of_subset (failures_seq_of_reads h ▸ List.subset_append_left _ _))
    · rcases hr.agrees hp hfirst with heq | hparts
      · have h' : (r' p).Fails := heq.symm.trans h
        exact Or.inl ((fails_seq_left h).trans (fails_seq_left h').symm)
      · exact Or.inr (hparts.of_subset (failures_seq_of_fails h ▸ List.Subset.refl _))
    · exact absurd h hfirst.not_refuses

theorem Directs.seq (hr : Directs w L r r') (ht : Directs w M t t') :
    Directs w (L.followedBy M) (seq r t) (seq r' t') where
  toPredicts := hr.toPredicts.seq ht
  loud := hr.loud.seq ht.loud hr.readsIn.le
  inhabited := by
    obtain ⟨ts, c, hts⟩ := hr.inhabited
    obtain ⟨us, d, hus⟩ := ht.inhabited
    exact ⟨_, _, ts, c, us, d, hts, hus, rfl, rfl⟩

/-! ### Alternatives -/

theorem Predicts.never :
    Predicts w L (fun _ => Trace.pure none : Attempt ι V) (fun _ => Trace.pure none) where
  reads := readsIn_never _ _ _
  foresees _ f hf := by simp [Trace.pure] at hf
  agrees _ _ := Or.inl rfl

theorem Predicts.choice (hr : Predicts w L r r') (ht : Predicts w L t t') :
    Predicts w L (choice r t) (choice r' t') where
  reads := hr.readsIn.choice ht.readsIn _ _ _
  foresees {p} hfits f hf := by
    rcases (r p).cases with ⟨c, m, h⟩ | h | ⟨i, h⟩
    · exact hr.foresees hfits f (failures_orElse_of_reads h ▸ hf)
    · rcases List.mem_append.mp (failures_orElse_of_fails h ▸ hf) with hf | hf
      · exact hr.foresees hfits f hf
      · exact ht.foresees hfits f hf
    · refine hr.foresees hfits f ?_
      simpa only [Attempt.choice, orElse, bind_error h] using hf
  agrees {p} hp hstays := by
    rcases (r p).cases with ⟨c, m, h⟩ | h | h
    · have hnoted : (Attempt.choice r t p).failures = (r p).failures := failures_orElse_of_reads h
      have hstays' : w.Stays (r p) :=
        .of_reads h (hstays.reads_le (reads_choice.mpr (Or.inl h)))
          fun f hf => hstays.noted_le f (hnoted ▸ hf)
      rcases hr.agrees hp hstays' with heq | hparts
      · have h' : (r' p).Reads c m := heq.symm.trans h
        exact Or.inl ((orElse_of_reads h).trans (orElse_of_reads h').symm)
      · exact Or.inr (hparts.of_subset (hnoted ▸ List.Subset.refl _))
    · have hnoted : (Attempt.choice r t p).failures = (r p).failures ++ (t p).failures :=
        failures_orElse_of_fails h
      have hstays' : w.Stays (r p) :=
        .of_fails h fun f hf => hstays.noted_le f (hnoted ▸ List.mem_append_left _ hf)
      have hsecond : w.Stays (t p) :=
        ⟨fun ⟨i, hi⟩ => hstays.not_refuses ⟨i, (orElse_of_fails h).trans hi⟩,
          fun h' => hstays.reads_le (reads_choice.mpr (Or.inr ⟨h, h'⟩)),
          fun f hf => hstays.noted_le f (hnoted ▸ List.mem_append_right _ hf)⟩
      rcases hr.agrees hp hstays' with heq | hparts
      · have h' : (r' p).Fails := heq.symm.trans h
        rcases ht.agrees hp hsecond with heq' | hparts
        · exact Or.inl ((orElse_of_fails h).trans (heq'.trans (orElse_of_fails h').symm))
        · exact Or.inr (hparts.of_subset (hnoted ▸ List.subset_append_right _ _))
      · exact Or.inr (hparts.of_subset (hnoted ▸ List.subset_append_left _ _))
    · exact absurd (orElse_of_refuses h) hstays.not_refuses

/-- Of two alternatives, it is enough that one tells where it fails. -/
theorem Loud.choice (hr : r.Loud) : (choice r t).Loud := by
  intro p hfails
  rcases (r p).cases with ⟨c, m, h⟩ | h | h
  · exact absurd hfails (reads_choice.mpr (Or.inl h)).not_fails
  · obtain ⟨f, hf, hp⟩ := hr p h
    refine ⟨f, ?_, hp⟩
    exact (failures_orElse_of_fails h (u := t p)) ▸ List.mem_append_left _ hf
  · obtain ⟨i, hi⟩ := orElse_of_refuses (u := t p) h
    exact absurd (hi.symm.trans hfails) (by simp)

theorem Directs.choice (hr : Directs w L r r') (ht : Predicts w L t t') :
    Directs w L (choice r t) (choice r' t') where
  toPredicts := hr.toPredicts.choice ht
  loud := hr.loud.choice
  inhabited := hr.inhabited

/-- What may be left out does not fail. -/
theorem loud_optional : (optional r).Loud := by
  intro p hfails
  rcases (r p).cases with ⟨c, m, h⟩ | h | h
  · exact absurd hfails (reads_optional.mpr (Or.inl h)).not_fails
  · exact absurd hfails (reads_optional.mpr (Or.inr ⟨h, rfl, rfl⟩)).not_fails
  · obtain ⟨i, hi⟩ := orElse_of_refuses (u := Trace.pure (some ([], p))) h
    exact absurd (hi.symm.trans hfails) (by simp)

theorem Predicts.optional (hr : Predicts w L r r') :
    Directs w L.orNothing (optional r) (optional r') where
  toPredicts := (hr.mono fun _ _ => Or.inl).choice
    (directs_nothing.toPredicts.mono fun _ _ => Or.inr)
  loud := loud_optional
  inhabited := ⟨[], [], Or.inr ⟨rfl, rfl⟩⟩

/-! ### Repetitions -/

section Rounds

variable {n p m : Nat} {c : List V}

theorem failures_rounds_of_reads (h : (r p).Reads c m) (hpm : p < m) :
    (rounds r (n + 1) p).failures = (r p).failures ++ (rounds r n m).failures := by
  simp only [rounds, bind_ok h, if_pos hpm, failures_prepend]

theorem failures_rounds_of_still (h : (r p).Reads c m) (hpm : ¬ p < m) :
    (rounds r (n + 1) p).failures = (r p).failures := by
  simp only [rounds, bind_ok h, if_neg hpm]
  exact List.append_nil _

theorem result_rounds_of_still (h : (r p).Reads c m) (hpm : ¬ p < m) :
    (rounds r (n + 1) p).Reads [] p := by
  simp only [rounds, Reads, bind_ok h, if_neg hpm]
  rfl

theorem failures_rounds_of_fails (h : (r p).Fails) :
    (rounds r (n + 1) p).failures = (r p).failures := by
  simp only [rounds, bind_ok h]
  exact List.append_nil _

theorem not_fails_rounds : ∀ (n p : Nat), ¬ (rounds r n p).Fails
  | 0, p => by simp [rounds]
  | n + 1, p => by
    intro hfails
    rcases (r p).cases with ⟨c, m, h⟩ | h | h
    · by_cases hpm : p < m
      · rw [Fails, rounds_succ_of_reads h hpm] at hfails
        exact not_fails_rounds n m (fails_prepend.mp hfails)
      · exact (result_rounds_of_still h hpm).not_fails hfails
    · exact (rounds_of_fails h (n + 1)).not_fails hfails
    · obtain ⟨i, hi⟩ := rounds_succ_of_refuses h n
      exact absurd (hi.symm.trans hfails) (by simp)

end Rounds

theorem Predicts.foresees_rounds (hr : Predicts w L r r') : ∀ (n : Nat) {p : Nat},
    w.Fits L.Many p → ∀ f ∈ (rounds r n p).failures, w.Foresees f
  | 0, p, _, f, hf => by simp [rounds, Trace.pure] at hf
  | n + 1, p, hfits, f, hf => by
    have hfits' : w.Fits L p := hfits.of_imp fun ts c hts =>
      ⟨c ++ [], List.append_nil ts ▸ .cons hts .nil⟩
    rcases (r p).cases with ⟨c, m, h⟩ | h | ⟨i, h⟩
    · by_cases hpm : p < m
      · rcases List.mem_append.mp (failures_rounds_of_reads h hpm ▸ hf) with hf | hf
        · exact hr.foresees hfits' f hf
        · obtain ⟨ts, hts, hs⟩ := hr.reads h
          refine hr.foresees_rounds n ⟨hs.le_size hfits.1, fun us d hus => ?_⟩ f hf
          rw [hs.take_eq, List.append_assoc]
          exact hfits.2 _ _ (.cons hts hus)
      · exact hr.foresees hfits' f (failures_rounds_of_still h hpm ▸ hf)
    · exact hr.foresees hfits' f (failures_rounds_of_fails h ▸ hf)
    · refine hr.foresees hfits' f ?_
      simpa only [rounds, bind_error h] using hf

/-- Each row has its own bound on the rounds, and each bound is enough. -/
theorem Predicts.agrees_rounds (hr : Predicts w L r r') : ∀ (n n' : Nat) {p : Nat},
    w.tokens.size - p < n → w.others.size - p < n' → p ≤ w.common → w.Stays (rounds r n p) →
      (rounds r n p).result = (rounds r' n' p).result ∨ w.Parts (rounds r n p)
  | n + 1, n' + 1, p, hn, hn', hp, hstays => by
    have hcommon := w.common_le
    rcases (r p).cases with ⟨c, m, h⟩ | h | h
    · by_cases hpm : p < m
      · have hnoted := failures_rounds_of_reads (n := n) h hpm
        have hresult := rounds_succ_of_reads h hpm n
        have hsecond : w.Stays (rounds r n m) := by
          refine ⟨fun hrefuses => ?_, fun {d q} hread => ?_, fun f hf => ?_⟩
          · obtain ⟨i, hi⟩ := refuses_prepend (c := c) |>.mpr hrefuses
            exact hstays.not_refuses ⟨i, hresult.trans hi⟩
          · exact hstays.reads_le (hresult.trans (reads_prepend.mpr ⟨d, hread, rfl⟩))
          · exact hstays.noted_le f (hnoted ▸ List.mem_append_right _ hf)
        have hm : m ≤ w.common := by
          rcases (rounds r n m).cases with ⟨d, q, hread⟩ | hfails | hrefuses
          · exact Nat.le_trans ((hr.readsIn.rounds n).le hread) (hsecond.reads_le hread)
          · exact absurd hfails (not_fails_rounds n m)
          · exact absurd hrefuses hsecond.not_refuses
        have hstays' : w.Stays (r p) :=
          .of_reads h hm fun f hf => hstays.noted_le f (hnoted ▸ List.mem_append_left _ hf)
        rcases hr.agrees hp hstays' with heq | hparts
        · have h' : (r' p).Reads c m := heq.symm.trans h
          have hsize : m ≤ w.others.size := by
            have hlast : w.others[m - 1]? = w.tokens[m - 1]? := w.same _ (by omega)
            rw [Array.getElem?_eq_getElem (show m - 1 < w.tokens.size by omega)] at hlast
            have := (Array.getElem?_eq_some_iff.mp hlast).1
            omega
          rcases hr.agrees_rounds n n' (by omega) (by omega) hm hsecond with heq' | hparts
          · refine Or.inl (hresult.trans ?_)
            rw [rounds_succ_of_reads h' hpm n', result_prepend, result_prepend, heq']
          · exact Or.inr (hparts.of_subset (hnoted ▸ List.subset_append_right _ _))
        · exact Or.inr (hparts.of_subset (hnoted ▸ List.subset_append_left _ _))
      · have hnoted := failures_rounds_of_still (n := n) h hpm
        have hstays' : w.Stays (r p) :=
          .of_reads h (by omega) fun f hf => hstays.noted_le f (hnoted ▸ hf)
        rcases hr.agrees hp hstays' with heq | hparts
        · have h' : (r' p).Reads c m := heq.symm.trans h
          exact Or.inl ((result_rounds_of_still h hpm).trans (result_rounds_of_still h' hpm).symm)
        · exact Or.inr (hparts.of_subset (hnoted ▸ List.Subset.refl _))
    · have hnoted := failures_rounds_of_fails (n := n) h
      have hstays' : w.Stays (r p) :=
        .of_fails h fun f hf => hstays.noted_le f (hnoted ▸ hf)
      rcases hr.agrees hp hstays' with heq | hparts
      · have h' : (r' p).Fails := heq.symm.trans h
        exact Or.inl ((rounds_of_fails h _).trans (rounds_of_fails h' _).symm)
      · exact Or.inr (hparts.of_subset (hnoted ▸ List.Subset.refl _))
    · exact absurd (rounds_succ_of_refuses h n) hstays.not_refuses

/-- The rounds behind a first one, each place with its own bound. -/
theorem Predicts.rounds (hr : Predicts w L r r') : Directs w L.Many
    (fun p => rounds r (w.tokens.size - p + 1) p) (fun p => rounds r' (w.others.size - p + 1) p)
    where
  reads := hr.readsIn.rounds _ _ _ _
  foresees hfits := hr.foresees_rounds _ hfits
  agrees hp hstays := hr.agrees_rounds _ _ (by omega) (by omega) hp hstays
  loud p hfails := absurd hfails (not_fails_rounds _ _)
  inhabited := ⟨[], [], .nil⟩

theorem Predicts.star (hr : Predicts w L r r') :
    Directs w L.Many (star w.tokens r) (star w.others r') :=
  (hr.seq hr.rounds).optional.mono fun _ _ h => h.elim .of_followedBy fun ⟨hts, hc⟩ =>
    hts ▸ hc ▸ .nil

/-! ### Nodes and references -/

section Node

variable {tokens : Array Token} {reduce : Reducer V} {p m : Nat} {c : List V}

theorem failures_node : (node tokens r reduce p).failures = (r p).failures := by
  rcases (r p).cases with ⟨c, m, h⟩ | h | ⟨i, h⟩
  · exact (failures_andThen_of_reads h).trans (List.append_nil _)
  · exact failures_andThen_of_fails h
  · simp only [node, andThen, bind_error h]

theorem Loud.node (hr : r.Loud)
    (hreduce : ∀ {p c m}, (r p).Reads c m → ∃ v, reduce c ⟨tokens, p, m⟩ = some v) :
    (node tokens r reduce).Loud := by
  intro p hfails
  rcases (r p).cases with ⟨c, m, h⟩ | h | h
  · obtain ⟨v, hv⟩ := hreduce h
    exact absurd hfails (reads_node.mpr ⟨c, v, h, hv, rfl⟩).not_fails
  · rw [failures_node]
    exact hr p h
  · obtain ⟨i, hi⟩ := andThen_of_refuses (k := fun c m =>
      Trace.pure ((reduce c ⟨tokens, p, m⟩).map fun v => ([v], m))) h
    exact absurd (hi.symm.trans hfails) (by simp)

theorem Predicts.node (hr : Predicts w L r r') (hmakes : reduce.Makes L M) :
    Predicts w M (node w.tokens r reduce) (node w.others r' reduce) where
  reads := hr.readsIn.node hmakes _ _ _
  foresees hfits f hf := by
    rw [failures_node] at hf
    refine hr.foresees (hfits.of_imp fun ts c hts => ?_) f hf
    obtain ⟨v, hv, -⟩ := hmakes ts c hts
    exact ⟨[v], hv⟩
  agrees {p} hp hstays := by
    have hread : ∀ {c m}, (r p).Reads c m → ∃ v ts, Spans w.tokens p ts m ∧
        (Attempt.node w.tokens r reduce p).Reads [v] m ∧
        ∀ tokens, Spans tokens p ts m → reduce c ⟨tokens, p, m⟩ = some v := by
      intro c m h
      obtain ⟨ts, hts, hs⟩ := hr.reads h
      obtain ⟨v, -, hreduce⟩ := hmakes ts c hts
      exact ⟨v, ts, hs, reads_node.mpr ⟨c, v, h, hreduce _ _ _ hs, rfl⟩,
        fun tokens hs => hreduce tokens p m hs⟩
    have hstays' : w.Stays (r p) :=
      ⟨fun hrefuses => hstays.not_refuses (andThen_of_refuses hrefuses),
        fun h => (hread h).elim fun v ⟨ts, hv⟩ => hstays.reads_le hv.2.1,
        fun f hf => hstays.noted_le f (by rwa [failures_node])⟩
    rcases hr.agrees hp hstays' with heq | hparts
    · refine Or.inl ?_
      rcases (r p).cases with ⟨c, m, h⟩ | h | h
      · obtain ⟨v, ts, hs, hnode, hreduce⟩ := hread h
        have hsame : ∀ j, j < m → w.others[j]? = w.tokens[j]? := fun j hj =>
          w.same j (Nat.lt_of_lt_of_le hj (hstays'.reads_le h))
        exact hnode.trans (reads_node.mpr
          ⟨c, v, heq.symm.trans h, hreduce _ (hs.copy hsame), rfl⟩).symm
      · exact (fails_node h).trans (fails_node (heq.symm.trans h)).symm
      · exact absurd h hstays'.not_refuses
    · exact Or.inr (hparts.of_subset (by rw [failures_node]; exact List.Subset.refl _))

theorem Directs.node (hr : Directs w L r r') (hmakes : reduce.Makes L M) :
    Directs w M (node w.tokens r reduce) (node w.others r' reduce) where
  toPredicts := hr.toPredicts.node hmakes
  loud := hr.loud.node fun h => by
    obtain ⟨ts, hts, hs⟩ := hr.reads h
    obtain ⟨v, -, hreduce⟩ := hmakes ts _ hts
    exact ⟨v, hreduce _ _ _ hs⟩
  inhabited := by
    obtain ⟨ts, c, hts⟩ := hr.inhabited
    obtain ⟨v, hv, -⟩ := hmakes ts c hts
    exact ⟨ts, [v], hv⟩

end Node

theorem Predicts.memoized (h : Predicts w L r r') (key : ι) (levels : Nat) :
    Predicts w L (memoized key levels r) (memoized key levels r') :=
  ⟨h.reads, h.foresees, fun hp hstays =>
    h.agrees hp ⟨hstays.not_refuses, hstays.reads_le, hstays.noted_le⟩⟩

theorem Directs.memoized (h : Directs w L r r') (key : ι) (levels : Nat) :
    Directs w L (memoized key levels r) (memoized key levels r') :=
  ⟨h.toPredicts.memoized key levels, h.loud, h.inhabited⟩

theorem directs_refused (hL : ∃ ts c, L ts c) :
    Directs w L (Trace.refused : Attempt ι V) Trace.refused where
  reads h := by simp [Reads, refused] at h
  foresees _ f hf := by simp [refused] at hf
  agrees _ hstays := absurd ⟨_, rfl⟩ hstays.not_refuses
  loud p h := by simp [Fails, refused] at h
  inhabited := hL

end Attempt

/-! ### Rules -/

namespace Language

variable {V : Type}

def verbatim (text : String) : Language V := fun ts c => ∃ t, t.IsVerbatim text ∧ ts = [t] ∧ c = []

/-- One token of some sort, captured. -/
def single [Capture V] (sort : Token → Prop) : Language V := fun ts c =>
  ∃ t, sort t ∧ ts = [t] ∧ c = [Capture.ofToken t]

end Language

section Rules

variable {ι V : Type} [Capture V]

/-- What trying a rule comes to on the one row and on the other. -/
abbrev Rule.Predicts (w : Comparison) (levels : Nat) (target target' : Nat → Option (Attempt ι V))
    (L : Language V) (r : Rule ι V) : Prop :=
  Attempt.Predicts w L (r.trace w.tokens levels target) (r.trace w.others levels target')

abbrev Rule.Directs (w : Comparison) (levels : Nat) (target target' : Nat → Option (Attempt ι V))
    (L : Language V) (r : Rule ι V) : Prop :=
  Attempt.Directs w L (r.trace w.tokens levels target) (r.trace w.others levels target')

variable {w : Comparison} {levels : Nat} {target target' : Nat → Option (Attempt ι V)}
  {L M : Language V} {r : Rule ι V}

namespace Rule

theorem directs_verbatim (text : String) :
    (verbatim text : Rule ι V).Directs w levels target target' (.verbatim text) :=
  Attempt.directs_expecting
    (fun _ t _ h => ⟨t, Token.isVerbatim_iff.mp h, rfl, rfl⟩)
    (fun _ h => (Token.isVerbatim_iff.mp h).terminal_eq)
    (Token.IsVerbatim.terminal_eq
      (t := ⟨.verbatim, text, .text text, [], ⟨0, 0⟩, ⟨1, 1⟩⟩) ⟨rfl, rfl⟩)
    ⟨_, ⟨rfl, rfl⟩, rfl, rfl⟩

/-- Tokens of a kind, if all of that kind in the row are of the sort. -/
theorem directs_kind {k : TokenKind} (hk : k ≠ .verbatim) {sort : Token → Prop}
    (hsort : ∀ t ∈ w.tokens, t.kind = k → sort t) (sample : Token) (hsample : sort sample)
    (hkind : sample.kind = k) :
    (kind k : Rule ι V).Directs w levels target target' (.single sort) :=
  Attempt.directs_expecting
    (fun _ t ht h => ⟨t, hsort t (Array.mem_of_getElem? ht) (beq_iff_eq.mp h), rfl, rfl⟩)
    (fun _ h => Token.terminal_of_kind (beq_iff_eq.mp h) hk) (Token.terminal_of_kind hkind hk)
    ⟨sample, hsample, rfl, rfl⟩

theorem directs_all_nil :
    (all [] : Rule ι V).Directs w levels target target' .nothing :=
  Attempt.directs_nothing

theorem predicts_any : ∀ {rules : List (Rule ι V)},
    (∀ r ∈ rules, r.Predicts w levels target target' L) →
      (any rules).Predicts w levels target target' L
  | [], _ => .never
  | _ :: _, h => (h _ List.mem_cons_self).choice
    (predicts_any fun r hr => h r (List.mem_cons_of_mem _ hr))

theorem directs_any {rules : List (Rule ι V)} (hr : r ∈ rules)
    (h : ∀ r ∈ rules, r.Directs w levels target target' L) :
    (any rules).Directs w levels target target' L := by
  rcases rules with _ | ⟨first, rules⟩
  · simp at hr
  · exact (h first List.mem_cons_self).choice
      (predicts_any fun r hr => (h r (List.mem_cons_of_mem _ hr)).toPredicts)

end Rule

namespace Strategy

variable {strategy : Strategy} {key : ι} {reduce : Reducer V}

theorem predicts_node (h : r.Predicts w levels target target' L) (hmakes : reduce.Makes L M) :
    (strategy.node key r reduce).Predicts w levels target target' M := by
  rcases strategy with _ | _
  · exact h.node hmakes
  · exact (h.node hmakes).memoized key levels

theorem directs_node (h : r.Directs w levels target target' L) (hmakes : reduce.Makes L M) :
    (strategy.node key r reduce).Directs w levels target target' M := by
  rcases strategy with _ | _
  · exact h.node hmakes
  · exact (h.node hmakes).memoized key levels

end Strategy

end Rules

end Precedence
