import Precedence.Proofs.Rule.Trace

/-!
# The outcomes of rules

A trace reads something, fails, or is refused, and exactly one of these (`Trace.cases`). For each way
to build a rule it is told when the rule does which. `Trace.Settles` says of a trace that it reads
what it should if the levels suffice, and is refused if they do not.
-/

namespace Precedence

namespace Trace

variable {ι α β V : Type}

/-- The captures, and the place behind what is read. -/
def Reads (t : Trace ι (Outcome V)) (captures : List V) (stop : Nat) : Prop :=
  t.result = .ok (some (captures, stop))

def Fails (t : Trace ι (Outcome V)) : Prop := t.result = .ok none

def Refuses (t : Trace ι (Outcome V)) : Prop := ∃ i, t.result = .error i

theorem cases (t : Trace ι (Outcome V)) :
    (∃ captures stop, t.Reads captures stop) ∨ t.Fails ∨ t.Refuses := by
  rcases h : t.result with i | _ | ⟨captures, stop⟩
  · exact Or.inr (Or.inr ⟨i, h⟩)
  · exact Or.inr (Or.inl h)
  · exact Or.inl ⟨captures, stop, h⟩

variable {t u : Trace ι (Outcome V)} {captures captures' : List V} {stop stop' : Nat}

theorem Reads.unique (h : t.Reads captures stop) (h' : t.Reads captures' stop') :
    captures = captures' ∧ stop = stop' := by
  unfold Reads at h h'
  rw [h] at h'
  simpa using h'

theorem Reads.not_fails (h : t.Reads captures stop) : ¬ t.Fails := by
  intro h'
  unfold Reads at h
  rw [h'] at h
  simp at h

theorem Reads.not_refuses (h : t.Reads captures stop) : ¬ t.Refuses := by
  rintro ⟨i, h'⟩
  unfold Reads at h
  rw [h'] at h
  simp at h

@[simp] theorem reads_pure {o : Outcome V} :
    (pure o : Trace ι (Outcome V)).Reads captures stop ↔ o = some (captures, stop) := by
  simp [Reads, pure]

@[simp] theorem fails_pure {o : Outcome V} : (pure o : Trace ι (Outcome V)).Fails ↔ o = none := by
  simp [Fails, pure]

theorem fails_failing (p : Nat) (what : String) :
    (failing p what : Trace ι (Outcome V)).Fails := rfl

/-! ### One thing after another -/

variable {k : List V → Nat → Trace ι (Outcome V)}

theorem andThen_of_reads (h : t.Reads captures stop) :
    (t.andThen k).result = (k captures stop).result := by
  unfold andThen
  rw [bind_ok h]

theorem andThen_of_fails (h : t.Fails) : (t.andThen k).Fails := by
  unfold andThen Fails
  rw [bind_ok h]
  rfl

theorem andThen_of_refuses (h : t.Refuses) : (t.andThen k).Refuses := by
  obtain ⟨i, h⟩ := h
  exact ⟨i, by unfold andThen; rw [bind_error h]⟩

theorem reads_andThen : (t.andThen k).Reads captures stop ↔
    ∃ c m, t.Reads c m ∧ (k c m).Reads captures stop := by
  constructor
  · intro h
    rcases t.cases with ⟨c, m, ht⟩ | ht | ht
    · exact ⟨c, m, ht, by rw [Reads, ← andThen_of_reads ht]; exact h⟩
    · exact absurd (andThen_of_fails ht) h.not_fails
    · exact absurd (andThen_of_refuses ht) h.not_refuses
  · rintro ⟨c, m, ht, h⟩
    rw [Reads, andThen_of_reads ht]
    exact h

theorem orElse_of_reads (h : t.Reads captures stop) : (t.orElse u).Reads captures stop := by
  unfold orElse Reads
  rw [bind_ok h]
  rfl

theorem orElse_of_fails (h : t.Fails) : (t.orElse u).result = u.result := by
  unfold orElse
  rw [bind_ok h]

theorem orElse_of_refuses (h : t.Refuses) : (t.orElse u).Refuses := by
  obtain ⟨i, h⟩ := h
  exact ⟨i, by unfold orElse; rw [bind_error h]⟩

theorem reads_orElse : (t.orElse u).Reads captures stop ↔
    t.Reads captures stop ∨ t.Fails ∧ u.Reads captures stop := by
  constructor
  · intro h
    rcases t.cases with ⟨c, m, ht⟩ | ht | ht
    · obtain ⟨rfl, rfl⟩ := (orElse_of_reads (u := u) ht).unique h
      exact Or.inl ht
    · exact Or.inr ⟨ht, by rw [Reads, ← orElse_of_fails ht]; exact h⟩
    · exact absurd (orElse_of_refuses ht) h.not_refuses
  · rintro (h | ⟨ht, h⟩)
    · exact orElse_of_reads h
    · rw [Reads, orElse_of_fails ht]
      exact h

theorem reads_prepend {c : List V} : (t.bind fun o => pure (prepend c o)).Reads captures stop ↔
    ∃ c', t.Reads c' stop ∧ captures = c ++ c' := by
  rcases h : t.result with i | _ | ⟨c', m⟩
  · simp [Reads, bind_error h, h]
  · simp [Reads, bind_ok h, h, pure, prepend]
  · simp only [Reads, bind_ok h, h, pure, prepend, Option.map_some, Except.ok.injEq,
      Option.some.injEq, Prod.mk.injEq]
    constructor
    · rintro ⟨rfl, rfl⟩
      exact ⟨c', ⟨rfl, rfl⟩, rfl⟩
    · rintro ⟨_, ⟨rfl, rfl⟩, rfl⟩
      exact ⟨rfl, rfl⟩

theorem fails_prepend {c : List V} :
    (t.bind fun o => pure (prepend c o)).Fails ↔ t.Fails := by
  rcases t with ⟨_ | _ | _, _, _⟩ <;> simp [bind, Fails, pure, prepend]

theorem refuses_prepend {c : List V} :
    (t.bind fun o => pure (prepend c o)).Refuses ↔ t.Refuses := by
  rcases t with ⟨_ | _ | _, _, _⟩ <;> simp [bind, Refuses, pure]

/-! ### Where the levels decide -/

/-- The trace reads this if the levels are enough, and is refused otherwise. -/
def Settles (enough : Prop) (t : Trace ι (Outcome V)) (captures : List V) (stop : Nat) : Prop :=
  (enough → t.Reads captures stop) ∧ (¬ enough → t.Refuses)

variable {a b : Prop}

theorem Settles.of_reads (h : t.Reads captures stop) : Settles True t captures stop :=
  ⟨fun _ => h, fun h' => absurd trivial h'⟩

theorem Settles.not_fails (h : Settles a t captures stop) : ¬ t.Fails := by
  intro ht
  by_cases ha : a
  · exact (h.1 ha).not_fails ht
  · obtain ⟨i, hi⟩ := h.2 ha
    exact absurd (ht.symm.trans hi) (by simp)

theorem Settles.iff (h : Settles a t captures stop) (hab : a ↔ b) : Settles b t captures stop := by
  rw [← hab]
  exact h

theorem Settles.congr (h : Settles a t captures stop) (ht : t.result = u.result) :
    Settles a u captures stop := by
  unfold Settles Reads Refuses at h ⊢
  rw [← ht]
  exact h

theorem Settles.andThen (h : Settles a t captures stop)
    (h' : Settles b (k captures stop) captures' stop') :
    Settles (a ∧ b) (t.andThen k) captures' stop' := by
  constructor
  · rintro ⟨ha, hb⟩
    exact reads_andThen.mpr ⟨_, _, h.1 ha, h'.1 hb⟩
  · intro hab
    by_cases ha : a
    · obtain ⟨i, hi⟩ := h'.2 fun hb => hab ⟨ha, hb⟩
      exact ⟨i, by rw [andThen_of_reads (h.1 ha)]; exact hi⟩
    · exact andThen_of_refuses (h.2 ha)

theorem Settles.prepend (h : Settles a t captures stop) (c : List V) :
    Settles a (t.bind fun o => pure (prepend c o)) (c ++ captures) stop :=
  ⟨fun ha => reads_prepend.mpr ⟨_, h.1 ha, rfl⟩, fun ha => refuses_prepend.mpr (h.2 ha)⟩

theorem Settles.orElse_left (h : Settles a t captures stop) :
    Settles a (t.orElse u) captures stop :=
  ⟨fun ha => orElse_of_reads (h.1 ha), fun ha => orElse_of_refuses (h.2 ha)⟩

theorem Settles.orElse_right (ht : t.Fails) (h : Settles a u captures stop) :
    Settles a (t.orElse u) captures stop :=
  h.congr (orElse_of_fails ht).symm

end Trace

namespace Attempt

open Trace

variable {ι V : Type} {r t : Attempt ι V} {tokens : Array Token} {p q m : Nat}
  {captures captures' : List V} {a b : Prop}

section Expecting

variable {what : String} {wanted : Token → Bool} {capture : Token → List V}

theorem reads_expecting :
    (expecting tokens what wanted capture p : Trace ι (Outcome V)).Reads captures q ↔
    ∃ token, tokens[p]? = some token ∧ wanted token ∧ captures = capture token ∧ q = p + 1 := by
  unfold expecting
  rcases h : tokens[p]? with _ | token
  · simp [Reads, failing]
  · by_cases hw : wanted token
    · simp only [hw, if_true, reads_pure, Option.some.injEq, Prod.mk.injEq]
      constructor
      · rintro ⟨rfl, rfl⟩
        exact ⟨token, rfl, hw, rfl, rfl⟩
      · rintro ⟨_, rfl, -, rfl, rfl⟩
        exact ⟨rfl, rfl⟩
    · simp [hw, Reads, failing]

theorem fails_expecting (h : ∀ token, tokens[p]? = some token → ¬ wanted token) :
    (expecting tokens what wanted capture p : Trace ι (Outcome V)).Fails := by
  unfold expecting
  rcases hp : tokens[p]? with _ | token
  · exact fails_failing p what
  · simp only [h token hp, Bool.false_eq_true, if_false]
    exact fails_failing p what

end Expecting

theorem reads_seq : (seq r t p).Reads captures q ↔
    ∃ c m c', (r p).Reads c m ∧ (t m).Reads c' q ∧ captures = c ++ c' := by
  simp only [seq, reads_andThen, reads_prepend]
  constructor
  · rintro ⟨c, m, h, c', h', rfl⟩
    exact ⟨c, m, c', h, h', rfl⟩
  · rintro ⟨c, m, c', h, h', rfl⟩
    exact ⟨c, m, h, c', h', rfl⟩

theorem fails_seq_left (h : (r p).Fails) : (seq r t p).Fails :=
  andThen_of_fails h

theorem fails_seq_right (h : (r p).Reads captures m) (h' : (t m).Fails) : (seq r t p).Fails := by
  unfold seq Fails
  rw [andThen_of_reads h]
  exact fails_prepend.mpr h'

theorem settles_seq (h : Settles a (r p) captures m) (h' : Settles b (t m) captures' q) :
    Settles (a ∧ b) (seq r t p) (captures ++ captures') q :=
  h.andThen (k := fun c n => (t n).bind fun o => pure (Trace.prepend c o)) (h'.prepend captures)

theorem reads_choice : (choice r t p).Reads captures q ↔
    (r p).Reads captures q ∨ (r p).Fails ∧ (t p).Reads captures q :=
  reads_orElse

theorem fails_choice (h : (r p).Fails) (h' : (t p).Fails) : (choice r t p).Fails := by
  unfold choice Fails
  rw [orElse_of_fails h]
  exact h'

theorem reads_optional : (optional r p).Reads captures q ↔
    (r p).Reads captures q ∨ (r p).Fails ∧ captures = [] ∧ q = p := by
  unfold optional
  rw [reads_orElse]
  simp [eq_comm]

theorem settles_optional_none (h : (r p).Fails) : Settles True (optional r p) [] p :=
  .of_reads (reads_optional.mpr (Or.inr ⟨h, rfl, rfl⟩))

theorem reads_node {reduce : Reducer V} : (node tokens r reduce p).Reads captures q ↔
    ∃ c v, (r p).Reads c q ∧ reduce c ⟨tokens, p, q⟩ = some v ∧ captures = [v] := by
  simp only [node, reads_andThen, reads_pure, Option.map_eq_some_iff, Prod.mk.injEq]
  constructor
  · rintro ⟨c, m, h, v, hv, rfl, rfl⟩
    exact ⟨c, v, h, hv, rfl⟩
  · rintro ⟨c, v, h, hv, rfl⟩
    exact ⟨c, q, h, v, hv, rfl, rfl⟩

theorem fails_node {reduce : Reducer V} (h : (r p).Fails) : (node tokens r reduce p).Fails :=
  andThen_of_fails h

theorem settles_node {reduce : Reducer V} {v : V} (h : Settles a (r p) captures q)
    (hv : reduce captures ⟨tokens, p, q⟩ = some v) :
    Settles a (node tokens r reduce p) [v] q := by
  refine (h.andThen (b := True) (.of_reads ?_)).iff (and_iff_left trivial)
  simp [hv]

/-! ### Repetitions -/

theorem reads_plus : (plus tokens r p).Reads captures q ↔
    ∃ c m c', (r p).Reads c m ∧ (rounds r (tokens.size - m + 1) m).Reads c' q ∧
      captures = c ++ c' := by
  simp only [plus, reads_andThen, reads_prepend]
  constructor
  · rintro ⟨c, m, h, c', h', rfl⟩
    exact ⟨c, m, c', h, h', rfl⟩
  · rintro ⟨c, m, c', h, h', rfl⟩
    exact ⟨c, m, h, c', h', rfl⟩

theorem rounds_of_fails (h : (r p).Fails) (n : Nat) : (rounds r n p).Reads [] p := by
  unfold Fails at h
  rcases n with _ | n
  · simp [rounds]
  · simp only [rounds, Reads, bind_ok h]
    rfl

theorem rounds_succ_of_reads (h : (r p).Reads captures m) (hpm : p < m) (n : Nat) :
    (rounds r (n + 1) p).result =
      ((rounds r n m).bind fun o => Trace.pure (prepend captures o)).result := by
  unfold Reads at h
  simp only [rounds, bind_ok h, if_pos hpm]

theorem rounds_succ_of_refuses (h : (r p).Refuses) (n : Nat) : (rounds r (n + 1) p).Refuses := by
  obtain ⟨i, h⟩ := h
  exact ⟨i, by simp only [rounds, bind_error h]⟩

theorem settles_rounds_succ {n : Nat} (h : Settles a (r p) captures m) (hpm : p < m)
    (h' : Settles b (rounds r n m) captures' q) :
    Settles (a ∧ b) (rounds r (n + 1) p) (captures ++ captures') q := by
  constructor
  · rintro ⟨ha, hb⟩
    rw [Reads, rounds_succ_of_reads (h.1 ha) hpm]
    exact (h'.prepend captures).1 hb
  · intro hab
    by_cases ha : a
    · obtain ⟨i, hi⟩ := (h'.prepend captures).2 fun hb => hab ⟨ha, hb⟩
      exact ⟨i, by rw [rounds_succ_of_reads (h.1 ha) hpm]; exact hi⟩
    · exact rounds_succ_of_refuses (h.2 ha) n

/-- Zero or more. -/
def star (tokens : Array Token) (r : Attempt ι V) : Attempt ι V :=
  optional (plus tokens r)

/-- A repetition reads this, at its first round or at a later one. -/
def SettlesAgain (a : Prop) (tokens : Array Token) (r : Attempt ι V) (p : Nat) (captures : List V)
    (q : Nat) : Prop :=
  Settles a (star tokens r p) captures q ∧
    ∀ n, tokens.size - p < n → Settles a (rounds r n p) captures q

theorem SettlesAgain.iff (h : SettlesAgain a tokens r p captures q) (hab : a ↔ b) :
    SettlesAgain b tokens r p captures q := by
  rw [← hab]
  exact h

theorem settlesAgain_done (h : (r p).Fails) : SettlesAgain True tokens r p [] p :=
  ⟨settles_optional_none (andThen_of_fails h), fun n _ => .of_reads (rounds_of_fails h n)⟩

theorem settlesAgain_next (h : Settles a (r p) captures m) (hpm : p < m) (hm : m ≤ tokens.size)
    (h' : SettlesAgain b tokens r m captures' q) :
    SettlesAgain (a ∧ b) tokens r p (captures ++ captures') q := by
  refine ⟨Settles.orElse_left (h.andThen (k := fun c n => (rounds r (tokens.size - n + 1) n).bind
    fun o => Trace.pure (prepend c o)) ((h'.2 _ (by omega)).prepend captures)), fun n hn => ?_⟩
  obtain ⟨n, rfl⟩ : ∃ k, n = k + 1 := ⟨n - 1, by omega⟩
  exact settles_rounds_succ h hpm (h'.2 n (by omega))

section Induction

variable {P : Nat → List V → Nat → Prop} (done : ∀ p, P p [] p)
  (next : ∀ p c m c' q, (r p).Reads c m → P m c' q → P p (c ++ c') q)

include done next

theorem rounds_induction : ∀ {n p : Nat} {c : List V} {q : Nat}, (rounds r n p).Reads c q → P p c q
  | 0, p, c, q, h => by
    simp only [rounds, reads_pure, Option.some.injEq, Prod.mk.injEq] at h
    obtain ⟨rfl, rfl⟩ := h
    exact done p
  | n + 1, p, c, q, h => by
    rcases (r p).cases with ⟨c', m, hr⟩ | hr | hr
    · by_cases hpm : p < m
      · rw [Reads, rounds_succ_of_reads hr hpm] at h
        obtain ⟨c'', h', rfl⟩ := reads_prepend.mp h
        exact next _ _ _ _ _ hr (rounds_induction h')
      · unfold Reads at hr
        simp only [rounds, Reads, bind_ok hr, if_neg hpm] at h
        obtain ⟨rfl, rfl⟩ := (reads_pure.mp h : some ([], p) = some (c, q))
        exact done p
    · obtain ⟨rfl, rfl⟩ := (rounds_of_fails hr (n + 1)).unique h
      exact done p
    · exact absurd (rounds_succ_of_refuses hr n) h.not_refuses

theorem star_induction {p : Nat} {c : List V} {q : Nat} (h : (star tokens r p).Reads c q) :
    P p c q := by
  rcases reads_optional.mp h with h | ⟨-, rfl, rfl⟩
  · obtain ⟨c, m, c', hr, h', rfl⟩ := reads_plus.mp h
    exact next _ _ _ _ _ hr (rounds_induction done next h')
  · exact done q

end Induction

end Attempt

end Precedence
