import Mathlib.Tactic.SplitIfs
import Precedence.Regex.Basic

/-!
# What an expression reads

`Regex.Reads r s t` says that `r` can read from the place `s` up to `t`, in whatever order of
preference. The search for a match finds only such places (`Regex.find_sound`), and where there are
no repetitions it finds one if there is any (`Regex.find_complete`). What an expression reads begins
with one of its `Regex.heads` (`Regex.Reads.begins`), and does not go beyond the text
(`Regex.Reads.forward`).
-/

namespace Precedence.Regex

/-- So many rounds of a relation. -/
def Rounds (R : Spot → Spot → Prop) : Nat → Spot → Spot → Prop
  | 0, s, t => t = s
  | n + 1, s, t => ∃ m, R s m ∧ Rounds R n m t

def Reads : Regex → Spot → Spot → Prop
  | empty, s, t => t = s
  | char set, s, t => ∃ c rest, s.rest = c :: rest ∧ set.contains c ∧ t = s.advance c rest
  | assertion a, s, t => a.holds s.before s.rest.head? ∧ t = s
  | seq r q, s, t => ∃ m, Reads r s m ∧ Reads q m t
  | alt r q, s, t => Reads r s t ∨ Reads q s t
  | group i r, s, t => ∃ m, Reads r s m ∧ t = m.close i s.used
  | repeated _ least most r, s, t =>
    ∃ n, least ≤ n ∧ (∀ m ∈ most, n ≤ max least m) ∧ Rounds (Reads r) n s t

/-! ### The search finds only what is read -/

theorem Rounds.append {R : Spot → Spot → Prop} : ∀ {n n' : Nat} {s m t : Spot},
    Rounds R n s m → Rounds R n' m t → Rounds R (n + n') s t
  | 0, _, _, _, _, rfl, h' => by rwa [Nat.zero_add]
  | n + 1, n', _, _, _, ⟨m, hm, h⟩, h' => by
    rw [show n + 1 + n' = n + n' + 1 by omega]
    exact ⟨m, hm, h.append h'⟩

section Search

variable {α : Type} {body : Search α} {R : Spot → Spot → Prop}
  (hbody : ∀ (k : Spot → Option α) (s : Spot) (x : α), body k s = some x →
    ∃ t, R s t ∧ k t = some x)

include hbody

theorem exactly_sound : ∀ {n : Nat} {k : Spot → Option α} {s : Spot} {x : α},
    Search.exactly body n k s = some x → ∃ t, Rounds R n s t ∧ k t = some x
  | 0, _, s, _, h => ⟨s, rfl, h⟩
  | n + 1, _, _, _, h => by
    obtain ⟨m, hm, h⟩ := hbody _ _ _ h
    obtain ⟨t, ht, hk⟩ := exactly_sound h
    exact ⟨t, ⟨m, hm, ht⟩, hk⟩

omit hbody in
theorem prefer_some {first : Bool} {a b : Unit → Option α} {x : α}
    (h : Search.prefer first a b = some x) : a () = some x ∨ b () = some x := by
  unfold Search.prefer at h
  rcases first with _ | _
  · simp only [Bool.false_eq_true, if_false, Option.orElse_eq_orElse, Option.orElse_eq_or,
      Option.or_eq_some_iff] at h
    rcases h with h | ⟨-, h⟩
    · exact Or.inr h
    · exact Or.inl h
  · simp only [if_true, Option.orElse_eq_orElse, Option.orElse_eq_or, Option.or_eq_some_iff] at h
    rcases h with h | ⟨-, h⟩
    · exact Or.inl h
    · exact Or.inr h

theorem atMost_sound {greedy : Bool} : ∀ {n : Nat} {k : Spot → Option α} {s : Spot} {x : α},
    Search.atMost greedy body n k s = some x → ∃ n' ≤ n, ∃ t, Rounds R n' s t ∧ k t = some x
  | 0, _, s, _, h => ⟨0, Nat.le_refl 0, s, rfl, h⟩
  | n + 1, k, s, _, h => by
    rw [Search.atMost] at h
    rcases prefer_some h with h | h
    · obtain ⟨m, hm, h⟩ := hbody _ _ _ h
      obtain ⟨n', hn', t, ht, hk⟩ := atMost_sound h
      exact ⟨n' + 1, Nat.succ_le_succ hn', t, ⟨m, hm, ht⟩, hk⟩
    · exact ⟨0, Nat.zero_le _, s, rfl, h⟩

theorem many_sound {greedy : Bool} {k : Spot → Option α} : ∀ {n : Nat} {s : Spot} {x : α},
    Search.many greedy body k n s = some x → ∃ n' t, Rounds R n' s t ∧ k t = some x
  | 0, s, _, h => ⟨0, s, rfl, h⟩
  | n + 1, s, _, h => by
    rcases prefer_some h with h | h
    · obtain ⟨m, hm, h⟩ := hbody _ _ _ h
      by_cases hlt : s.used < m.used
      · rw [if_pos hlt] at h
        obtain ⟨n', t, ht, hk⟩ := many_sound h
        exact ⟨n' + 1, t, ⟨m, hm, ht⟩, hk⟩
      · simp [if_neg hlt] at h
    · exact ⟨0, s, rfl, h⟩

theorem plus_sound {greedy : Bool} {k : Spot → Option α} {s : Spot} {x : α}
    (h : Search.plus greedy body k s = some x) : ∃ n t, Rounds R (n + 1) s t ∧ k t = some x := by
  obtain ⟨m, hm, h⟩ := hbody _ _ _ h
  by_cases hlt : s.used < m.used
  · rw [if_pos hlt] at h
    obtain ⟨n, t, ht, hk⟩ := many_sound hbody h
    exact ⟨n, t, ⟨m, hm, ht⟩, hk⟩
  · rw [if_neg hlt] at h
    exact ⟨0, m, ⟨m, hm, rfl⟩, h⟩

end Search

/-- Each place on a run is reached by rounds of the set, no more than the limit admits. -/
theorem mem_run {set : CharSet} {limit : Option Nat} {rest : List Char} {s : Spot}
    {behind : List Spot} {t : Spot} (hs : s.rest = rest) (h : t ∈ s.run set limit rest behind) :
    t ∈ behind ∨ ∃ n, (∀ m ∈ limit, n ≤ m) ∧ Rounds (Reads (char set)) n s t := by
  fun_induction Spot.run set limit rest s behind with
  | case1 rest s behind =>
    rcases List.mem_cons.mp h with rfl | h
    · exact Or.inr ⟨0, by simp, rfl⟩
    · exact Or.inl h
  | case2 limit s behind hlimit =>
    rcases List.mem_cons.mp h with rfl | h
    · exact Or.inr ⟨0, by simp, rfl⟩
    · exact Or.inl h
  | case3 limit c rest s behind hlimit hc ih =>
    rcases ih rfl h with h | ⟨n, hn, hr⟩
    · rcases List.mem_cons.mp h with rfl | h
      · exact Or.inr ⟨0, by simp, rfl⟩
      · exact Or.inl h
    · refine Or.inr ⟨n + 1, fun m hm => ?_, s.advance c rest, ⟨c, rest, hs, hc, rfl⟩, hr⟩
      have hpos : m ≠ 0 := fun h0 => hlimit (by rw [← h0]; exact hm)
      have := hn (m - 1) (by rw [Option.mem_def.mp hm]; rfl)
      omega
  | case4 limit c rest s behind hlimit hc =>
    rcases List.mem_cons.mp h with rfl | h
    · exact Or.inr ⟨0, by simp, rfl⟩
    · exact Or.inl h

theorem chars_sound {α : Type} {greedy : Bool} {set : CharSet} {limit : Option Nat}
    {k : Spot → Option α} {s : Spot} {x : α} (h : Search.chars greedy set limit k s = some x) :
    ∃ n t, (∀ m ∈ limit, n ≤ m) ∧ Rounds (Reads (char set)) n s t ∧ k t = some x := by
  unfold Search.chars at h
  obtain ⟨t, ht, hk⟩ := List.exists_of_findSome?_eq_some h
  have hrun : t ∈ s.run set limit s.rest [] := by
    split_ifs at ht
    · exact ht
    · exact List.mem_reverse.mp ht
  rcases mem_run rfl hrun with h | ⟨n, hn, hr⟩
  · simp at h
  · exact ⟨n, t, hn, hr, hk⟩

section Repeated

variable {α : Type} {greedy : Bool} {least most : Nat} {r : Regex} (hr : ∀ set, r ≠ char set)
  (k : Spot → Option α) (s : Spot)

include hr

theorem find_repeated_some : find (repeated greedy least (some most) r) k s =
    Search.exactly (find r) least (Search.atMost greedy (find r) (most - least) k) s := by
  cases r with
  | char set => exact absurd rfl (hr set)
  | _ => rfl

theorem find_repeated_zero : find (repeated greedy 0 none r) k s =
    Search.prefer greedy (fun _ => Search.plus greedy (find r) k s) (fun _ => k s) := by
  cases r with
  | char set => exact absurd rfl (hr set)
  | _ => rfl

theorem find_repeated_succ : find (repeated greedy (least + 1) none r) k s =
    Search.exactly (find r) least (Search.plus greedy (find r) k) s := by
  cases r with
  | char set => exact absurd rfl (hr set)
  | _ => rfl

end Repeated

/-- A search that finds something has read up to a place that the continuation accepts. -/
theorem find_sound {α : Type} : ∀ (r : Regex) (k : Spot → Option α) (s : Spot) (x : α),
    find r k s = some x → ∃ t, Reads r s t ∧ k t = some x
  | empty, k, s, x, h => ⟨s, rfl, h⟩
  | char set, k, s, x, h => by
    unfold find at h
    split at h
    · next c rest hs =>
      split_ifs at h with hc
      exact ⟨_, ⟨c, rest, hs, hc, rfl⟩, h⟩
    · simp at h
  | assertion a, k, s, x, h => by
    unfold find at h
    split_ifs at h with ha
    exact ⟨s, ⟨ha, rfl⟩, h⟩
  | seq r q, k, s, x, h => by
    obtain ⟨m, hm, h⟩ := find_sound r _ s x h
    obtain ⟨t, ht, hk⟩ := find_sound q _ m x h
    exact ⟨t, ⟨m, hm, ht⟩, hk⟩
  | alt r q, k, s, x, h => by
    unfold find at h
    rw [Option.orElse_eq_orElse, Option.orElse_eq_or, Option.or_eq_some_iff] at h
    rcases h with h | ⟨-, h⟩
    · obtain ⟨t, ht, hk⟩ := find_sound r _ s x h
      exact ⟨t, Or.inl ht, hk⟩
    · obtain ⟨t, ht, hk⟩ := find_sound q _ s x h
      exact ⟨t, Or.inr ht, hk⟩
  | group i r, k, s, x, h => by
    obtain ⟨m, hm, hk⟩ := find_sound r _ s x h
    exact ⟨_, ⟨m, hm, rfl⟩, hk⟩
  | repeated greedy least most r, k, s, x, h => by
    by_cases hr : ∃ set, r = char set
    · obtain ⟨set, rfl⟩ := hr
      obtain ⟨m, hm, h⟩ := exactly_sound (find_sound (char set)) h
      obtain ⟨n, t, hn, ht, hk⟩ := chars_sound h
      refine ⟨t, ⟨least + n, Nat.le_add_right _ _, fun b hb => ?_, hm.append ht⟩, hk⟩
      have := hn (b - least) (by rw [Option.mem_def.mp hb]; rfl)
      omega
    have hchar : ∀ set, r ≠ char set := fun set hs => hr ⟨set, hs⟩
    rcases most with _ | most
    · rcases least with _ | least
      · rw [find_repeated_zero hchar] at h
        rcases prefer_some h with h | h
        · obtain ⟨n, t, ht, hk⟩ := plus_sound (find_sound r) h
          exact ⟨t, ⟨n + 1, Nat.zero_le _, by simp, ht⟩, hk⟩
        · exact ⟨s, ⟨0, Nat.le_refl 0, by simp, rfl⟩, h⟩
      · rw [find_repeated_succ hchar] at h
        obtain ⟨m, hm, h⟩ := exactly_sound (find_sound r) h
        obtain ⟨n, t, ht, hk⟩ := plus_sound (find_sound r) h
        exact ⟨t, ⟨least + (n + 1), by omega, by simp, hm.append ht⟩, hk⟩
    · rw [find_repeated_some hchar] at h
      obtain ⟨m, hm, h⟩ := exactly_sound (find_sound r) h
      obtain ⟨n, hn, t, ht, hk⟩ := atMost_sound (find_sound r) h
      refine ⟨t, ⟨least + n, Nat.le_add_right _ _, fun b hb => ?_, hm.append ht⟩, hk⟩
      obtain rfl := Option.some.inj hb
      omega

/-! ### Where nothing is repeated, the search finds what can be read -/

/-- Without a repetition in it. -/
def plain : Regex → Bool
  | empty | char _ | assertion _ => true
  | seq r q | alt r q => plain r && plain q
  | group _ r => plain r
  | repeated .. => false

theorem find_complete {α : Type} : ∀ (r : Regex) (k : Spot → Option α) (s t : Spot),
    r.plain = true → Reads r s t → (k t).isSome → (find r k s).isSome
  | empty, k, s, t, _, h, hk => by
    obtain rfl : t = s := h
    exact hk
  | char set, k, s, t, _, ⟨c, rest, hs, hc, ht⟩, hk => by
    unfold find
    rw [hs]
    show (if set.contains c = true then _ else _ : Option α).isSome = true
    rwa [if_pos hc, ← ht]
  | assertion a, k, s, t, _, ⟨ha, ht⟩, hk => by
    unfold find
    rwa [if_pos ha, ← ht]
  | seq r q, k, s, t, hp, ⟨m, hm, ht⟩, hk => by
    obtain ⟨hr, hq⟩ := (Bool.and_eq_true _ _).mp hp
    exact find_complete r _ s m hr hm (find_complete q k m t hq ht hk)
  | alt r q, k, s, t, hp, h, hk => by
    obtain ⟨hr, hq⟩ := (Bool.and_eq_true _ _).mp hp
    unfold find
    rw [Option.orElse_eq_orElse, Option.orElse_eq_or, Option.isSome_or, Bool.or_eq_true]
    rcases h with h | h
    · exact Or.inl (find_complete r k s t hr h hk)
    · exact Or.inr (find_complete q k s t hq h hk)
  | group i r, k, s, t, hp, ⟨m, hm, ht⟩, hk => by
    subst ht
    exact find_complete r _ s m hp hm hk
  | repeated .., _, _, _, hp, _, _ => by simp [plain] at hp

/-! ### How what is read begins -/

/-- Whether an expression can read nothing. -/
def nullable : Regex → Bool
  | empty | assertion _ => true
  | char _ => false
  | seq r q => nullable r && nullable q
  | alt r q => nullable r || nullable q
  | group _ r => nullable r
  | repeated _ least _ r => least == 0 || nullable r

/-- The characters with which what an expression reads can begin. -/
def heads : Regex → CharSet
  | empty | assertion _ => .empty
  | char set => set
  | seq r q => if nullable r then .union (heads r) (heads q) else heads r
  | alt r q => .union (heads r) (heads q)
  | group _ r => heads r
  | repeated _ _ _ r => heads r

/-- Nothing is read, or something of which the first character is one of the set. -/
def Begins (set : CharSet) (nullable : Bool) (s t : Spot) : Prop :=
  (nullable = true ∧ t.used = s.used ∧ t.rest = s.rest) ∨
    s.used < t.used ∧ ∃ c rest, s.rest = c :: rest ∧ set.contains c = true

theorem Begins.used_le {set : CharSet} {nullable : Bool} {s t : Spot}
    (h : Begins set nullable s t) : s.used ≤ t.used := by
  rcases h with ⟨-, hused, -⟩ | ⟨hused, -⟩
  · exact Nat.le_of_eq hused.symm
  · exact Nat.le_of_lt hused

theorem Begins.trans {set set' : CharSet} {n n' : Bool} {s m t : Spot} (h : Begins set n s m)
    (h' : Begins set' n' m t) :
    Begins (if n then .union set set' else set) (n && n') s t := by
  rcases h with ⟨hn, hused, hrest⟩ | ⟨hused, c, rest, hs, hc⟩
  · rw [if_pos hn, hn, Bool.true_and]
    rcases h' with ⟨hn', hused', hrest'⟩ | ⟨hused', c, rest, hs, hc⟩
    · exact Or.inl ⟨hn', hused'.trans hused, hrest'.trans hrest⟩
    · refine Or.inr ⟨by rwa [← hused], c, rest, by rw [← hrest, hs], ?_⟩
      rw [CharSet.contains, hc, Bool.or_true]
  · refine Or.inr ⟨Nat.lt_of_lt_of_le hused h'.used_le, c, rest, hs, ?_⟩
    split_ifs
    · rw [CharSet.contains, hc, Bool.true_or]
    · exact hc

theorem Begins.mono {set set' : CharSet} {n n' : Bool} {s t : Spot} (h : Begins set n s t)
    (hset : ∀ c, set.contains c = true → set'.contains c = true) (hn : n = true → n' = true) :
    Begins set' n' s t := by
  rcases h with ⟨h, hused, hrest⟩ | ⟨hused, c, rest, hs, hc⟩
  · exact Or.inl ⟨hn h, hused, hrest⟩
  · exact Or.inr ⟨hused, c, rest, hs, hset c hc⟩

theorem Rounds.begins {set : CharSet} {nullable : Bool} {R : Spot → Spot → Prop}
    (hR : ∀ s t, R s t → Begins set nullable s t) :
    ∀ {n : Nat} {s t : Spot}, Rounds R n s t → Begins set (n == 0 || nullable) s t
  | 0, _, _, rfl => Or.inl ⟨rfl, rfl, rfl⟩
  | n + 1, s, t, ⟨m, hm, h⟩ => by
    rw [show (n + 1 == 0) = false from rfl, Bool.false_or]
    have ih := h.begins hR
    rcases hR s m hm with ⟨hn, hused, hrest⟩ | ⟨hused, hc⟩
    · rcases ih with ⟨-, hused', hrest'⟩ | ⟨hused', c, rest, hs, hc⟩
      · exact Or.inl ⟨hn, hused'.trans hused, hrest'.trans hrest⟩
      · exact Or.inr ⟨by rwa [← hused], c, rest, by rw [← hrest, hs], hc⟩
    · exact Or.inr ⟨Nat.lt_of_lt_of_le hused ih.used_le, hc⟩

theorem Reads.begins : ∀ (r : Regex) (s t : Spot), Reads r s t → Begins r.heads r.nullable s t
  | empty, _, _, rfl => Or.inl ⟨rfl, rfl, rfl⟩
  | char _, s, _, ⟨c, rest, hs, hc, ht⟩ => Or.inr ⟨ht ▸ Nat.lt_succ_self s.used, c, rest, hs, hc⟩
  | assertion _, _, _, ⟨_, rfl⟩ => Or.inl ⟨rfl, rfl, rfl⟩
  | seq r q, s, t, ⟨m, hm, ht⟩ => (begins r s m hm).trans (begins q m t ht)
  | alt r q, s, t, Or.inl h =>
    (begins r s t h).mono (fun c hc => by rw [heads, CharSet.contains, hc, Bool.true_or])
      fun hn => by rw [nullable, hn, Bool.true_or]
  | alt r q, s, t, Or.inr h =>
    (begins q s t h).mono (fun c hc => by rw [heads, CharSet.contains, hc, Bool.or_true])
      fun hn => by rw [nullable, hn, Bool.or_true]
  | group _ r, s, _, ⟨m, hm, rfl⟩ => begins r s m hm
  | repeated _ least _ r, s, t, ⟨n, hn, _, h⟩ => by
    refine (h.begins (begins r)).mono (fun _ hc => hc) fun h0 => ?_
    rw [Bool.or_eq_true, beq_iff_eq] at h0
    rw [nullable, Bool.or_eq_true, beq_iff_eq]
    exact h0.imp_left fun h0 => by omega

/-! ### Reading goes forward -/

/-- Behind something that was read, its last character is the one in front. -/
theorem getLast?_or {w : List Char} (hne : w ≠ []) (before : Option Char) :
    w.getLast?.or before = w.getLast? := by
  rw [List.getLast?_eq_some_getLast hne, Option.some_or]

/-- Reading goes forward within the text, and the groups that it closes lie in what it reads. -/
structure Forward (s t : Spot) : Prop where
  used_le : s.used ≤ t.used
  length : t.used + t.rest.length = s.used + s.rest.length
  groups : ∀ g ∈ t.groups, g ∈ s.groups ∨ s.used ≤ g.2.1 ∧ g.2.1 ≤ g.2.2 ∧ g.2.2 ≤ t.used

theorem Forward.refl (s : Spot) : Forward s s :=
  ⟨Nat.le_refl _, rfl, fun _ hg => Or.inl hg⟩

theorem Forward.trans {s m t : Spot} (h : Forward s m) (h' : Forward m t) : Forward s t := by
  refine ⟨Nat.le_trans h.used_le h'.used_le, h'.length.trans h.length, fun g hg => ?_⟩
  have hused := h.used_le
  have hused' := h'.used_le
  rcases h'.groups g hg with hg | hg
  · exact (h.groups g hg).imp_right fun hin => ⟨hin.1, hin.2.1, Nat.le_trans hin.2.2 hused'⟩
  · exact Or.inr ⟨Nat.le_trans hused hg.1, hg.2⟩

theorem Forward.close {s m : Spot} (h : Forward s m) (index : Nat) :
    Forward s (m.close index s.used) := by
  refine ⟨h.used_le, h.length, fun g hg => ?_⟩
  rcases List.mem_cons.mp hg with rfl | hg
  · exact Or.inr ⟨Nat.le_refl _, h.used_le, Nat.le_refl _⟩
  · exact h.groups g hg

theorem Rounds.forward {R : Spot → Spot → Prop} (hR : ∀ s t, R s t → Forward s t) :
    ∀ {n : Nat} {s t : Spot}, Rounds R n s t → Forward s t
  | 0, s, _, rfl => .refl s
  | _ + 1, s, _, ⟨m, hm, h⟩ => (hR s m hm).trans (h.forward hR)

theorem Reads.forward : ∀ (r : Regex) (s t : Spot), Reads r s t → Forward s t
  | empty, s, _, rfl => .refl s
  | char _, s, _, ⟨c, rest, hs, _, rfl⟩ =>
    ⟨Nat.le_succ _, by rw [hs, List.length_cons]; exact Nat.succ_add_eq_add_succ _ _,
      fun _ hg => Or.inl hg⟩
  | assertion _, s, _, ⟨_, rfl⟩ => .refl s
  | seq r q, s, t, ⟨m, hm, ht⟩ => (forward r s m hm).trans (forward q m t ht)
  | alt r _, s, t, Or.inl h => forward r s t h
  | alt _ q, s, t, Or.inr h => forward q s t h
  | group i r, s, _, ⟨m, hm, rfl⟩ => (forward r s m hm).close i
  | repeated _ _ _ r, _, _, ⟨_, _, _, h⟩ => h.forward (forward r)

end Precedence.Regex
