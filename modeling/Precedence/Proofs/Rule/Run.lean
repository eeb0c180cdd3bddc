import Mathlib.Tactic.SplitIfs
import Precedence.Proofs.Rule.Cases
import Precedence.Proofs.Rule.Outcome

/-!
# Running a rule does what its trace says

A run from a state with levels left arrives where the trace says, with its failures noted in order,
or leaves the place of the refusal in the state (`RuleGraph.run_follows`). That holds with a table of
earlier outcomes too, provided that each visit of a memoized rule agrees with one answer for its key
and place: what the table holds is that answer, and its failures are noted already, so that noting
them again changes nothing (`FailureRecord.note_of_holds`).
-/

namespace Precedence

/-- The furthest failures: their place, and what was expected there. -/
structure FailureRecord where
  furthest : Nat
  expected : List String

namespace FailureRecord

def note (r : FailureRecord) (failure : Nat × String) : FailureRecord :=
  if r.furthest < failure.1 then ⟨failure.1, [failure.2]⟩
  else if failure.1 = r.furthest && !r.expected.contains failure.2 then
    ⟨r.furthest, r.expected ++ [failure.2]⟩
  else r

def noteAll (r : FailureRecord) (failures : List (Nat × String)) : FailureRecord :=
  failures.foldl note r

/-- The failure is noted, or one further on is. -/
def Holds (r : FailureRecord) (failure : Nat × String) : Prop :=
  failure.1 < r.furthest ∨ failure.1 = r.furthest ∧ failure.2 ∈ r.expected

variable {r : FailureRecord} {f f' : Nat × String} {failures failures' : List (Nat × String)}

theorem note_of_holds (h : r.Holds f) : r.note f = r := by
  unfold note
  rcases h with h | ⟨h, h'⟩
  · rw [if_neg (by omega), if_neg (by simp; omega)]
  · rw [if_neg (by omega), if_neg (by simp [h'])]

theorem holds_note (r : FailureRecord) (f : Nat × String) : (r.note f).Holds f := by
  unfold note Holds
  split_ifs with h h'
  · exact Or.inr ⟨rfl, by simp⟩
  · simp only [Bool.and_eq_true, decide_eq_true_eq] at h'
    exact Or.inr ⟨h'.1, by simp⟩
  · simp only [Bool.and_eq_true, decide_eq_true_eq, not_and, Bool.not_eq_true',
      Bool.not_eq_false, List.contains_iff_mem] at h'
    by_cases he : f.1 = r.furthest
    · exact Or.inr ⟨he, h' he⟩
    · exact Or.inl (by omega)

theorem Holds.note (h : r.Holds f) (f' : Nat × String) : (r.note f').Holds f := by
  unfold FailureRecord.note
  unfold Holds at h ⊢
  split_ifs with h' h''
  · exact Or.inl (by simp only; omega)
  · rcases h with h | ⟨h, he⟩
    · exact Or.inl h
    · exact Or.inr ⟨h, by simp [he]⟩
  · exact h

theorem noteAll_append :
    r.noteAll (failures ++ failures') = (r.noteAll failures).noteAll failures' :=
  List.foldl_append

theorem Holds.noteAll (h : r.Holds f) : (r.noteAll failures).Holds f := by
  induction failures generalizing r with
  | nil => exact h
  | cons f' failures ih => exact ih (h.note f')

theorem holds_noteAll (hf : f ∈ failures) : (r.noteAll failures).Holds f := by
  induction failures generalizing r with
  | nil => simp at hf
  | cons f' failures ih =>
    rcases List.mem_cons.mp hf with rfl | hf
    · exact (holds_note r f).noteAll
    · exact ih hf

theorem Holds.le (h : r.Holds f) : f.1 ≤ r.furthest :=
  h.elim Nat.le_of_lt fun h => Nat.le_of_eq h.1

theorem furthest_note : (r.note f).furthest = max r.furthest f.1 := by
  unfold note
  split_ifs with h
  · exact (Nat.max_eq_right (Nat.le_of_lt h)).symm
  · exact (Nat.max_eq_left (Nat.le_of_not_lt h)).symm
  · exact (Nat.max_eq_left (Nat.le_of_not_lt h)).symm

theorem furthest_noteAll :
    (r.noteAll failures).furthest = max r.furthest (noteAll ⟨0, []⟩ failures).furthest := by
  induction failures generalizing r with
  | nil => exact (Nat.max_zero _).symm
  | cons f failures ih =>
    have hr : (r.noteAll (f :: failures)).furthest = _ := ih (r := r.note f)
    have hstart : (noteAll ⟨0, []⟩ (f :: failures)).furthest = _ := ih (r := note ⟨0, []⟩ f)
    rw [hr, hstart, furthest_note, furthest_note, Nat.zero_max, Nat.max_assoc]

/-- What is expected was noted at the furthest place, or was on record before and is no further. -/
theorem mem_of_mem_expected {what : String} (h : what ∈ (r.noteAll failures).expected) :
    ((r.noteAll failures).furthest, what) ∈ failures ∨
      (r.noteAll failures).furthest = r.furthest ∧ what ∈ r.expected := by
  induction failures generalizing r with
  | nil => exact Or.inr ⟨rfl, h⟩
  | cons f failures ih =>
    rcases ih h with h | ⟨h, hwhat⟩
    · exact Or.inl (List.mem_cons_of_mem _ h)
    · rw [noteAll, List.foldl_cons, ← noteAll, h]
      unfold note at hwhat ⊢
      split_ifs at hwhat ⊢ with h₁ h₂
      · obtain rfl := List.mem_singleton.mp hwhat
        exact Or.inl List.mem_cons_self
      · simp only [Bool.and_eq_true, decide_eq_true_eq] at h₂
        rcases List.mem_append.mp hwhat with hwhat | hwhat
        · exact Or.inr ⟨rfl, hwhat⟩
        · obtain rfl := List.mem_singleton.mp hwhat
          exact Or.inl (h₂.1 ▸ List.mem_cons_self)
      · exact Or.inr ⟨rfl, hwhat⟩

theorem nodup_noteAll (h : r.expected.Nodup) : (r.noteAll failures).expected.Nodup := by
  induction failures generalizing r with
  | nil => exact h
  | cons f failures ih =>
    refine ih ?_
    unfold note
    split_ifs with h₁ h₂
    · simp
    · simp only [Bool.and_eq_true, Bool.not_eq_true', List.contains_eq_mem,
        decide_eq_false_iff_not] at h₂
      exact List.nodup_append.mpr ⟨h, by simp, by
        rintro what hwhat _ hother rfl
        exact h₂.2 (List.mem_singleton.mp hother ▸ hwhat)⟩
    · exact h

theorem note_expected_ne_nil (h : r.expected ≠ [] ∨ r.furthest ≤ f.1) :
    (r.note f).expected ≠ [] := by
  unfold note
  split_ifs with h₁ h₂
  · simp
  · simp
  · rcases h with h | h
    · exact h
    · intro hnil
      exact h₂ (by simp [hnil, Nat.le_antisymm (Nat.le_of_not_lt h₁) h])

/-- If anything was noted, then something at the furthest place. -/
theorem exists_mem_furthest (hf : f ∈ failures) :
    ∃ what, ((noteAll ⟨0, []⟩ failures).furthest, what) ∈ failures := by
  have hkept : ∀ (failures : List (Nat × String)) (r : FailureRecord), r.expected ≠ [] →
      (r.noteAll failures).expected ≠ [] := by
    intro failures
    induction failures with
    | nil => exact fun r h => h
    | cons f failures ih => exact fun r h => ih _ (note_expected_ne_nil (Or.inl h))
  obtain ⟨what, hwhat⟩ : ∃ what, what ∈ (noteAll ⟨0, []⟩ failures).expected := by
    rcases failures with _ | ⟨first, failures⟩
    · simp at hf
    · exact List.exists_mem_of_ne_nil _ (hkept failures _ (note_expected_ne_nil
        (Or.inr (Nat.zero_le _))))
  rcases mem_of_mem_expected hwhat with h | ⟨-, h⟩
  · exact ⟨what, h⟩
  · simp at h

theorem noteAll_of_holds (h : ∀ f ∈ failures, r.Holds f) : r.noteAll failures = r := by
  induction failures with
  | nil => rfl
  | cons f failures ih =>
    unfold noteAll
    rw [List.foldl_cons, note_of_holds (h f List.mem_cons_self)]
    exact ih fun f' hf' => h f' (List.mem_cons_of_mem _ hf')

end FailureRecord

variable {ι V : Type} [BEq ι] [Hashable ι]

namespace ParseState

def record (s : ParseState ι V) : FailureRecord := ⟨s.furthest, s.expected⟩

/-- The state with other failures on record, the cursor elsewhere and another table. -/
def moved (s : ParseState ι V) (record : FailureRecord) (position : Nat)
    (memo : Option (MemoTable ι V)) : ParseState ι V :=
  { s with furthest := record.furthest, expected := record.expected, position, memo }

/-- The table holds nothing but the given answers, the failures of which are on record. -/
def Faithful (answer : ι → Attempt ι V) (s : ParseState ι V) : Prop :=
  ∀ table, s.memo = some table → ∀ key p o, table[(key, p)]? = some o →
    (answer key p).result = .ok o ∧ ∀ f ∈ (answer key p).failures, s.record.Holds f

/-- Nothing was refused yet, and as many levels are left. -/
structure Ready (answer : ι → Attempt ι V) (tokens : Array Token) (levels : Nat)
    (s : ParseState ι V) : Prop where
  tokens_eq : s.tokens = tokens
  overflow_eq : s.overflow = none
  depth_add : s.depth + levels = nestingLimit
  faithful : s.Faithful answer

variable {answer : ι → Attempt ι V} {s : ParseState ι V}

theorem recordFailure_eq (s : ParseState ι V) (what : String) :
    s.recordFailure what = s.moved (s.record.note (s.position, what)) s.position s.memo := by
  rw [show s.record = ⟨s.furthest, s.expected⟩ from rfl]
  unfold recordFailure FailureRecord.note
  by_cases h : s.furthest < s.position
  · rw [if_pos h, if_pos h]
    rfl
  · rw [if_neg h, if_neg h]
    by_cases h' : s.position = s.furthest && !s.expected.contains what
    · rw [if_pos h', if_pos h']
      rfl
    · rw [if_neg h', if_neg h']
      rfl

/-- Entering a level moves nothing, and records no failure. -/
theorem enterNested_still (s : ParseState ι V) :
    s.enterNested.2.tokens = s.tokens ∧ s.enterNested.2.position = s.position ∧
      s.enterNested.2.record = s.record := by
  unfold enterNested
  split_ifs <;> exact ⟨rfl, rfl, rfl⟩

/-- At the beginning of a parse nothing is in the table. -/
theorem start_ready (answer : ι → Attempt ι V) (tokens : Array Token) (strategy : Strategy) :
    (strategy.start tokens).Ready answer tokens nestingLimit := by
  cases strategy <;> exact ⟨rfl, rfl, rfl, remembers_start _ tokens⟩

/-- A level was refused at that place. -/
def Refused (tokens : Array Token) (i : Nat) (s : ParseState ι V) : Prop :=
  s.overflow = some i ∧ s.tokens = tokens

theorem Refused.recordFailure {tokens : Array Token} {i : Nat} (h : s.Refused tokens i)
    (what : String) : (s.recordFailure what).Refused tokens i := by
  rw [recordFailure_eq]
  exact h

theorem Ready.restore {answer : ι → Attempt ι V} {tokens : Array Token} {levels : Nat}
    {s : ParseState ι V} (h : s.Ready answer tokens levels) (p : Nat) :
    (s.restore p).Ready answer tokens levels :=
  ⟨h.tokens_eq, h.overflow_eq, h.depth_add, h.faithful⟩

theorem Ready.moved {tokens : Array Token} {levels : Nat} (h : s.Ready answer tokens levels)
    {record : FailureRecord} {position : Nat} {memo : Option (MemoTable ι V)}
    (hf : (s.moved record position memo).Faithful answer) :
    (s.moved record position memo).Ready answer tokens levels :=
  ⟨h.tokens_eq, h.overflow_eq, h.depth_add, hf⟩

end ParseState

namespace Recognizer

/-- Once a level was refused, that stays in the state. -/
def KeepsRefusal (r : Recognizer ι V) : Prop :=
  ∀ s tokens i, s.Refused tokens i → (r s).2.Refused tokens i

section KeepsRefusal

variable {r t : Recognizer ι V}

theorem keepsRefusal_expecting (what : String) (wanted : Token → Bool)
    (capture : Token → List V) :
    KeepsRefusal (expecting what wanted capture : Recognizer ι V) := by
  intro s tokens i h
  rcases expecting_cases what wanted capture s with ⟨_, -, -, hout⟩ | ⟨-, hout⟩ <;> rw [hout]
  · exact h
  · exact h.recordFailure what

theorem KeepsRefusal.seq (hr : KeepsRefusal r) (ht : KeepsRefusal t) :
    KeepsRefusal (seq r t) := by
  intro s tokens i h
  have h' := hr s tokens i h
  unfold Recognizer.seq
  generalize r s = out at h' ⊢
  rcases out with ⟨_ | captures, s'⟩
  · exact h'
  · have h'' := ht s' tokens i h'
    simp only
    generalize t s' = out at h'' ⊢
    rcases out with ⟨_ | more, s''⟩
    · exact h''
    · exact h''

theorem KeepsRefusal.choice (hr : KeepsRefusal r) (ht : KeepsRefusal t) :
    KeepsRefusal (choice r t) := by
  intro s tokens i h
  have h' := hr s tokens i h
  unfold Recognizer.choice
  generalize r s = out at h' ⊢
  rcases out with ⟨_ | captures, s'⟩
  · have h'' := ht (s'.restore s.position) tokens i h'
    simp only
    generalize t (s'.restore s.position) = out at h'' ⊢
    rcases out with ⟨_ | more, s''⟩
    · exact h''
    · exact h''
  · exact h'

theorem KeepsRefusal.rounds (hr : KeepsRefusal r) : ∀ (n : Nat) (s : ParseState ι V)
    (tokens : Array Token) (i : Nat), s.Refused tokens i → (rounds r n s).2.Refused tokens i
  | 0, _, _, _, h => h
  | n + 1, s, tokens, i, h => by
    have h' := hr s tokens i h
    unfold Recognizer.rounds
    generalize r s = out at h' ⊢
    rcases out with ⟨_ | captures, s'⟩
    · exact h'
    · simp only
      by_cases hp : s.position < s'.position
      · rw [if_pos hp]
        exact KeepsRefusal.rounds hr n s' tokens i h'
      · rw [if_neg hp]
        exact h'

theorem KeepsRefusal.plus (hr : KeepsRefusal r) : KeepsRefusal (plus r) := by
  intro s tokens i h
  have h' := hr s tokens i h
  unfold Recognizer.plus
  generalize r s = out at h' ⊢
  rcases out with ⟨_ | captures, s'⟩
  · exact h'
  · exact hr.rounds _ s' tokens i h'

theorem KeepsRefusal.optional (hr : KeepsRefusal r) : KeepsRefusal (optional r) := by
  intro s tokens i h
  have h' := hr s tokens i h
  unfold Recognizer.optional
  generalize r s = out at h' ⊢
  rcases out with ⟨_ | captures, s'⟩
  · exact h'
  · exact h'

theorem KeepsRefusal.node (hr : KeepsRefusal r) (reduce : Reducer V) :
    KeepsRefusal (node r reduce) := by
  intro s tokens i h
  have h' := hr s tokens i h
  unfold Recognizer.node
  generalize r s = out at h' ⊢
  rcases out with ⟨_ | captures, s'⟩
  · exact h'
  · simp only
    rcases reduce captures ⟨s'.tokens, s.position, s'.position⟩ with _ | value
    · exact h'
    · exact h'

theorem KeepsRefusal.memoized (hr : KeepsRefusal r) (key : ι) :
    KeepsRefusal (memoized key r) := by
  intro s tokens i h
  rcases memoized_cases key r s with
    ⟨-, hout⟩ | ⟨-, -, hout⟩ | ⟨-, -, hout⟩ | ⟨_, _, -, -, hout⟩ <;> rw [hout]
  · exact hr s tokens i h
  · exact hr s tokens i h
  · exact h
  · exact h

theorem keepsRefusal_reference (target : Option (Recognizer ι V)) :
    KeepsRefusal (reference target) := by
  intro s tokens i h
  unfold reference
  rcases target with _ | r
  · exact h
  · simp only [ParseState.enterNested, h.1, Option.isSome_some, if_true]
    exact h

end KeepsRefusal

/-- The outcome with its failures noted, and nothing else changed but the table. -/
structure Arrives (answer : ι → Attempt ι V) (s : ParseState ι V) (o : Outcome V)
    (failures : List (Nat × String)) (out : Option (List V) × ParseState ι V) : Prop where
  result_eq : out.1 = o.map Prod.fst
  state_eq : out.2 =
    s.moved (s.record.noteAll failures) ((o.map Prod.snd).getD s.position) out.2.memo
  faithful : out.2.Faithful answer
  isMemoizing_eq : out.2.isMemoizing = s.isMemoizing

/-- What comes out is what the trace says. -/
structure Agrees (answer : ι → Attempt ι V) (s : ParseState ι V) (t : Trace ι (Outcome V))
    (out : Option (List V) × ParseState ι V) : Prop where
  arrives : ∀ o, t.result = .ok o → Arrives answer s o t.failures out
  refused : ∀ i, t.result = .error i → out.2.Refused s.tokens i

/-- Trying `r` with that many levels left does what `a` says, if all visits are good ones. -/
def Follows (answer : ι → Attempt ι V) (tokens : Array Token) (levels : Nat)
    (good : Visit ι → Prop) (r : Recognizer ι V) (a : Attempt ι V) : Prop :=
  ∀ s, s.Ready answer tokens levels →
    (s.isMemoizing → ∀ v ∈ (a s.position).visits, good v) → Agrees answer s (a s.position) (r s)

section Follows

variable {answer : ι → Attempt ι V} {tokens : Array Token} {levels : Nat} {good : Visit ι → Prop}
  {s : ParseState ι V} {o : Outcome V} {failures : List (Nat × String)}
  {t u : Trace ι (Outcome V)} {out out' : Option (List V) × ParseState ι V}

theorem Arrives.position_eq (h : Arrives answer s o failures out) :
    out.2.position = (o.map Prod.snd).getD s.position := by
  rw [h.state_eq]
  rfl

/-- It fails with the cursor where it was, or reads up to the cursor. -/
theorem Arrives.cases (h : Arrives answer s o failures out) :
    (∃ s', o = none ∧ out = (none, s') ∧ s'.position = s.position) ∨
      ∃ captures s', o = some (captures, s'.position) ∧ out = (some captures, s') := by
  have hposition := h.position_eq
  rcases out with ⟨result, s'⟩
  obtain rfl : result = o.map Prod.fst := h.result_eq
  rcases o with _ | ⟨captures, m⟩
  · exact Or.inl ⟨s', rfl, rfl, hposition⟩
  · obtain rfl : s'.position = m := hposition
    exact Or.inr ⟨captures, s', rfl, rfl⟩

theorem Arrives.restore_eq (h : Arrives answer s none failures out) :
    out.2.restore s.position = out.2 := by
  rw [show s.position = out.2.position from h.position_eq.symm]
  rfl

theorem Arrives.tokens_eq (h : Arrives answer s o failures out) : out.2.tokens = s.tokens := by
  rw [h.state_eq]
  rfl

theorem Arrives.ready (h : Arrives answer s o failures out) (hs : s.Ready answer tokens levels) :
    out.2.Ready answer tokens levels := by
  have hf := h.faithful
  rw [h.state_eq] at hf ⊢
  exact hs.moved hf

theorem arrives_never (hs : s.Faithful answer) : Arrives answer s none [] (none, s) :=
  ⟨rfl, rfl, hs, rfl⟩

theorem arrives_nothing (hs : s.Faithful answer) :
    Arrives answer s (some ([], s.position)) [] (some [], s) :=
  ⟨rfl, rfl, hs, rfl⟩

/-- Putting the cursor back, as for a failure. -/
theorem Arrives.back (h : Arrives answer s o failures out) :
    Arrives answer s none failures (none, out.2.restore s.position) :=
  ⟨rfl, congrArg (ParseState.restore · s.position) h.state_eq, h.faithful, h.isMemoizing_eq⟩

/-- Reading nothing instead. -/
theorem Arrives.instead (h : Arrives answer s o failures out) :
    Arrives answer s (some ([], s.position)) failures (some [], out.2.restore s.position) :=
  ⟨rfl, congrArg (ParseState.restore · s.position) h.state_eq, h.faithful, h.isMemoizing_eq⟩

/-- What was arrived at is turned into something else, and the cursor put back after a failure. -/
theorem Arrives.andThen (h : Arrives answer s o failures out) (h' : Agrees answer out.2 u out')
    {g : Outcome V → Outcome V} {result : Except Nat (Outcome V)} (hr : result = u.result.map g)
    {visits : List (Visit ι)} {finish : Option (List V) × ParseState ι V}
    (hg : ∀ o', Arrives answer out.2 o' u.failures out' → finish = ((g o').map Prod.fst,
      out'.2.restore (((g o').map Prod.snd).getD s.position)))
    (ho : ∀ i, out'.2.Refused s.tokens i → finish.2.Refused s.tokens i) :
    Agrees answer s ⟨result, failures ++ u.failures, visits⟩ finish := by
  subst hr
  rcases hu : u.result with i | o'
  · refine ⟨fun o hi => absurd hi (by simp [Except.map]), fun j hj => ?_⟩
    obtain rfl : i = j := by simpa [Except.map] using hj
    exact ho i (h.tokens_eq ▸ h'.refused i hu)
  · refine ⟨fun o'' ho'' => ?_, fun i hi => absurd hi (by simp [Except.map])⟩
    obtain rfl : g o' = o'' := by simpa [Except.map] using ho''
    have h'' := h'.arrives o' hu
    rw [hg o' h'']
    refine ⟨rfl, ?_, h''.faithful, h''.isMemoizing_eq.trans h.isMemoizing_eq⟩
    rw [FailureRecord.noteAll_append, h''.state_eq, h.state_eq]
    rfl

/-- After a refusal, it is enough that the place stays in the state. -/
theorem Agrees.bind (h : Agrees answer s t out) {k : Outcome V → Trace ι (Outcome V)}
    (refused : ∀ i, out.2.Refused s.tokens i → out'.2.Refused s.tokens i)
    (ok : ∀ o, t.result = .ok o → Arrives answer s o t.failures out →
      Agrees answer s (t.bind k) out') : Agrees answer s (t.bind k) out' := by
  rcases ht : t.result with i | o
  · rw [Trace.bind_error ht]
    refine ⟨fun o hi => absurd hi (by simp), fun j hj => ?_⟩
    obtain rfl : i = j := by simpa using hj
    exact refused i (h.refused i ht)
  · exact ok o ht (h.arrives o ht)

variable {r q : Recognizer ι V} {a b : Attempt ι V}

theorem Agrees.of_ok (ht : t.result = .ok o) (h : Arrives answer s o t.failures out) :
    Agrees answer s t out := by
  refine ⟨fun o' ho => ?_, fun i hi => absurd (ht.symm.trans hi) (by simp)⟩
  obtain rfl : o = o' := by simpa using ht.symm.trans ho
  exact h

theorem Arrives.agrees (h : Arrives answer s o failures out) (visits : List (Visit ι)) :
    Agrees answer s ⟨.ok o, failures ++ [], visits⟩ out :=
  .of_ok rfl (by rw [List.append_nil]; exact h)

theorem follows_expecting (what : String) (wanted : Token → Bool) (capture : Token → List V) :
    Follows answer tokens levels good (expecting what wanted capture)
      (Attempt.expecting tokens what wanted capture) := by
  intro s hs _
  have hfail : Agrees answer s (Trace.failing s.position what) (none, s.recordFailure what) := by
    have : Arrives answer s none [(s.position, what)] (none, s.recordFailure what) := by
      rw [s.recordFailure_eq]
      exact ⟨rfl, rfl, fun table htable key p o hget =>
        ⟨(hs.faithful table htable key p o hget).1, fun f hf =>
          ((hs.faithful table htable key p o hget).2 f hf).note _⟩, rfl⟩
    exact this.agrees []
  unfold expecting Attempt.expecting ParseState.peek
  rw [hs.tokens_eq]
  rcases tokens[s.position]? with _ | token
  · exact hfail
  · by_cases hw : wanted token
    · simp only [if_pos hw]
      have : Arrives answer s (some (capture token, s.position + 1)) []
          (some (capture token), s.restore (s.position + 1)) :=
        ⟨rfl, rfl, hs.faithful, rfl⟩
      exact this.agrees []
    · simp only [if_neg hw]
      exact hfail

theorem Follows.seq (hr : Follows answer tokens levels good r a)
    (hq : Follows answer tokens levels good q b) (kq : KeepsRefusal q) :
    Follows answer tokens levels good (seq r q) (Attempt.seq a b) := by
  intro s hs hv
  have h := hr s hs fun m v hv' => hv m v (Trace.mem_visits_bind_left hv')
  unfold Recognizer.seq
  generalize r s = out at h ⊢
  refine h.bind (fun i hi => ?_) fun o ho ha => ?_
  · rcases out with ⟨_ | captures, s'⟩
    · exact hi
    · have := kq s' _ i hi
      simp only
      generalize q s' = out' at this ⊢
      rcases out' with ⟨_ | more, s''⟩
      · exact this
      · exact this
  · rw [Trace.bind_ok ho]
    rcases ha.cases with ⟨s', rfl, rfl, -⟩ | ⟨captures, s', rfl, rfl⟩
    · exact ha.back.agrees _
    · have h' := hq s' (ha.ready hs) fun m v hv' =>
        hv (ha.isMemoizing_eq ▸ m) v
          (Trace.mem_visits_bind_right ho (Trace.mem_visits_bind_left hv'))
      simp only [Trace.bind_map]
      generalize q s' = out' at h' ⊢
      refine ha.andThen h' rfl (fun o' ho' => ?_) fun i hi => ?_
      · rcases ho'.cases with ⟨s'', rfl, rfl, -⟩ | ⟨more, s'', rfl, rfl⟩ <;> rfl
      · rcases out' with ⟨_ | more, s''⟩
        · exact hi
        · exact hi

theorem Follows.choice (hr : Follows answer tokens levels good r a)
    (hq : Follows answer tokens levels good q b) (kq : KeepsRefusal q) :
    Follows answer tokens levels good (choice r q) (Attempt.choice a b) := by
  intro s hs hv
  have h := hr s hs fun m v hv' => hv m v (Trace.mem_visits_bind_left hv')
  unfold Recognizer.choice
  generalize r s = out at h ⊢
  refine h.bind (fun i hi => ?_) fun o ho ha => ?_
  · rcases out with ⟨_ | captures, s'⟩
    · have := kq (s'.restore s.position) _ i hi
      simp only
      generalize q (s'.restore s.position) = out' at this ⊢
      rcases out' with ⟨_ | more, s''⟩
      · exact this
      · exact this
    · exact hi
  · rw [Trace.bind_ok ho]
    rcases ha.cases with ⟨s', rfl, rfl, hp⟩ | ⟨captures, s', rfl, rfl⟩
    · have h' := hq s' (ha.ready hs) fun m v hv' =>
        hv (ha.isMemoizing_eq ▸ m) v (Trace.mem_visits_bind_right ho (hp ▸ hv'))
      rw [hp] at h'
      simp only [ha.restore_eq]
      generalize q s' = out' at h' ⊢
      refine ha.andThen h' (g := id) (by rcases (b s.position).result <;> rfl)
        (fun o' ho' => ?_) fun i hi => ?_
      · rcases ho'.cases with ⟨s'', rfl, rfl, -⟩ | ⟨more, s'', rfl, rfl⟩ <;> rfl
      · rcases out' with ⟨_ | more, s''⟩
        · exact hi
        · exact hi
    · exact ha.agrees _

theorem Follows.optional (hr : Follows answer tokens levels good r a) :
    Follows answer tokens levels good (optional r) (Attempt.optional a) := by
  intro s hs hv
  have h := hr s hs fun m v hv' => hv m v (Trace.mem_visits_bind_left hv')
  unfold Recognizer.optional
  generalize r s = out at h ⊢
  refine h.bind (fun i hi => ?_) fun o ho ha => ?_
  · rcases out with ⟨_ | captures, s'⟩
    · exact hi
    · exact hi
  · rw [Trace.bind_ok ho]
    rcases ha.cases with ⟨s', rfl, rfl, -⟩ | ⟨captures, s', rfl, rfl⟩
    · exact ha.instead.agrees _
    · exact ha.agrees _

theorem Follows.rounds (hr : Follows answer tokens levels good r a) (kr : KeepsRefusal r) :
    ∀ (n : Nat) (s : ParseState ι V), s.Ready answer tokens levels →
      (s.isMemoizing → ∀ v ∈ (Attempt.rounds a n s.position).visits, good v) →
      Agrees answer s (Attempt.rounds a n s.position)
        (some (rounds r n s).1, (rounds r n s).2)
  | 0, _, hs, _ => (arrives_nothing hs.faithful).agrees []
  | n + 1, s, hs, hv => by
    have h := hr s hs fun m v hv' => hv m v (Trace.mem_visits_bind_left hv')
    unfold Recognizer.rounds
    generalize r s = out at h ⊢
    refine h.bind (fun i hi => ?_) fun o ho ha => ?_
    · rcases out with ⟨_ | captures, s'⟩
      · exact hi
      · simp only
        by_cases hp : s.position < s'.position
        · rw [if_pos hp]
          exact kr.rounds n s' _ i hi
        · rw [if_neg hp]
          exact hi
    · rw [Trace.bind_ok ho]
      rcases ha.cases with ⟨s', rfl, rfl, -⟩ | ⟨captures, s', rfl, rfl⟩
      · exact ha.instead.agrees _
      · simp only
        by_cases hp : s.position < s'.position
        · have h' := hr.rounds kr n s' (ha.ready hs) fun m v hv' =>
            hv (ha.isMemoizing_eq ▸ m) v (Trace.mem_visits_bind_right ho (by
              simp only [if_pos hp]
              exact Trace.mem_visits_bind_left hv'))
          simp only [if_pos hp, Trace.bind_map]
          refine ha.andThen h' rfl (fun o' ho' => ?_) fun i hi => hi
          rcases o' with _ | ⟨more, m⟩
          · exact absurd ho'.result_eq (by simp)
          · obtain rfl : (Recognizer.rounds r n s').2.position = m := ho'.position_eq
            have hm : (Recognizer.rounds r n s').1 = more := by simpa using ho'.result_eq
            simp only [Trace.prepend, Option.map_some, Option.getD_some, hm]
            rfl
        · simp only [if_neg hp]
          exact ha.instead.agrees _

theorem Follows.plus (hr : Follows answer tokens levels good r a) (kr : KeepsRefusal r) :
    Follows answer tokens levels good (plus r) (Attempt.plus tokens a) := by
  intro s hs hv
  have h := hr s hs fun m v hv' => hv m v (Trace.mem_visits_bind_left hv')
  unfold Recognizer.plus
  generalize r s = out at h ⊢
  refine h.bind (fun i hi => ?_) fun o ho ha => ?_
  · rcases out with ⟨_ | captures, s'⟩
    · exact hi
    · exact kr.rounds _ s' _ i hi
  · rw [Trace.bind_ok ho]
    rcases ha.cases with ⟨s', rfl, rfl, -⟩ | ⟨captures, s', rfl, rfl⟩
    · exact ha.agrees _
    · have htokens : s'.tokens = tokens := (ha.ready hs).tokens_eq
      have h' := hr.rounds kr (s'.tokens.size - s'.position + 1) s' (ha.ready hs) fun m v hv' =>
        hv (ha.isMemoizing_eq ▸ m) v (Trace.mem_visits_bind_right ho (by
          rw [htokens] at hv'
          exact Trace.mem_visits_bind_left hv'))
      rw [htokens] at h'
      simp only [Trace.bind_map, htokens]
      refine ha.andThen h' rfl (fun o' ho' => ?_) fun i hi => hi
      rcases o' with _ | ⟨more, m⟩
      · exact absurd ho'.result_eq (by simp)
      · obtain rfl := ho'.position_eq
        obtain rfl : _ = more := by simpa using ho'.result_eq
        rfl

theorem Follows.node (hr : Follows answer tokens levels good r a) (reduce : Reducer V) :
    Follows answer tokens levels good (node r reduce) (Attempt.node tokens a reduce) := by
  intro s hs hv
  have h := hr s hs fun m v hv' => hv m v (Trace.mem_visits_bind_left hv')
  unfold Recognizer.node
  generalize r s = out at h ⊢
  refine h.bind (fun i hi => ?_) fun o ho ha => ?_
  · rcases out with ⟨_ | captures, s'⟩
    · exact hi
    · simp only
      rcases reduce captures ⟨s'.tokens, s.position, s'.position⟩ with _ | value
      · exact hi
      · exact hi
  · rw [Trace.bind_ok ho]
    rcases ha.cases with ⟨s', rfl, rfl, -⟩ | ⟨captures, s', rfl, rfl⟩
    · exact ha.agrees _
    · have htokens : s'.tokens = tokens := (ha.ready hs).tokens_eq
      simp only [htokens]
      rcases reduce captures ⟨tokens, s.position, s'.position⟩ with _ | value
      · exact ha.back.agrees _
      · have : Arrives answer s (some ([value], s'.position)) (a s.position).failures
            (some [value], s') :=
          ⟨rfl, ha.state_eq, ha.faithful, ha.isMemoizing_eq⟩
        exact this.agrees _

theorem Follows.reference_zero (r : Option (Recognizer ι V)) {target : Option (Attempt ι V)}
    (ht : target = r.map fun _ => Trace.refused) :
    Follows answer tokens 0 good (reference r) (Attempt.reference target) := by
  subst ht
  intro s hs hv
  rcases r with _ | r
  · exact (arrives_never hs.faithful).agrees []
  · have hd : nestingLimit ≤ s.depth := Nat.le_of_eq hs.depth_add.symm
    have ho : s.overflow.isSome = false := by rw [hs.overflow_eq]; rfl
    simp only [reference, ParseState.enterNested, ho, Bool.false_eq_true, if_false, if_pos hd,
      Option.map_some, Attempt.reference]
    exact ⟨fun o h => absurd h (by simp [Trace.refused]),
      fun i hi => ⟨by simpa [Trace.refused] using hi, rfl⟩⟩

theorem Follows.reference_succ {r : Option (Recognizer ι V)} {target : Option (Attempt ι V)}
    (h : ∀ x, r = some x → ∃ y, target = some y ∧ Follows answer tokens levels good x y)
    (hn : r = none → target = none) :
    Follows answer tokens (levels + 1) good (reference r) (Attempt.reference target) := by
  intro s hs hv
  rcases r with _ | r
  · rw [hn rfl]
    exact (arrives_never hs.faithful).agrees []
  · obtain ⟨y, rfl, hy⟩ := h r rfl
    have ho : s.overflow.isSome = false := by rw [hs.overflow_eq]; rfl
    have hd : ¬ nestingLimit ≤ s.depth := by
      have := hs.depth_add
      omega
    simp only [reference, ParseState.enterNested, ho, Bool.false_eq_true, if_false, if_neg hd,
      Attempt.reference]
    have h' := hy { s with depth := s.depth + 1 }
      ⟨hs.tokens_eq, hs.overflow_eq, by have := hs.depth_add; simp only; omega, hs.faithful⟩ hv
    generalize r { s with depth := s.depth + 1 } = out at h' ⊢
    refine ⟨fun o ho => ?_, fun i hi => h'.refused i hi⟩
    have ha := h'.arrives o ho
    exact ⟨ha.result_eq, congrArg ParseState.exitNested ha.state_eq, ha.faithful,
      ha.isMemoizing_eq⟩

section Memoized

variable [LawfulBEq ι]

theorem Follows.memoized (key : ι) (hr : Follows answer tokens levels good r a)
    (hgood : ∀ p, good ⟨key, p, levels⟩ →
      (answer key p).result = (a p).result ∧ (answer key p).failures = (a p).failures) :
    Follows answer tokens levels good (memoized key r) (Attempt.memoized key levels a) := by
  intro s hs hv
  have h := hr s hs fun hm v hv' => hv hm v (List.mem_cons_of_mem _ hv')
  have hanswer (hm : s.isMemoizing) := hgood s.position (hv hm _ List.mem_cons_self)
  -- What is in the table was computed before, so that its failures are on record.
  have hremembered (hm : s.isMemoizing) {o : Outcome V} (hget : s.remembered? key = some o) :
      (a s.position).result = .ok o ∧ s.record.noteAll (a s.position).failures = s.record := by
    obtain ⟨hresult, hfailures⟩ := hanswer hm
    obtain ⟨hok, hheld⟩ := ParseState.Remembers.remembered hs.faithful hget
    rw [hresult] at hok
    rw [hfailures] at hheld
    exact ⟨hok, FailureRecord.noteAll_of_holds hheld⟩
  rcases memoized_cases key r s with
    ⟨-, hout⟩ | ⟨hm, -, hout⟩ | ⟨hm, hget, hout⟩ | ⟨captures, stop, hm, hget, hout⟩ <;> rw [hout]
  · exact ⟨h.arrives, h.refused⟩
  · obtain ⟨hresult, hfailures⟩ := hanswer hm
    refine ⟨fun o ho => ?_, fun i hi => h.refused i hi⟩
    have ha := h.arrives o ho
    have hfound : ((r s).1.map fun captures => (captures, (r s).2.position)) = o := by
      rw [ha.result_eq, ha.position_eq]
      rcases o with _ | ⟨captures, stop⟩ <;> rfl
    rw [hfound]
    refine ⟨ha.result_eq, congrArg (ParseState.remember · key s.position o) ha.state_eq,
      ParseState.Remembers.remember ha.faithful ⟨hresult.trans ho, fun f hf => ?_⟩,
      Option.isSome_map.trans ha.isMemoizing_eq⟩
    rw [hfailures] at hf
    rw [ha.state_eq]
    exact FailureRecord.holds_noteAll hf
  · obtain ⟨hok, hrecord⟩ := hremembered hm hget
    refine .of_ok hok ⟨rfl, ?_, hs.faithful, rfl⟩
    show s = s.moved (s.record.noteAll (a s.position).failures) s.position s.memo
    rw [hrecord]
    rfl
  · obtain ⟨hok, hrecord⟩ := hremembered hm hget
    refine .of_ok hok ⟨rfl, ?_, hs.faithful, rfl⟩
    show s.restore stop = s.moved (s.record.noteAll (a s.position).failures) stop s.memo
    rw [hrecord]
    rfl

end Memoized

end Follows

end Recognizer

/-! ### Runs of rules -/

namespace Rule

variable [Capture V]

/-- Under each key, the rule has at most the rule that belongs to it. -/
def Keyed (rules : ι → Rule ι V) : Rule ι V → Prop
  | seq r t => Keyed rules r ∧ Keyed rules t
  | choice r t => Keyed rules r ∧ Keyed rules t
  | plus r => Keyed rules r
  | optional r => Keyed rules r
  | node r _ => Keyed rules r
  | memoized key r => rules key = r ∧ Keyed rules r
  | _ => True

theorem keepsRefusal (target : Nat → Option (Recognizer ι V)) :
    ∀ rule : Rule ι V, Recognizer.KeepsRefusal (rule.run target)
  | kind _ => Recognizer.keepsRefusal_expecting _ _ _
  | verbatim _ => Recognizer.keepsRefusal_expecting _ _ _
  | nothing => fun _ _ _ h => h
  | never => fun _ _ _ h => h
  | seq r t => (keepsRefusal target r).seq (keepsRefusal target t)
  | choice r t => (keepsRefusal target r).choice (keepsRefusal target t)
  | plus r => (keepsRefusal target r).plus
  | optional r => (keepsRefusal target r).optional
  | node r reduce => (keepsRefusal target r).node reduce
  | memoized key r => (keepsRefusal target r).memoized key
  | reference _ => Recognizer.keepsRefusal_reference _

variable [LawfulBEq ι] {answer : ι → Attempt ι V} {tokens : Array Token}
  {good : Visit ι → Prop} {rules : ι → Rule ι V} {levels : Nat}

theorem run_follows {target : Nat → Option (Recognizer ι V)}
    {target' : Nat → Option (Attempt ι V)}
    (href : ∀ slot, Recognizer.Follows answer tokens levels good (.reference (target slot))
      (.reference (target' slot)))
    (hgood : ∀ key p, good ⟨key, p, levels⟩ →
      (answer key p).result = ((rules key).trace tokens levels target' p).result ∧
        (answer key p).failures = ((rules key).trace tokens levels target' p).failures) :
    ∀ rule : Rule ι V, rule.Keyed rules → Recognizer.Follows answer tokens levels good
      (rule.run target) (rule.trace tokens levels target')
  | kind _, _ => Recognizer.follows_expecting _ _ _
  | verbatim _, _ => Recognizer.follows_expecting _ _ _
  | nothing, _ => fun _ hs _ => (Recognizer.arrives_nothing hs.faithful).agrees []
  | never, _ => fun _ hs _ => (Recognizer.arrives_never hs.faithful).agrees []
  | seq r t, h => (run_follows href hgood r h.1).seq (run_follows href hgood t h.2)
    (keepsRefusal target t)
  | choice r t, h => (run_follows href hgood r h.1).choice (run_follows href hgood t h.2)
    (keepsRefusal target t)
  | plus r, h => (run_follows href hgood r h).plus (keepsRefusal target r)
  | optional r, h => (run_follows href hgood r h).optional
  | node r reduce, h => (run_follows href hgood r h).node reduce
  | memoized key r, h => (run_follows href hgood r h.2).memoized key fun p hp => by
    rw [← h.1]
    exact hgood key p hp
  | reference slot, _ => href slot

end Rule

section Graph

variable [Capture V] [LawfulBEq ι] {answer : ι → Attempt ι V}
  {tokens : Array Token} {good : Visit ι → Prop} {rules : ι → Rule ι V}

/-- Running a rule of the graph does what its trace says. -/
theorem RuleGraph.run_follows (g : RuleGraph ι V)
    (hg : ∀ slot rule, g.target slot = some rule → rule.Keyed rules)
    (hgood : ∀ v, good v →
      (answer v.key v.position).result = (g.trace tokens v.levels (rules v.key) v.position).result ∧
        (answer v.key v.position).failures =
          (g.trace tokens v.levels (rules v.key) v.position).failures)
    (levels : Nat) (rule : Rule ι V) (hrule : rule.Keyed rules) :
    Recognizer.Follows answer tokens levels good (rule.run (g.follow levels))
      (g.trace tokens levels rule) := by
  induction levels generalizing rule with
  | zero =>
    refine Rule.run_follows (fun slot => ?_) (fun key p h => hgood _ h) rule hrule
    refine Recognizer.Follows.reference_zero _ ?_
    simp only [follow, traceBehind, Option.map_map]
    rfl
  | succ levels ih =>
    refine Rule.run_follows (fun slot => ?_) (fun key p h => hgood _ h) rule hrule
    refine Recognizer.Follows.reference_succ (fun x hx => ?_) fun hn => ?_
    · obtain ⟨rule, hrule, rfl⟩ := Option.map_eq_some_iff.mp hx
      refine ⟨_, Option.map_eq_some_iff.mpr ⟨rule, hrule, rfl⟩, ih rule (hg slot rule hrule)⟩
    · simpa only [follow, traceBehind, Option.map_eq_none_iff] using hn

end Graph

end Precedence
