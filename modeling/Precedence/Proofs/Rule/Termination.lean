import Precedence.Proofs.Rule.Contract
import Precedence.Proofs.Rule.Course

/-!
# Every trial comes to an end

In every state that can arise, trying a rule of a graph has a course, and it is that course that
`RuleGraph.apply` computes (`RuleGraph.terminates`), however the rules refer to themselves. Two
things bound it. References are only followed while fewer than `nestingLimit` are active, and none
is followed once one was refused; and each round of a repetition but the last reads a token, so
that there are at most two more rounds than tokens. The latter needs that nothing remembered leads
back or beyond the tokens (`ParseState.Ahead`), which holds of each table that trials fill.
-/

namespace Precedence

variable {ι V : Type} [BEq ι] [Hashable ι]

namespace ParseState

/-- What is remembered does not lead back, and where it leads on, no further than to the end of the
tokens. -/
def Ahead (s : ParseState ι V) : Prop :=
  ∀ table, s.memo = some table → ∀ (key : ι) (p : Nat) (captures : List V) (stop : Nat),
    table[(key, p)]? = some (some (captures, stop)) → p ≤ stop ∧ (p < stop → stop ≤ s.tokens.size)

variable {s s' s'' : ParseState ι V}

theorem ahead_start (strategy : Strategy) (tokens : Array Token) :
    (strategy.start tokens : ParseState ι V).Ahead :=
  remembers_read_iff.mp (remembers_start strategy tokens)

theorem Ahead.restore (h : s.Ahead) (p : Nat) : (s.restore p).Ahead := h

theorem Ahead.recordFailure (h : s.Ahead) (what : String) : (s.recordFailure what).Ahead := by
  rw [recordFailure_eq]
  exact h

theorem Ahead.remember [LawfulBEq ι] (h : s.Ahead) {key : ι} {p : Nat} {o : Outcome V}
    (ho : ∀ captures stop, o = some (captures, stop) →
      p ≤ stop ∧ (p < stop → stop ≤ s.tokens.size)) : (s.remember key p o).Ahead :=
  remembers_read_iff.mp ((remembers_read_iff.mpr h).remember ho)

theorem Ahead.remembered (h : s.Ahead) {key : ι} {captures : List V} {stop : Nat}
    (hget : s.remembered? key = some (some (captures, stop))) :
    s.position ≤ stop ∧ (s.position < stop → stop ≤ s.tokens.size) :=
  (remembers_read_iff.mpr h).remembered hget captures stop rfl

theorem Ahead.enter (h : s.Ahead) (henter : s.enterNested = (true, s')) : s'.Ahead := by
  obtain ⟨-, -, rfl⟩ := enterNested_eq_true henter
  exact h

/-- Where no level was refused and the limit is not met, one is entered; otherwise only the refusal
is put on record. -/
theorem enterNested_eq_false (h : s.enterNested = (false, s')) :
    s.Precedes s' ∧ s'.overflow.isSome ∧ s'.memo = s.memo := by
  unfold enterNested at h
  by_cases ho : s.overflow.isSome
  · rw [if_pos ho] at h
    obtain rfl := (Prod.mk.inj h).2
    exact ⟨.refl s, ho, rfl⟩
  · rw [if_neg ho] at h
    by_cases hd : nestingLimit ≤ s.depth
    · rw [if_pos hd] at h
      obtain rfl := (Prod.mk.inj h).2
      refine ⟨⟨rfl, rfl, fun i hi => ?_, .refl _⟩, rfl, rfl⟩
      rw [hi] at ho
      exact absurd rfl ho
    · rw [if_neg hd] at h
      simp at h

end ParseState

open ParseState Recognizer

/-! ### Where a trial leads -/

/-- What comes out of a trial that is made in a state: nothing of the state is lost, and what is
read or remembered lies ahead. -/
structure ParseState.Advances (s : ParseState ι V) (out : Option (List V) × ParseState ι V) : Prop
    extends s.Precedes out.2 where
  ahead : out.2.Ahead
  reads : ∀ captures, out.1 = some captures → s.position ≤ out.2.position ∧
    (s.position < out.2.position → out.2.position ≤ s.tokens.size)

section Advances

variable {s s' s'' : ParseState ι V} {c c' : List V} {result : Option (List V)}

theorem advances_failed (h : s.Precedes s') (h' : s'.Ahead) : s.Advances (none, s') :=
  ⟨h, h', fun _ hc => absurd hc (by simp)⟩

/-- Nothing is read. -/
theorem advances_stayed (h : s.Precedes s') (h' : s'.Ahead) (c : List V) :
    s.Advances (some c, s'.restore s.position) :=
  ⟨h.restore _, h'.restore _, fun _ _ => ⟨Nat.le_refl _, fun h => absurd h (Nat.lt_irrefl _)⟩⟩

theorem ParseState.Advances.back (h : s.Advances (result, s')) (p : Nat) :
    s.Advances (none, s'.restore p) :=
  advances_failed (h.toPrecedes.restore p) (h.ahead.restore p)

/-- Captures may be put together and reduced. -/
theorem ParseState.Advances.capture (h : s.Advances (some c, s')) (c' : List V) :
    s.Advances (some c', s') :=
  ⟨h.toPrecedes, h.ahead, fun _ _ => h.reads c rfl⟩

theorem ParseState.Advances.andThen (h : s.Advances (some c, s'))
    (h' : s'.Advances (some c', s'')) (c'' : List V) : s.Advances (some c'', s'') := by
  refine ⟨h.toPrecedes.trans h'.toPrecedes, h'.ahead, fun _ _ => ?_⟩
  obtain ⟨hle, hsize⟩ := h.reads c rfl
  obtain ⟨hle', hsize'⟩ := h'.reads c' rfl
  have htokens : s'.tokens = s.tokens := h.tokens_eq
  rw [htokens] at hsize'
  simp only at *
  omega

theorem ParseState.Advances.andFail (h : s.Advances (some c, s')) (h' : s'.Advances (none, s'')) :
    s.Advances (none, s'') :=
  advances_failed (h.toPrecedes.trans h'.toPrecedes) h'.ahead

theorem ParseState.Advances.orElse (h : s.Advances (none, s'))
    (h' : (s'.restore s.position).Advances (result, s'')) : s.Advances (result, s'') := by
  refine ⟨(h.toPrecedes.restore _).trans h'.toPrecedes, h'.ahead, fun captures hc => ?_⟩
  have hread := h'.reads captures hc
  have htokens : (s'.restore s.position).tokens = s.tokens := h.tokens_eq
  rw [htokens] at hread
  exact hread

theorem ParseState.Advances.remember [LawfulBEq ι] (h : s.Advances (result, s')) (key : ι) :
    s.Advances (result,
      s'.remember key s.position (result.map fun captures => (captures, s'.position))) := by
  refine ⟨⟨h.tokens_eq, h.depth_eq, h.overflow_eq, h.record_extends⟩,
    h.ahead.remember fun c stop ho => ?_, h.reads⟩
  obtain ⟨c, hc, hstop⟩ := Option.map_eq_some_iff.mp ho
  obtain ⟨-, rfl⟩ := Prod.mk.inj hstop
  have htokens : s'.tokens = s.tokens := h.tokens_eq
  rw [htokens]
  exact h.reads c hc

theorem advances_refused (hs : s.Ahead) (h : s.enterNested = (false, s')) :
    s.Advances (none, s') := by
  obtain ⟨hkeeps, -, hmemo⟩ := enterNested_eq_false h
  refine advances_failed hkeeps fun table htable => ?_
  rw [hkeeps.tokens_eq]
  exact hs table (hmemo ▸ htable)

/-- A level that was entered is left again. -/
theorem ParseState.Advances.exit (h : s'.Advances (result, s''))
    (henter : s.enterNested = (true, s')) : s.Advances (result, s''.exitNested) := by
  obtain ⟨-, -, rfl⟩ := enterNested_eq_true henter
  have hdepth : s''.depth - 1 = s.depth := by
    rw [show s''.depth = s.depth + 1 from h.depth_eq, Nat.add_sub_cancel]
  exact ⟨⟨h.tokens_eq, hdepth, h.overflow_eq, h.record_extends⟩, h.ahead, h.reads⟩

theorem advances_expecting (hs : s.Ahead) (what : String) (wanted : Token → Bool)
    (capture : Token → List V) : s.Advances (expecting what wanted capture s) := by
  rcases expecting_cases what wanted capture s with ⟨token, ht, -, hout⟩ | ⟨-, hout⟩ <;> rw [hout]
  · have hlt := (Array.getElem?_eq_some_iff.mp ht).1
    exact ⟨(Precedes.refl s).restore _, hs.restore _, fun _ _ => ⟨Nat.le_succ _, fun _ => hlt⟩⟩
  · exact advances_failed (precedes_recordFailure s what) (hs.recordFailure what)

variable [Capture V] {g : RuleGraph ι V}

mutual

theorem RuleGraph.Proceeds.advances [LawfulBEq ι] : ∀ {rule : Rule ι V} {s : ParseState ι V}
    {l : List Event} {out : Option (List V) × ParseState ι V},
    g.Proceeds rule s l out → s.Ahead → s.Advances out
  | _, _, _, _, .kind _ _, hs => advances_expecting hs _ _ _
  | _, _, _, _, .verbatim _ _, hs => advances_expecting hs _ _ _
  | _, _, _, _, .nothing s, hs => advances_stayed (.refl s) hs _
  | _, _, _, _, .never s, hs => advances_failed (.refl s) hs
  | _, _, _, _, .seqFailsLeft _ h, hs => (h.advances hs).back _
  | _, _, _, _, .seqFailsRight h h', hs =>
    ((h.advances hs).andFail (h'.advances (h.advances hs).ahead)).back _
  | _, _, _, _, .seqReads h h', hs =>
    (h.advances hs).andThen (h'.advances (h.advances hs).ahead) _
  | _, _, _, _, .choiceLeft _ h, hs => h.advances hs
  | _, _, _, _, .choiceRight h h', hs =>
    (h.advances hs).orElse (h'.advances ((h.advances hs).ahead.restore _))
  | _, _, _, _, .choiceFails h h', hs =>
    ((h.advances hs).orElse (h'.advances ((h.advances hs).ahead.restore _))).back _
  | _, _, _, _, .plusFails h, hs => h.advances hs
  | _, _, _, _, .plusReads h h', hs =>
    (h.advances hs).andThen (h'.advances (h.advances hs).ahead) _
  | _, _, _, _, .optionalReads h, hs => h.advances hs
  | _, _, _, _, .optionalFails h, hs =>
    advances_stayed (h.advances hs).toPrecedes (h.advances hs).ahead _
  | _, _, _, _, .nodeReads h _, hs => (h.advances hs).capture _
  | _, _, _, _, .nodeRejects h _, hs => (h.advances hs).back _
  | _, _, _, _, .nodeFails _ h, hs => h.advances hs
  | _, _, _, _, .unmemoized _ h, hs => h.advances hs
  | _, _, _, _, .rememberedRead _ _ h, hs =>
    ⟨(Precedes.refl _).restore _, hs.restore _, fun _ _ => hs.remembered h⟩
  | _, _, _, _, .rememberedFailure _ _ _, hs => advances_failed (.refl _) hs
  | _, _, _, _, .memoized _ _ h, hs => (h.advances hs).remember _
  | _, _, _, _, .openReference s _, hs => advances_failed (.refl s) hs
  | _, _, _, _, .refusedReference _ h, hs => advances_refused hs h
  | _, _, _, _, .reference _ h h', hs => (h'.advances (hs.enter h)).exit h

theorem RuleGraph.Continues.advances [LawfulBEq ι] : ∀ {r : Rule ι V} {s s' : ParseState ι V}
    {l : List Event} {n : Nat} {c : List V}, g.Continues r s l n c s' → s.Ahead →
    s.Advances (some c, s')
  | _, _, _, _, _, _, .next h _ h', hs =>
    (h.advances hs).andThen (h'.advances (h.advances hs).ahead) _
  | _, _, _, _, _, _, .still h _, hs =>
    advances_stayed (h.advances hs).toPrecedes (h.advances hs).ahead _
  | _, _, _, _, _, _, .fails h, hs =>
    advances_stayed (h.advances hs).toPrecedes (h.advances hs).ahead _

end

end Advances

/-! ### How long a trial goes on -/

/-- The events of a trial from one state to another: no more references are active at once than the
limit leaves, none is followed once one was refused, and a repetition tries its rule at most twice
more often than there are tokens behind its start. -/
structure Bounded (s : ParseState ι V) (l : List Event) (s' : ParseState ι V) : Prop where
  active_le : ∀ before after, l = before ++ after →
    before.count .entered ≤ before.count .left + (nestingLimit - s.depth)
  balanced : l.count .entered = l.count .left
  refused : l.Pairwise fun e e' => e = .refused → e' ≠ .entered
  unentered : s.overflow.isSome → .entered ∉ l
  overflows : .refused ∈ l → s'.overflow.isSome
  repeated : ∀ start n, .repeated start n ∈ l → n ≤ s.tokens.size - start + 2

section Bounded

variable {s s' s'' : ParseState ι V} {l l' : List Event}

theorem bounded_nil (s s' : ParseState ι V) : Bounded s [] s' where
  active_le before after h := by simp [(List.nil_eq_append_iff.mp h).1]
  balanced := rfl
  refused := .nil
  unentered _ := List.not_mem_nil
  overflows h := absurd h List.not_mem_nil
  repeated _ _ h := absurd h List.not_mem_nil

theorem Bounded.restore (h : Bounded s l s') (p : Nat) : Bounded s l (s'.restore p) :=
  ⟨h.active_le, h.balanced, h.refused, h.unentered, h.overflows, h.repeated⟩

theorem overflow_isSome_of_precedes (h : s.Precedes s') (ho : s.overflow.isSome) :
    s'.overflow.isSome := by
  obtain ⟨i, hi⟩ := Option.isSome_iff_exists.mp ho
  exact Option.isSome_iff_exists.mpr ⟨i, h.overflow_eq i hi⟩

theorem Bounded.append (h : Bounded s l s') (hkeeps : s.Precedes s') (h' : Bounded s' l' s'')
    (hkeeps' : s'.Precedes s'') : Bounded s (l ++ l') s'' where
  active_le before after heq := by
    rcases List.append_eq_append_iff.mp heq with ⟨m, rfl, rfl⟩ | ⟨m, rfl, rfl⟩
    · have hactive := h'.active_le m after rfl
      rw [hkeeps.depth_eq] at hactive
      have hbalanced := h.balanced
      rw [List.count_append, List.count_append]
      omega
    · exact h.active_le before m rfl
  balanced := by rw [List.count_append, List.count_append, h.balanced, h'.balanced]
  refused := List.pairwise_append.mpr ⟨h.refused, h'.refused, fun e he e' he' heq => by
    rintro rfl
    exact h'.unentered (h.overflows (heq ▸ he)) he'⟩
  unentered ho hmem := (List.mem_append.mp hmem).elim (h.unentered ho)
    (h'.unentered (overflow_isSome_of_precedes hkeeps ho))
  overflows hmem := (List.mem_append.mp hmem).elim
    (fun hmem => overflow_isSome_of_precedes hkeeps' (h.overflows hmem)) h'.overflows
  repeated start n hmem := (List.mem_append.mp hmem).elim (h.repeated start n)
    fun hmem => hkeeps.tokens_eq ▸ h'.repeated start n hmem

theorem count_entered_of_not_mem {before after : List Event} (h : .entered ∉ l)
    (heq : l = before ++ after) : before.count .entered = 0 :=
  List.count_eq_zero_of_not_mem fun hmem => h (heq ▸ List.mem_append_left after hmem)

theorem bounded_repeated {start n : Nat} (hn : n ≤ s.tokens.size - start + 2)
    (s' : ParseState ι V) : Bounded s [.repeated start n] s' where
  active_le before after heq := by
    rw [count_entered_of_not_mem (by simp) heq]
    exact Nat.zero_le _
  balanced := rfl
  refused := List.pairwise_singleton _ _
  unentered _ := by simp
  overflows := by simp
  repeated start' n' hmem := by
    obtain ⟨rfl, rfl⟩ : start' = start ∧ n' = n := by simpa using hmem
    exact hn

theorem bounded_refused (h : s.enterNested = (false, s')) : Bounded s [.refused] s' where
  active_le before after heq := by
    rw [count_entered_of_not_mem (by simp) heq]
    exact Nat.zero_le _
  balanced := rfl
  refused := List.pairwise_singleton _ _
  unentered _ := by simp
  overflows _ := (enterNested_eq_false h).2.1
  repeated := by simp

/-- Behind a reference one more is active. -/
theorem Bounded.enter (h : s.enterNested = (true, s')) (h' : Bounded s' l s'') :
    Bounded s (.entered :: (l ++ [.left])) s''.exitNested := by
  obtain ⟨hnone, hdepth, rfl⟩ := enterNested_eq_true h
  constructor
  case active_le =>
    intro before after heq
    rcases before with _ | ⟨e, before⟩
    · exact Nat.zero_le _
    obtain ⟨rfl, htail⟩ := List.cons.inj heq
    rw [List.count_cons_self, List.count_cons_of_ne (by decide)]
    have hinside : ∀ m m', l = m ++ m' → m.count .entered ≤ m.count .left +
        (nestingLimit - (s.depth + 1)) := h'.active_le
    rcases List.append_eq_append_iff.mp htail with ⟨m, rfl, hm⟩ | ⟨m, rfl, -⟩
    · have hall := hinside l [] (List.append_nil l).symm
      rw [List.count_append, List.count_append, count_entered_of_not_mem (by simp) hm]
      omega
    · have hall := hinside before m rfl
      omega
  case balanced =>
    simp [h'.balanced]
  case refused =>
    refine List.pairwise_cons.mpr ⟨fun _ _ heq => absurd heq (by decide), ?_⟩
    refine List.pairwise_append.mpr ⟨h'.refused, List.pairwise_singleton _ _, ?_⟩
    intro e _ e' he' _
    rw [List.mem_singleton.mp he']
    decide
  case unentered => exact fun ho => absurd ho (by simp [hnone])
  case overflows =>
    intro hmem
    exact h'.overflows (by simpa using hmem)
  case repeated =>
    intro start n hmem
    exact h'.repeated start n (by simpa using hmem)

/-- One more round, which reads a token. -/
theorem Bounded.round {n : Nat} {c c' : List V} (h : Bounded s l s')
    (hout : s.Advances (some c, s')) (hlt : s.position < s'.position)
    (h' : Bounded s' l' s'' ∧ n ≤ s'.tokens.size - s'.position + 1)
    (hout' : s'.Advances (some c', s'')) :
    Bounded s (l ++ l') s'' ∧ n + 1 ≤ s.tokens.size - s.position + 1 := by
  refine ⟨h.append hout.toPrecedes h'.1 hout'.toPrecedes, ?_⟩
  have hsize : s'.position ≤ s.tokens.size := (hout.reads c rfl).2 hlt
  have htokens : s'.tokens = s.tokens := hout.tokens_eq
  have hn := h'.2
  rw [htokens] at hn
  omega

/-- The first trial of a repetition, which may read nothing, and the rounds that follow it. -/
theorem Bounded.repeats {n : Nat} {c c' : List V} (h : Bounded s l s')
    (hout : s.Advances (some c, s'))
    (h' : Bounded s' l' s'' ∧ n ≤ s'.tokens.size - s'.position + 1)
    (hout' : s'.Advances (some c', s'')) :
    Bounded s (l ++ (l' ++ [.repeated s.position (n + 1)])) s'' := by
  refine h.append hout.toPrecedes (h'.1.append hout'.toPrecedes (bounded_repeated ?_ _)
    (.refl _)) hout'.toPrecedes
  have hle : s.position ≤ s'.position := (hout.reads c rfl).1
  have htokens : s''.tokens = s'.tokens := hout'.tokens_eq
  have hn := h'.2
  rw [htokens]
  omega

variable [Capture V] [LawfulBEq ι] {g : RuleGraph ι V}

mutual

theorem RuleGraph.Proceeds.bounded : ∀ {rule : Rule ι V} {s : ParseState ι V} {l : List Event}
    {out : Option (List V) × ParseState ι V}, g.Proceeds rule s l out → s.Ahead →
      Bounded s l out.2
  | _, _, _, _, .kind _ _, _ => bounded_nil _ _
  | _, _, _, _, .verbatim _ _, _ => bounded_nil _ _
  | _, _, _, _, .nothing _, _ => bounded_nil _ _
  | _, _, _, _, .never _, _ => bounded_nil _ _
  | _, _, _, _, .seqFailsLeft _ h, hs => (h.bounded hs).restore _
  | _, _, _, _, .seqFailsRight h h', hs =>
    ((h.bounded hs).append (h.advances hs).toPrecedes (h'.bounded (h.advances hs).ahead)
      (h'.advances (h.advances hs).ahead).toPrecedes).restore _
  | _, _, _, _, .seqReads h h', hs =>
    (h.bounded hs).append (h.advances hs).toPrecedes (h'.bounded (h.advances hs).ahead)
      (h'.advances (h.advances hs).ahead).toPrecedes
  | _, _, _, _, .choiceLeft _ h, hs => h.bounded hs
  | _, _, _, _, .choiceRight h h', hs =>
    ((h.bounded hs).restore _).append ((h.advances hs).toPrecedes.restore _)
      (h'.bounded ((h.advances hs).ahead.restore _))
      (h'.advances ((h.advances hs).ahead.restore _)).toPrecedes
  | _, _, _, _, .choiceFails h h', hs =>
    (((h.bounded hs).restore _).append ((h.advances hs).toPrecedes.restore _)
      (h'.bounded ((h.advances hs).ahead.restore _))
      (h'.advances ((h.advances hs).ahead.restore _)).toPrecedes).restore _
  | _, _, _, _, .plusFails h, hs =>
    (h.bounded hs).append (h.advances hs).toPrecedes (bounded_repeated (by omega) _) (.refl _)
  | _, _, _, _, .plusReads h h', hs =>
    (h.bounded hs).repeats (h.advances hs) (h'.bounded (h.advances hs).ahead)
      (h'.advances (h.advances hs).ahead)
  | _, _, _, _, .optionalReads h, hs => h.bounded hs
  | _, _, _, _, .optionalFails h, hs => (h.bounded hs).restore _
  | _, _, _, _, .nodeReads h _, hs => h.bounded hs
  | _, _, _, _, .nodeRejects h _, hs => (h.bounded hs).restore _
  | _, _, _, _, .nodeFails _ h, hs => h.bounded hs
  | _, _, _, _, .unmemoized _ h, hs => h.bounded hs
  | _, _, _, _, .rememberedRead _ _ _, _ => bounded_nil _ _
  | _, _, _, _, .rememberedFailure _ _ _, _ => bounded_nil _ _
  | _, _, _, _, .memoized _ _ h, hs =>
    have hout := h.bounded hs
    ⟨hout.active_le, hout.balanced, hout.refused, hout.unentered, hout.overflows, hout.repeated⟩
  | _, _, _, _, .openReference _ _, _ => bounded_nil _ _
  | _, _, _, _, .refusedReference _ h, _ => bounded_refused h
  | _, _, _, _, .reference _ h h', hs => (h'.bounded (hs.enter h)).enter h

/-- Each round but the last reads a token. -/
theorem RuleGraph.Continues.bounded : ∀ {r : Rule ι V} {s s' : ParseState ι V} {l : List Event}
    {n : Nat} {c : List V}, g.Continues r s l n c s' → s.Ahead →
      Bounded s l s' ∧ n ≤ s.tokens.size - s.position + 1
  | _, _, _, _, _, _, .next h hlt h', hs =>
    (h.bounded hs).round (h.advances hs) hlt (h'.bounded (h.advances hs).ahead)
      (h'.advances (h.advances hs).ahead)
  | _, _, _, _, _, _, .still h _, hs => ⟨(h.bounded hs).restore _, by omega⟩
  | _, _, _, _, _, _, .fails h, hs => ⟨(h.bounded hs).restore _, by omega⟩

end

end Bounded

/-! ### Trials have a course -/

variable [Capture V]

/-- What trying `r` comes to is where the course of the rule leads, if that many levels are all that
can be left. -/
def Recognizer.Completes (g : RuleGraph ι V) (levels : Nat) (r : Recognizer ι V)
    (rule : Rule ι V) : Prop :=
  ∀ s, s.Ahead → nestingLimit ≤ s.depth + levels → ∃ l, g.Proceeds rule s l (r s)

namespace Recognizer

variable {g : RuleGraph ι V} {levels : Nat} {r t : Recognizer ι V} {ρ τ : Rule ι V}

theorem Completes.optional (hr : Completes g levels r ρ) :
    Completes g levels (optional r) (.optional ρ) := by
  intro s hs hd
  obtain ⟨l, h⟩ := hr s hs hd
  unfold Recognizer.optional
  generalize r s = out at h ⊢
  rcases out with ⟨_ | c, s'⟩
  · exact ⟨_, .optionalFails h⟩
  · exact ⟨_, .optionalReads h⟩

theorem Completes.node (hr : Completes g levels r ρ) (reduce : Reducer V) :
    Completes g levels (node r reduce) (.node ρ reduce) := by
  intro s hs hd
  obtain ⟨l, h⟩ := hr s hs hd
  unfold Recognizer.node
  generalize r s = out at h ⊢
  rcases out with ⟨_ | c, s'⟩
  · exact ⟨_, .nodeFails reduce h⟩
  · simp only
    rcases hv : reduce c ⟨s'.tokens, s.position, s'.position⟩ with _ | v
    · exact ⟨_, .nodeRejects h hv⟩
    · exact ⟨_, .nodeReads h hv⟩

theorem Completes.memoized (hr : Completes g levels r ρ) (key : ι) :
    Completes g levels (memoized key r) (.memoized key ρ) := by
  intro s hs hd
  obtain ⟨l, h⟩ := hr s hs hd
  rcases memoized_cases key r s with
    ⟨hm, hout⟩ | ⟨hm, hget, hout⟩ | ⟨hm, hget, hout⟩ | ⟨c, stop, hm, hget, hout⟩ <;> rw [hout]
  · exact ⟨l, .unmemoized hm h⟩
  · exact ⟨l, .memoized hm hget h⟩
  · exact ⟨_, .rememberedFailure ρ hm hget⟩
  · exact ⟨_, .rememberedRead ρ hm hget⟩

theorem completes_openReference {slot : Nat} (hslot : g.target slot = none) :
    Completes g levels (reference none) (.reference slot) :=
  fun s _ _ => ⟨_, .openReference s hslot⟩

theorem completes_follow {f : Rule ι V → Recognizer ι V}
    (h : ∀ slot ρ, g.target slot = some ρ →
      Completes g levels (reference (some (f ρ))) (.reference slot)) (slot : Nat) :
    Completes g levels (reference ((g.target slot).map f)) (.reference slot) := by
  rcases hslot : g.target slot with _ | ρ
  · exact completes_openReference hslot
  · exact h slot ρ hslot

/-- Where no level is left, each reference is refused. -/
theorem completes_reference_zero (r : Recognizer ι V) {slot : Nat}
    (hslot : g.target slot = some ρ) : Completes g 0 (reference (some r)) (.reference slot) := by
  intro s _ hd
  unfold reference
  rcases henter : s.enterNested with ⟨_ | _, s'⟩
  · exact ⟨_, .refusedReference hslot henter⟩
  · exact absurd (enterNested_eq_true henter).2.1 (Nat.not_lt.mpr hd)

theorem Completes.reference_succ (hr : Completes g levels r ρ) {slot : Nat}
    (hslot : g.target slot = some ρ) :
    Completes g (levels + 1) (reference (some r)) (.reference slot) := by
  intro s hs hd
  unfold reference
  rcases henter : s.enterNested with ⟨_ | _, s'⟩
  · exact ⟨_, .refusedReference hslot henter⟩
  · obtain ⟨-, -, rfl⟩ := enterNested_eq_true henter
    obtain ⟨l, h⟩ := hr { s with depth := s.depth + 1 } hs
      (show nestingLimit ≤ s.depth + 1 + levels by omega)
    exact ⟨_, .reference hslot henter h⟩

variable [LawfulBEq ι]

theorem Completes.seq (hr : Completes g levels r ρ) (ht : Completes g levels t τ) :
    Completes g levels (seq r t) (.seq ρ τ) := by
  intro s hs hd
  obtain ⟨l, h⟩ := hr s hs hd
  have hout := h.advances hs
  unfold Recognizer.seq
  generalize r s = out at h hout ⊢
  rcases out with ⟨_ | c, s'⟩
  · exact ⟨_, .seqFailsLeft τ h⟩
  · obtain ⟨l', h'⟩ := ht s' hout.ahead (by rw [hout.depth_eq]; exact hd)
    simp only
    generalize t s' = out at h' ⊢
    rcases out with ⟨_ | c', s''⟩
    · exact ⟨_, .seqFailsRight h h'⟩
    · exact ⟨_, .seqReads h h'⟩

theorem Completes.choice (hr : Completes g levels r ρ) (ht : Completes g levels t τ) :
    Completes g levels (choice r t) (.choice ρ τ) := by
  intro s hs hd
  obtain ⟨l, h⟩ := hr s hs hd
  have hout := h.advances hs
  unfold Recognizer.choice
  generalize r s = out at h hout ⊢
  rcases out with ⟨_ | c, s'⟩
  · obtain ⟨l', h'⟩ := ht (s'.restore s.position) (hout.ahead.restore _)
      (show nestingLimit ≤ s'.depth + levels by
        rw [show s'.depth = s.depth from hout.depth_eq]; exact hd)
    simp only
    generalize t (s'.restore s.position) = out at h' ⊢
    rcases out with ⟨_ | c', s''⟩
    · exact ⟨_, .choiceFails h h'⟩
    · exact ⟨_, .choiceRight h h'⟩
  · exact ⟨_, .choiceLeft τ h⟩

/-- The rounds that are allowed are never too few, as each reads one token at least. -/
theorem Completes.rounds (hr : Completes g levels r ρ) : ∀ (n : Nat) (s : ParseState ι V),
    s.Ahead → nestingLimit ≤ s.depth + levels → s.tokens.size - s.position < n →
      ∃ l k, g.Continues ρ s l k (rounds r n s).1 (rounds r n s).2
  | 0, _, _, _, hn => absurd hn (Nat.not_lt_zero _)
  | n + 1, s, hs, hd, hn => by
    obtain ⟨l, h⟩ := hr s hs hd
    have hout := h.advances hs
    unfold Recognizer.rounds
    generalize r s = out at h hout ⊢
    rcases out with ⟨_ | c, s'⟩
    · exact ⟨_, _, .fails h⟩
    · simp only
      by_cases hlt : s.position < s'.position
      · rw [if_pos hlt]
        have hsize : s'.position ≤ s.tokens.size := (hout.reads c rfl).2 hlt
        have htokens : s'.tokens = s.tokens := hout.tokens_eq
        obtain ⟨l', k, h'⟩ := Completes.rounds hr n s' hout.ahead
          (by rw [hout.depth_eq]; exact hd) (by rw [htokens]; omega)
        exact ⟨_, _, .next h hlt h'⟩
      · rw [if_neg hlt]
        exact ⟨_, _, .still h hlt⟩

theorem Completes.plus (hr : Completes g levels r ρ) : Completes g levels (plus r) (.plus ρ) := by
  intro s hs hd
  obtain ⟨l, h⟩ := hr s hs hd
  have hout := h.advances hs
  unfold Recognizer.plus
  generalize r s = out at h hout ⊢
  rcases out with ⟨_ | c, s'⟩
  · exact ⟨_, .plusFails h⟩
  · obtain ⟨l', k, h'⟩ := hr.rounds (s'.tokens.size - s'.position + 1) s' hout.ahead
      (by rw [hout.depth_eq]; exact hd) (Nat.lt_succ_self _)
    exact ⟨_, .plusReads h h'⟩

end Recognizer

section Graph

variable [LawfulBEq ι] {g : RuleGraph ι V} {levels : Nat}

theorem Rule.completes {target : Nat → Option (Recognizer ι V)}
    (href : ∀ slot, Completes g levels (Recognizer.reference (target slot)) (.reference slot)) :
    ∀ rule : Rule ι V, Completes g levels (rule.run target) rule
  | .kind k => fun s _ _ => ⟨_, .kind k s⟩
  | .verbatim text => fun s _ _ => ⟨_, .verbatim text s⟩
  | .nothing => fun s _ _ => ⟨_, .nothing s⟩
  | .never => fun s _ _ => ⟨_, .never s⟩
  | .seq r t => (Rule.completes href r).seq (Rule.completes href t)
  | .choice r t => (Rule.completes href r).choice (Rule.completes href t)
  | .plus r => (Rule.completes href r).plus
  | .optional r => (Rule.completes href r).optional
  | .node r reduce => (Rule.completes href r).node reduce
  | .memoized key r => (Rule.completes href r).memoized key
  | .reference slot => href slot

theorem RuleGraph.completes (g : RuleGraph ι V) (levels : Nat) (rule : Rule ι V) :
    Completes g levels (rule.run (g.follow levels)) rule := by
  induction levels generalizing rule with
  | zero => exact Rule.completes (completes_follow fun _ _ => completes_reference_zero _) rule
  | succ levels ih =>
    exact Rule.completes (completes_follow fun _ ρ hslot => (ih ρ).reference_succ hslot) rule

end Graph

/-! ### States that can arise -/

variable [LawfulBEq ι]

/-- A state that a fresh one is turned into by whatever can be done with it: trying rules, moving
the cursor anywhere, recording failures, and entering and leaving levels. -/
inductive ParseState.Arises (tokens : Array Token) : ParseState ι V → Prop
  | fresh (strategy : Strategy) : Arises tokens (strategy.start tokens)
  | tried {s : ParseState ι V} (h : Arises tokens s) (g : RuleGraph ι V) (rule : Rule ι V) :
    Arises tokens (g.apply rule s).2
  | restored {s : ParseState ι V} (h : Arises tokens s) (p : Nat) : Arises tokens (s.restore p)
  | advanced {s : ParseState ι V} (h : Arises tokens s) : Arises tokens s.advance.2
  | failed {s : ParseState ι V} (h : Arises tokens s) (what : String) :
    Arises tokens (s.recordFailure what)
  | entered {s : ParseState ι V} (h : Arises tokens s) : Arises tokens s.enterNested.2
  | exited {s : ParseState ι V} (h : Arises tokens s) : Arises tokens s.exitNested

theorem ParseState.Arises.ahead {tokens : Array Token} {s : ParseState ι V}
    (h : s.Arises tokens) : s.Ahead ∧ s.tokens = tokens := by
  induction h with
  | fresh strategy =>
    exact ⟨ahead_start strategy tokens, by rcases strategy with _ | _ <;> rfl⟩
  | @tried s _ g rule ih =>
    obtain ⟨l, hcourse⟩ := g.completes nestingLimit rule s ih.1 (Nat.le_add_left _ _)
    have hout := hcourse.advances ih.1
    exact ⟨hout.ahead, hout.tokens_eq.trans ih.2⟩
  | restored _ p ih => exact ih
  | @advanced s _ ih =>
    unfold advance
    rcases s.peek with _ | token
    · exact ih
    · exact ih
  | failed _ what ih => exact ⟨ih.1.recordFailure what, by rw [recordFailure_eq]; exact ih.2⟩
  | @entered s _ ih =>
    rcases henter : s.enterNested with ⟨_ | _, s'⟩
    · have hkeeps := (enterNested_eq_false henter).1
      exact ⟨(advances_refused ih.1 henter).ahead, hkeeps.tokens_eq.trans ih.2⟩
    · obtain ⟨-, -, rfl⟩ := enterNested_eq_true henter
      exact ih
  | exited _ ih => exact ih

/-- In every state that can arise, each rule of each graph has just one course, which is finite and
leads to what trying the rule comes to; and the course keeps to the bounds. Once a level was
refused, every reference fails at once, and leaves the state as it is. -/
theorem RuleGraph.terminates {tokens : Array Token} {s : ParseState ι V} (h : s.Arises tokens)
    (g : RuleGraph ι V) (rule : Rule ι V) :
    ∃ events, (∀ events' out, g.Proceeds rule s events' out ↔
        events' = events ∧ out = g.apply rule s) ∧
      Bounded s events (g.apply rule s).2 ∧
      ∀ slot s', s'.overflow.isSome → g.apply (.reference slot) s' = (none, s') := by
  obtain ⟨hs, -⟩ := h.ahead
  obtain ⟨events, hcourse⟩ := g.completes nestingLimit rule s hs (Nat.le_add_left _ _)
  refine ⟨events, fun events' out => ⟨fun h' => h'.unique hcourse, ?_⟩, hcourse.bounded hs,
    fun slot s' ho => ?_⟩
  · rintro ⟨rfl, rfl⟩
    exact hcourse
  · simp only [RuleGraph.apply, Rule.run, Recognizer.reference, enterNested, if_pos ho]
    rcases g.follow nestingLimit slot with _ | r
    · rfl
    · rfl

open Grammar in
/-- Sums of names, where a sum begins with a sum. -/
def sums : RuleGraph Nat Part :=
  .close .isOpen 0 <|
    .choice (.seq (.reference 0) (.seq (.plus (.optional (.verbatim "+"))) (.kind .identifier)))
      (.kind .identifier)

/-- A rule that refers to itself before it reads anything comes to an end too. -/
theorem sums_terminate :
    ((Strategy.packrat.start openGroup).restore 7 : ParseState Nat Grammar.Part).Arises openGroup ∧
      ∃ events, (∀ events' out,
          sums.Proceeds (.reference 0) ((Strategy.packrat.start openGroup).restore 7) events' out ↔
            events' = events ∧
              out = sums.apply (.reference 0) ((Strategy.packrat.start openGroup).restore 7)) ∧
        Bounded ((Strategy.packrat.start openGroup).restore 7) events
          (sums.apply (.reference 0) ((Strategy.packrat.start openGroup).restore 7)).2 ∧
        ∀ slot s', s'.overflow.isSome → sums.apply (.reference slot) s' = (none, s') :=
  have h : ((Strategy.packrat.start openGroup).restore 7 :
      ParseState Nat Grammar.Part).Arises openGroup :=
    .restored (.fresh .packrat) 7
  ⟨h, RuleGraph.terminates h sums (.reference 0)⟩

end Precedence
