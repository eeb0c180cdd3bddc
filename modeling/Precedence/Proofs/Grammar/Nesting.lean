import Precedence.Proofs.Grammar.Completeness

/-!
# How deep a place is nested

How many levels a parse has entered when it reaches a place can be told from the tokens in front of
it (`framesAt`): every parenthesis that is open counts, and within it every conditional of which a
branch has begun. So whenever a node is tried at a place, in a sequence, in an alternative that is
given up later or in a repetition, as many levels are left there as at any other time
(`program_orderly`).
-/

namespace Precedence.Grammar

open Trace Attempt

/-- What a place is inside of: a parenthesis, the first branch of a conditional, or the second. -/
inductive Enclosing where
  | group
  | question
  | colon
  deriving DecidableEq

namespace Enclosing

/-- A second branch ends with whatever ends what is around it. -/
def settled (frames : List Enclosing) : List Enclosing :=
  frames.dropWhile (· = colon)

/-- The frames behind a token. -/
def pass (frames : List Enclosing) (t : Token) : List Enclosing :=
  if t.kind ≠ .verbatim then frames
  else if t.text = "(" then group :: frames
  else if t.text = ")" then (settled frames).tail
  else if t.text = "," then settled frames
  else if t.text = "?" then question :: frames
  else if t.text = ":" then colon :: (settled frames).tail
  else frames

/-- The frames around a place. -/
def framesAt (tokens : Array Token) (p : Nat) : List Enclosing :=
  (tokens.toList.take p).foldl pass []

/-- The frames, and second branches in them. -/
def Behind (frames frames' : List Enclosing) : Prop :=
  ∃ n, frames' = List.replicate n colon ++ frames

variable {tokens : Array Token} {p : Nat} {t : Token} {frames frames' : List Enclosing}

theorem framesAt_succ (ht : tokens[p]? = some t) :
    framesAt tokens (p + 1) = pass (framesAt tokens p) t := by
  unfold framesAt
  rw [List.take_add_one, Array.getElem?_toList, ht, Option.toList_some, List.foldl_append]
  rfl

theorem Behind.refl (frames : List Enclosing) : Behind frames frames := ⟨0, rfl⟩

theorem Behind.settled_eq (h : Behind frames frames') : settled frames' = settled frames := by
  obtain ⟨n, rfl⟩ := h
  simp [settled]

theorem Behind.colon (h : Behind (colon :: frames) frames') : Behind frames frames' := by
  obtain ⟨n, rfl⟩ := h
  exact ⟨n + 1, by simp [List.replicate_succ']⟩

theorem pass_kind (h : t.kind ≠ .verbatim) : pass frames t = frames := by
  simp [pass, h]

theorem pass_other (h : ∀ text ∈ marks, text ≠ "=" → ¬ t.IsVerbatim text) :
    pass frames t = frames := by
  unfold pass
  by_cases hk : t.kind = .verbatim
  · have hne : ∀ text ∈ marks, text ≠ "=" → t.text ≠ text :=
      fun text hm he ht => h text hm he ⟨hk, ht⟩
    rw [if_neg (fun h => h hk), if_neg (hne _ (by decide) (by decide)),
      if_neg (hne _ (by decide) (by decide)), if_neg (hne _ (by decide) (by decide)),
      if_neg (hne _ (by decide) (by decide)), if_neg (hne _ (by decide) (by decide))]
  · rw [if_pos hk]

theorem pass_open (h : t.IsVerbatim "(") : pass frames t = group :: frames := by
  simp [pass, h.1, h.2]

theorem pass_close (h : t.IsVerbatim ")") : pass frames t = (settled frames).tail := by
  simp [pass, h.1, h.2]

theorem pass_comma (h : t.IsVerbatim ",") : pass frames t = settled frames := by
  simp [pass, h.1, h.2]

theorem pass_question (h : t.IsVerbatim "?") : pass frames t = question :: frames := by
  simp [pass, h.1, h.2]

theorem pass_colon (h : t.IsVerbatim ":") : pass frames t = colon :: (settled frames).tail := by
  simp [pass, h.1, h.2]

end Enclosing

open Enclosing

/-- All visits are good ones, and the frames behind whatever is read are as described. -/
structure Orderly {ι V : Type} (good : Visit ι → Prop) (tokens : Array Token)
    (t : Trace ι (Outcome V)) (post : List Enclosing → Prop) : Prop where
  visits : ∀ v ∈ t.visits, good v
  frames : ∀ c q, t.Reads c q → post (framesAt tokens q)

section Attempts

variable {ι V : Type} {good : Visit ι → Prop} {tokens : Array Token} {p : Nat}
  {P Q : List Enclosing → Prop} {a b : Attempt ι V}

theorem orderly_seq (h : Orderly good tokens (a p) P)
    (h' : ∀ m, P (framesAt tokens m) → Orderly good tokens (b m) Q) :
    Orderly good tokens (seq a b p) Q := by
  constructor
  · intro v hv
    rcases mem_visits_bind hv with hv | ⟨_ | ⟨c, m⟩, ho, hv⟩
    · exact h.visits v hv
    · simp [Trace.pure] at hv
    · simp only [bind_map] at hv
      exact (h' m (h.frames c m ho)).visits v hv
  · intro c q hread
    obtain ⟨c₁, m, c₂, h₁, h₂, -⟩ := reads_seq.mp hread
    exact (h' m (h.frames c₁ m h₁)).frames c₂ q h₂

theorem orderly_choice (h : Orderly good tokens (a p) P) (h' : Orderly good tokens (b p) P) :
    Orderly good tokens (choice a b p) P := by
  constructor
  · intro v hv
    rcases mem_visits_bind hv with hv | ⟨_ | _, ho, hv⟩
    · exact h.visits v hv
    · exact h'.visits v hv
    · simp [Trace.pure] at hv
  · intro c q hread
    rcases reads_choice.mp hread with h₁ | ⟨-, h₂⟩
    · exact h.frames c q h₁
    · exact h'.frames c q h₂

theorem orderly_optional (h : Orderly good tokens (a p) P) (hp : P (framesAt tokens p)) :
    Orderly good tokens (optional a p) P := by
  constructor
  · intro v hv
    rcases mem_visits_bind hv with hv | ⟨_ | _, ho, hv⟩
    · exact h.visits v hv
    · simp [Trace.pure] at hv
    · simp [Trace.pure] at hv
  · intro c q hread
    rcases reads_optional.mp hread with h₁ | ⟨-, -, rfl⟩
    · exact h.frames c q h₁
    · exact hp

theorem orderly_rounds (h : ∀ m, P (framesAt tokens m) → Orderly good tokens (a m) P) :
    ∀ (n p : Nat), P (framesAt tokens p) → ∀ v ∈ (rounds a n p).visits, good v
  | 0, p, _, v, hv => by simp [rounds, Trace.pure] at hv
  | n + 1, p, hp, v, hv => by
    rcases mem_visits_bind hv with hv | ⟨_ | ⟨c, m⟩, ho, hv⟩
    · exact (h p hp).visits v hv
    · simp [Trace.pure] at hv
    · by_cases hpm : p < m
      · simp only [if_pos hpm, bind_map] at hv
        exact orderly_rounds h n m ((h p hp).frames c m ho) v hv
      · simp [if_neg hpm, Trace.pure] at hv

/-- What every round keeps, the repetition keeps. -/
theorem orderly_star (hp : P (framesAt tokens p))
    (h : ∀ m, P (framesAt tokens m) → Orderly good tokens (a m) P) :
    Orderly good tokens (star tokens a p) P := by
  constructor
  · intro v hv
    rcases mem_visits_bind hv with hv | ⟨_ | _, ho, hv⟩
    · rcases mem_visits_bind hv with hv | ⟨_ | ⟨c, m⟩, ho, hv⟩
      · exact (h p hp).visits v hv
      · simp [Trace.pure] at hv
      · simp only [bind_map] at hv
        exact orderly_rounds h _ m ((h p hp).frames c m ho) v hv
    · simp [Trace.pure] at hv
    · simp [Trace.pure] at hv
  · intro c q hread
    exact star_induction (P := fun p _ q => P (framesAt tokens p) → P (framesAt tokens q))
      (fun _ hp => hp) (fun p c m c' q hr ih hp => ih ((h p hp).frames c m hr)) hread hp

theorem visits_expecting (what : String) (wanted : Token → Bool) (capture : Token → List V) :
    (expecting tokens what wanted capture p : Trace ι (Outcome V)).visits = [] := by
  unfold expecting
  rcases tokens[p]? with _ | t
  · rfl
  · by_cases hw : wanted t
    · simp only [if_pos hw]
      rfl
    · simp only [if_neg hw]
      rfl

end Attempts

section Rules

variable {ι V : Type} [Capture V] {good : Visit ι → Prop} {tokens : Array Token} {levels : Nat}
  {target : Nat → Option (Attempt ι V)} {p : Nat} {P Q : List Enclosing → Prop} {r : Rule ι V}
  {rules : List (Rule ι V)}

theorem orderly_kind {k : TokenKind} (hk : k ≠ .verbatim) (hp : P (framesAt tokens p)) :
    Orderly good tokens ((Rule.kind k : Rule ι V).trace tokens levels target p) P := by
  constructor
  · intro v hv
    simp only [Rule.trace, visits_expecting, List.not_mem_nil] at hv
  · intro c q hread
    obtain ⟨t, ht, rfl, -, rfl⟩ := Rule.reads_kind.mp hread
    rw [framesAt_succ ht, pass_kind hk]
    exact hp

theorem orderly_verbatim {text : String}
    (h : ∀ t, t.IsVerbatim text → P (pass (framesAt tokens p) t)) :
    Orderly good tokens ((Rule.verbatim text : Rule ι V).trace tokens levels target p) P := by
  constructor
  · intro v hv
    simp only [Rule.trace, visits_expecting, List.not_mem_nil] at hv
  · intro c q hread
    obtain ⟨t, ht, hv, -, rfl⟩ := Rule.reads_verbatim.mp hread
    rw [framesAt_succ ht]
    exact h t hv

theorem orderly_all_nil (hp : P (framesAt tokens p)) :
    Orderly good tokens ((Rule.all [] : Rule ι V).trace tokens levels target p) P := by
  constructor
  · intro v hv
    simp [Rule.all, Rule.trace, Trace.pure] at hv
  · intro c q hread
    obtain ⟨-, rfl⟩ := Rule.reads_all_nil.mp hread
    exact hp

theorem orderly_all_cons (h : Orderly good tokens (r.trace tokens levels target p) P)
    (h' : ∀ m, P (framesAt tokens m) →
      Orderly good tokens ((Rule.all rules).trace tokens levels target m) Q) :
    Orderly good tokens ((Rule.all (r :: rules)).trace tokens levels target p) Q :=
  orderly_seq h h'

theorem orderly_any : ∀ {rules : List (Rule ι V)},
    (∀ r ∈ rules, Orderly good tokens (r.trace tokens levels target p) P) →
      Orderly good tokens ((Rule.any rules).trace tokens levels target p) P
  | [], _ => by
    constructor
    · intro v hv
      simp [Rule.any, Rule.trace, Trace.pure] at hv
    · intro c q hread
      exact absurd (reads_pure.mp hread) (by simp)
  | r :: rules, h => orderly_choice (h r List.mem_cons_self)
    (orderly_any fun r' hr' => h r' (List.mem_cons_of_mem _ hr'))

theorem orderly_node {strategy : Strategy} {key : ι} {reduce : Reducer V}
    (hv : good ⟨key, p, levels⟩) (h : Orderly good tokens (r.trace tokens levels target p) P) :
    Orderly good tokens ((strategy.node key r reduce).trace tokens levels target p) P := by
  have hnode : ∀ v ∈ (Attempt.node tokens (r.trace tokens levels target) reduce p).visits,
      good v := by
    intro v hv
    rcases mem_visits_bind hv with hv | ⟨_ | _, ho, hv⟩
    · exact h.visits v hv
    · simp [Trace.pure] at hv
    · simp [Trace.pure] at hv
  constructor
  · intro v hvisit
    rcases strategy with _ | _
    · exact hnode v hvisit
    · rcases List.mem_cons.mp hvisit with rfl | hvisit
      · exact hv
      · exact hnode v hvisit
  · intro c q hread
    obtain ⟨c', v, h', -, -⟩ := Strategy.reads_node.mp hread
    exact h.frames c' q h'

end Rules

/-! ### The rules of the grammar -/

/-- A compound, an assignment and what stands in it belong to the level around their parenthesis,
though they stand behind it. -/
def Production.offset : Production → Nat
  | hole place => place.levels
  | target place => place.levels
  | assignment place => place.levels
  | compound place => place.levels
  | _ => 0

/-- As many levels are left as the place of the visit tells. -/
def Fits (tokens : Array Token) (v : Visit Production) : Prop :=
  (framesAt tokens v.position).length + v.levels = nestingLimit + v.key.offset

section Grammar

variable {options : GrammarOptions} {tokens : Array Token} {levels : Nat}
  {target : Nat → Option (Attempt Production Part)} {p : Nat}

/-- A rule that is tried where so many levels are left as the place tells, up to an offset. -/
def Nests (tokens : Array Token) (levels offset : Nat)
    (post : List Enclosing → List Enclosing → Prop)
    (a : Attempt Production Part) : Prop :=
  ∀ p, (framesAt tokens p).length + levels = nestingLimit + offset →
    Orderly (Fits tokens) tokens (a p) (post (framesAt tokens p))

theorem literal_nests :
    Nests tokens levels 0 Eq ((literal options).trace tokens levels target) := by
  intro p hp
  rw [literal_eq]
  refine orderly_any fun r hr => ?_
  obtain ⟨k, hk, rfl⟩ := List.mem_map.mp hr
  rcases mem_literalKinds.mp hk with rfl | rfl | rfl | rfl | ⟨-, rfl⟩ <;>
    exact orderly_node hp (orderly_kind (by decide) rfl)

section Compounds

variable (place : Place) {expression : GrammarRule}
  (hx : Nests tokens levels place.levels Behind (expression.trace tokens levels target))

include hx

theorem assignable_nests : Nests tokens levels place.levels Behind
    ((assignable options place expression).trace tokens levels target) := by
  intro p hp
  unfold assignable
  by_cases ha : options.assignments
  · rw [if_pos ha]
    refine orderly_any fun r hr => ?_
    rcases List.mem_cons.mp hr with rfl | hr
    · refine orderly_node hp (orderly_all_cons (P := (· = framesAt tokens p))
        (orderly_node hp (orderly_kind (by decide) rfl)) fun m hm => ?_)
      refine orderly_all_cons (P := (· = framesAt tokens p)) (orderly_verbatim fun t ht => ?_)
        fun m hm => ?_
      · rw [hm]
        exact pass_other fun text _ hne h => hne (h.text_unique ht)
      · refine orderly_all_cons (hm ▸ hx m (hm ▸ hp)) fun m hm => orderly_all_nil hm
    · obtain rfl : r = expression := by simpa using hr
      exact hx p hp
  · rw [if_neg ha]
    exact hx p hp

theorem compound_nests : ∀ p, settled (framesAt tokens p) = framesAt tokens p →
    (framesAt tokens p).length + levels = nestingLimit + place.levels →
      Orderly (Fits tokens) tokens
        ((compound options place expression).trace tokens levels target p)
        (Behind (framesAt tokens p)) := by
  intro p hsettled hp
  have helement : ∀ m, framesAt tokens m = framesAt tokens p → Orderly (Fits tokens) tokens
      ((assignable options place expression).trace tokens levels target m)
      (Behind (framesAt tokens p)) :=
    fun m hm => hm ▸ assignable_nests place hx m (hm ▸ hp)
  refine orderly_node hp (orderly_all_cons (helement p rfl) fun m hm =>
    orderly_all_cons (orderly_star hm fun m hm => ?_) fun m hm => orderly_all_nil hm)
  refine orderly_all_cons (P := (· = framesAt tokens p)) ?_ fun m hm =>
    orderly_all_cons (helement m hm) fun m hm => orderly_all_nil hm
  refine orderly_all_cons (P := (· = framesAt tokens p)) (orderly_verbatim fun t ht => ?_)
    fun m hm => orderly_all_cons (P := (· = framesAt tokens p)) (orderly_star hm fun m hm => ?_)
      fun m hm => orderly_all_nil hm
  · rw [pass_comma ht, hm.settled_eq, hsettled]
  · have hfits : (framesAt tokens m).length + levels = nestingLimit + place.levels := hm ▸ hp
    refine orderly_node hfits (orderly_verbatim fun t ht => ?_)
    rw [pass_comma ht, hm, hsettled]

end Compounds

section Nested

variable (hn : Nests tokens levels 1 Behind (nested.trace tokens levels target))

include hn

theorem primary_nests :
    Nests tokens levels 0 Eq ((primary options).trace tokens levels target) := by
  intro p hp
  refine orderly_any fun r hr => ?_
  simp only [List.mem_cons, List.not_mem_nil, or_false] at hr
  rcases hr with rfl | rfl | rfl
  · exact orderly_node hp (orderly_kind (by decide) rfl)
  · exact literal_nests p hp
  · refine orderly_all_cons (P := (· = .group :: framesAt tokens p))
      (orderly_verbatim fun t ht => pass_open ht) fun m hm => ?_
    have hcompound : Orderly (Fits tokens) tokens
        ((compound options .group nested).trace tokens levels target m)
        (Behind (framesAt tokens m)) :=
      compound_nests .group hn m (by rw [hm]; rfl)
        (by rw [hm, List.length_cons, Place.levels]; omega)
    refine orderly_all_cons hcompound fun m' hm' => orderly_all_cons
      (orderly_verbatim fun t ht => ?_) fun _ h => orderly_all_nil h
    rw [pass_close ht, hm'.settled_eq, hm]
    rfl

theorem unary_nests :
    Nests tokens levels 0 Eq ((unary options).trace tokens levels target) := by
  intro p hp
  refine orderly_node hp (orderly_all_cons (P := (framesAt tokens p = ·))
    (orderly_star rfl fun m hm => ?_)
      fun m hm => orderly_all_cons (hm ▸ primary_nests hn m (hm ▸ hp))
      fun _ h => orderly_all_nil h)
  have hfits : (framesAt tokens m).length + levels = nestingLimit := hm ▸ hp
  refine orderly_node hfits (orderly_any fun r hr => ?_)
  obtain ⟨op, hop, rfl⟩ := List.mem_map.mp hr
  refine orderly_verbatim fun t ht => ?_
  rw [pass_other fun text hm _ h => op.symbol_not_mem_marks (ht.text_unique h ▸ hm)]
  exact hm

theorem chain_nests : ∀ k,
    Nests tokens levels 0 Eq ((chainRule options k).trace tokens levels target)
  | 0 => unary_nests hn
  | k + 1 => by
    intro p hp
    refine orderly_node hp (orderly_all_cons (chain_nests k p hp) fun m hm => orderly_all_cons
      (P := (framesAt tokens p = ·)) (orderly_star hm fun m hm => ?_) fun _ h => orderly_all_nil h)
    have hfits : (framesAt tokens m).length + levels = nestingLimit := hm ▸ hp
    refine orderly_node hfits (orderly_all_cons (P := (framesAt tokens p = ·))
      (orderly_node hfits (orderly_any fun r hr => ?_)) fun m hm => orderly_all_cons
        (hm ▸ chain_nests k m (hm ▸ hp)) fun _ h => orderly_all_nil h)
    obtain ⟨op, hop, rfl⟩ := List.mem_map.mp hr
    refine orderly_verbatim fun t ht => ?_
    rw [pass_other fun text hm _ h => op.symbol_not_mem_marks (ht.text_unique h ▸ hm)]
    exact hm

theorem expression_nests_of_nested :
    Nests tokens levels 0 Behind ((expression options).trace tokens levels target) := by
  intro p hp
  rw [expression_eq]
  refine orderly_node hp (orderly_all_cons (chain_nests hn _ p hp) fun m hm => orderly_all_cons
    (orderly_optional ?_ (hm ▸ .refl _)) fun _ h => orderly_all_nil h)
  refine orderly_all_cons (P := (· = .question :: framesAt tokens p))
    (orderly_verbatim fun t ht => ?_) fun m hm => ?_
  · rw [pass_question ht, hm]
  have hconsequent := hn m (by rw [hm, List.length_cons]; omega)
  refine orderly_all_cons hconsequent fun m' hm' => ?_
  refine orderly_all_cons (P := (· = .colon :: framesAt tokens p))
    (orderly_verbatim fun t ht => ?_) fun m hm => ?_
  · rw [pass_colon ht, hm'.settled_eq, hm]
    rfl
  have halternate := hn m (by rw [hm, List.length_cons]; omega)
  refine orderly_all_cons (P := Behind (framesAt tokens p)) ?_ fun _ h => orderly_all_nil h
  exact ⟨halternate.visits, fun c q h => (hm ▸ halternate.frames c q h).colon⟩

end Nested

/-! ### All levels -/

theorem nested_nests (levels : Nat) :
    Nests tokens levels 1 Behind (attempt options tokens levels nested) := by
  induction levels with
  | zero =>
    refine fun p _ => ⟨fun v hv => ?_, fun c q h => ?_⟩
    · simp [attempt, RuleGraph.trace, nested, Rule.trace, Attempt.reference,
        RuleGraph.traceBehind, graph, RuleGraph.close, refused] at hv
    · exact absurd h (by simp [RuleGraph.trace, nested, Rule.trace, Attempt.reference,
        RuleGraph.traceBehind, graph, RuleGraph.close, Reads, refused])
  | succ levels ih =>
    exact fun p hp => expression_nests_of_nested ih p (by omega)

/-- Every node that is tried in a program fits its place. -/
theorem program_orderly (options : GrammarOptions) (tokens : Array Token) :
    ∀ v ∈ (attempt options tokens nestingLimit (program options) 0).visits, Fits tokens v :=
  (compound_nests .program (fun p hp => expression_nests_of_nested
    (nested_nests nestingLimit) p hp) 0 rfl (by rfl)).visits

end Grammar

end Precedence.Grammar
