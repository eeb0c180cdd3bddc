import Precedence.Proofs.Pratt.Binding

/-!
# What the Pratt parser reads hangs on the tokens that are left

How far a reader goes, what it reads and at which token it fails is told by the tokens in front of
it (`Local`), whatever was read before: an `Outcome` says it in terms of the number of tokens from
where the reader starts. All readers of the parser are such (`local_within`), and if they do not
fail they take at least one token (`length_lt_of_read`).
-/

namespace Precedence.Pratt

namespace Cursor

/-- The place behind the next tokens. -/
def skip (c : Cursor) (n : Nat) : Cursor :=
  { c with position := c.position + n, rest := c.rest.drop n }

theorem skip_zero (c : Cursor) : c.skip 0 = c :=
  rfl

theorem skip_skip (c : Cursor) (m n : Nat) : (c.skip m).skip n = c.skip (m + n) := by
  simp only [skip, List.drop_drop, Nat.add_assoc]

theorem advance_eq_skip {c : Cursor} (h : c.rest ≠ []) : c.advance = c.skip 1 := by
  obtain ⟨sign, rest, hrest⟩ := List.exists_cons_of_ne_nil h
  simp [advance, skip, hrest]

/-- A symbol that is not met is not taken. -/
theorem expect_failed {c : Cursor} {s : Symbol} {failure : Failure}
    (h : (c.expect s).1 = .error failure) : (c.expect s).2 = c := by
  unfold expect at h ⊢
  rcases hpeek : c.peek with _ | ⟨t, s'⟩
  · rfl
  · simp only [hpeek] at h ⊢
    split at h
    · simp at h
    · next hs => rw [if_neg hs]

end Cursor

/-- What comes of a reader: a value or a failure, and how many tokens are taken. A failure has its
place that many tokens from the beginning; behind all of them is the end of the input. -/
inductive Outcome (α : Type) where
  | value (a : α) (taken : Nat)
  | failure (problem : String) (place : Nat) (taken : Nat)

namespace Outcome

variable {α : Type}

/-- The outcome of a reader that starts at the cursor. -/
def startAt : Outcome α → Cursor → Except Failure α × Cursor
  | value a taken, c => (.ok a, c.skip taken)
  | failure problem place taken, c => (.error ((c.skip place).failure problem), c.skip taken)

/-- The outcome does not go beyond that many tokens. -/
def Within (n : Nat) : Outcome α → Prop
  | value _ taken => taken ≤ n
  | failure _ place taken => place ≤ n ∧ taken ≤ n

/-- The outcome when some tokens are taken before. -/
def behind (n : Nat) : Outcome α → Outcome α
  | value a taken => value a (n + taken)
  | failure problem place taken => failure problem (n + place) (n + taken)

theorem startAt_behind (o : Outcome α) (n : Nat) (c : Cursor) :
    (o.behind n).startAt c = o.startAt (c.skip n) := by
  cases o <;> simp only [behind, startAt, Cursor.skip_skip]

theorem Within.behind {o : Outcome α} {n : Nat} {row : List Sign} (hn : n ≤ row.length)
    (h : o.Within (row.drop n).length) : (o.behind n).Within row.length := by
  rw [List.length_drop] at h
  cases o <;> simp only [Within, Outcome.behind] at h ⊢ <;> omega

end Outcome

/-- What comes of the reader is told by the tokens in front of it. -/
def Local {α : Type} (read : Cursor → Except Failure α × Cursor) : Prop :=
  ∀ rest : List Sign, ∃ o : Outcome α, o.Within rest.length ∧
    ∀ c, c.rest = rest → read c = o.startAt c

section Local

variable {α β : Type}

theorem local_value (a : α) : Local fun c => (.ok a, c) :=
  fun _ => ⟨.value a 0, Nat.zero_le _, fun _ _ => rfl⟩

theorem local_failure (problem : String) :
    Local fun c => ((.error (c.failure problem) : Except Failure α), c) :=
  fun _ => ⟨.failure problem 0 0, ⟨Nat.zero_le _, Nat.zero_le _⟩, fun _ _ => rfl⟩

theorem Local.congr {read read' : Cursor → Except Failure α × Cursor} (h : Local read)
    (hsame : ∀ c, read' c = read c) : Local read' := by
  rwa [funext hsame]

/-- Goes on with another reader, which may hang on what was read, unless the first one fails. -/
def andThen (read : Cursor → Except Failure α × Cursor)
    (next : α → Cursor → Except Failure β × Cursor) (c : Cursor) : Except Failure β × Cursor :=
  match read c with
  | (.error e, c) => (.error e, c)
  | (.ok a, c) => next a c

theorem Local.andThen {read : Cursor → Except Failure α × Cursor}
    {next : α → Cursor → Except Failure β × Cursor} (hread : Local read)
    (hnext : ∀ a, Local (next a)) : Local (andThen read next) := by
  intro rest
  obtain ⟨o, ho, hat⟩ := hread rest
  cases o with
  | failure problem place taken =>
    exact ⟨.failure problem place taken, ho, fun c hc => by
      simp only [Pratt.andThen, hat c hc, Outcome.startAt]⟩
  | value a taken =>
    obtain ⟨o', ho', hat'⟩ := hnext a (rest.drop taken)
    refine ⟨o'.behind taken, ho'.behind ho, fun c hc => ?_⟩
    have hrest : (c.skip taken).rest = rest.drop taken := congrArg (List.drop taken) hc
    rw [Outcome.startAt_behind, ← hat' _ hrest, Pratt.andThen, hat c hc]
    rfl

/-- A reader that is chosen by the tokens in front of it. -/
theorem Local.of_rest {read : List Sign → Cursor → Except Failure α × Cursor}
    (h : ∀ rest, Local (read rest)) : Local fun c => read c.rest c := by
  intro rest
  obtain ⟨o, ho, hat⟩ := h rest rest
  refine ⟨o, ho, fun c hc => ?_⟩
  simp only [hc, hat c hc]

/-- So is what comes of it behind the next token. -/
theorem Local.behind_first {read : Cursor → Except Failure α × Cursor} (h : Local read)
    (first : Sign) (rest : List Sign) : ∃ o : Outcome α, o.Within (first :: rest).length ∧
      ∀ c, c.rest = first :: rest → read c.advance = o.startAt c := by
  obtain ⟨o, ho, hat⟩ := h rest
  refine ⟨o.behind 1, ho.behind (Nat.succ_le_succ (Nat.zero_le _)), fun c hc => ?_⟩
  have hskip : (c.skip 1).rest = rest := congrArg (List.drop 1) hc
  rw [Outcome.startAt_behind, ← hat _ hskip, ← Cursor.advance_eq_skip (by simp [hc])]

theorem local_expect (s : Symbol) : Local fun c => c.expect s := by
  intro rest
  rcases rest with _ | ⟨⟨t, s'⟩, rest⟩
  · refine ⟨.failure ("expected " ++ s.describe ++ " but found end of input") 0 0,
      ⟨Nat.zero_le _, Nat.zero_le _⟩, fun c hc => ?_⟩
    simp only [Cursor.expect, peek_of_nil hc, Outcome.startAt, Cursor.skip_zero, Cursor.failure]
  by_cases hs : s' = s
  · refine ⟨.value t 1, Nat.succ_le_succ (Nat.zero_le _), fun c hc => ?_⟩
    have hne : c.rest ≠ [] := by simp [hc]
    simp only [Cursor.expect, peek_of_rest hc, if_pos hs, Outcome.startAt,
      Cursor.advance_eq_skip hne]
  · refine ⟨.failure ("expected " ++ s.describe ++ " but found " ++ t.describe) 0 0,
      ⟨Nat.zero_le _, Nat.zero_le _⟩, fun c hc => ?_⟩
    simp only [Cursor.expect, peek_of_rest hc, if_neg hs, Outcome.startAt, Cursor.skip_zero,
      Cursor.failure]

end Local

/-! ### The readers -/

section Readers

variable {table : Table} {deeper : Nat → Reader} (hdeeper : ∀ precedence, Local (deeper precedence))

include hdeeper

theorem local_opening (t : Token) (s : Symbol) (opening : Opening) :
    Local (readOpening deeper t s opening) := by
  cases opening with
  | name => exact local_value _
  | literal =>
    rcases hvalue : t.value with value | value <;> unfold readOpening <;> simp only [hvalue]
    · exact local_value _
    · exact local_value _
  | operator =>
    refine ((hdeeper frontPrecedence).andThen fun operand =>
      local_value (.prefixed s operand)).congr fun c => ?_
    rw [readOpening, andThen]
    rcases deeper frontPrecedence c with ⟨_ | operand, c₁⟩ <;> rfl
  | group closing =>
    refine ((hdeeper 0).andThen fun term =>
      (local_expect closing).andThen fun _ => local_value term).congr fun c => ?_
    rw [readOpening, andThen]
    rcases deeper 0 c with ⟨_ | term, c₁⟩
    · rfl
    · simp only [andThen]
      rcases c₁.expect closing with ⟨_ | t', c₂⟩ <;> rfl

theorem local_extend (precedence : Nat) :
    ∀ fuel left, Local (extend table deeper precedence fuel left)
  | 0, left => local_value left
  | fuel + 1, left => by
    intro rest
    have hstop : ∀ c : Cursor, (∀ t ∈ c.peek, ¬ table.Exceeds precedence t.2) →
        extend table deeper precedence (fuel + 1) left c =
          (.value left 0 : Outcome Term).startAt c :=
      fun c hstops => extend_of_stops hstops
    rcases rest with _ | ⟨⟨t, s⟩, rest⟩
    · exact ⟨.value left 0, Nat.zero_le _, fun c hc => hstop c (by simp [peek_of_nil hc])⟩
    by_cases hexceeds : table.Exceeds precedence s
    · obtain ⟨joining, hjoining, hlt⟩ := hexceeds
      obtain ⟨o, ho, hat⟩ := ((hdeeper joining.operandPrecedence).andThen fun right =>
        local_extend precedence fuel (.operation left s right)).behind_first (t, s) rest
      refine ⟨o, ho, fun c hc => ?_⟩
      rw [← hat c hc, extend, andThen]
      simp only [peek_of_rest hc, hjoining, if_neg (Nat.not_le.mpr hlt)]
      rcases deeper joining.operandPrecedence c.advance with ⟨_ | right, c₁⟩ <;> rfl
    · exact ⟨.value left 0, Nat.zero_le _, fun c hc =>
        hstop c (by simpa [peek_of_rest hc] using hexceeds)⟩

theorem local_binding (precedence : Nat) : Local (readBinding table deeper precedence) := by
  intro rest
  rcases rest with _ | ⟨⟨t, s⟩, rest⟩
  · refine ⟨.failure "expected an expression but found end of input" 0 0,
      ⟨Nat.zero_le _, Nat.zero_le _⟩, fun c hc => ?_⟩
    have hadvance : c.advance = c := by simp [Cursor.advance, hc]
    simp only [readBinding, Cursor.consume, peek_of_nil hc, hadvance, Outcome.startAt,
      Cursor.skip_zero]
  rcases hopening : table.opening? s with _ | opening
  · refine ⟨.failure ("could not parse " ++ t.describe) 0 1,
      ⟨Nat.zero_le _, Nat.succ_le_succ (Nat.zero_le _)⟩, fun c hc => ?_⟩
    have hne : c.rest ≠ [] := by simp [hc]
    simp only [readBinding, consume_of_rest hc, hopening, Outcome.startAt, Cursor.skip_zero,
      Cursor.failure, peek_of_rest hc, Cursor.advance_eq_skip hne]
  · obtain ⟨o, ho, hat⟩ := ((local_opening hdeeper t s opening).andThen fun left =>
      .of_rest fun rest => local_extend hdeeper precedence rest.length left).behind_first (t, s) rest
    refine ⟨o, ho, fun c hc => ?_⟩
    rw [← hat c hc]
    simp only [readBinding, consume_of_rest hc, hopening, andThen]
    rcases readOpening deeper t s opening c.advance with ⟨_ | left, c₁⟩ <;> rfl

end Readers

theorem local_within (table : Table) :
    ∀ levels precedence, Local (readWithin table levels precedence)
  | 0, _ => local_failure _
  | levels + 1, precedence => local_binding (local_within table levels) precedence

theorem Tree.signs_ne_nil (tree : Tree) : tree.signs ≠ [] := by
  cases tree <;> simp [Tree.signs]

/-- An expression that is read has taken a token. -/
theorem length_lt_of_read {table : Table} {levels precedence : Nat} {c c' : Cursor} {e : Term}
    (h : readWithin table levels precedence c = (.ok e, c')) : c'.rest.length < c.rest.length := by
  obtain ⟨tree, -, hbound, -⟩ := readWithin_sound levels precedence c e c' h
  rw [hbound.rest, List.length_append]
  exact Nat.lt_add_of_pos_left (List.length_pos_iff.mpr tree.signs_ne_nil)

end Precedence.Pratt
