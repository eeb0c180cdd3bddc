import Mathlib.Tactic.SplitIfs
import Precedence.Proofs.Pratt.Tree

/-!
# The Pratt parser binds as its table says

What the parser reads is a tree whose expressions all fit their levels (`readWithin_sound`), and of a
row that is spelled by such a tree it reads just that tree, unless expressions nest too deeply
(`readWithin_complete`). So apart from the limit the trees are all there is to its answers, whatever
the table (`parses_iff_bound`).
-/

namespace Precedence.Pratt

/-- What is said where expressions nest too deeply. -/
def limitProblem : String :=
  "nesting too deep: more than " ++ toString depthLimit ++ " levels"

/-- The nesting limit is reported, wherever that is. -/
def MeetsLimit (result : Except Failure Term) : Prop :=
  ∃ site, result = .error (.operator limitProblem site)

/-- A reader stops at the nesting limit. -/
def Overruns (result : Except Failure Term × Cursor) : Prop :=
  ∃ site c, result = (.error (.operator limitProblem site), c)

variable {table : Table}

/-- The tree is spelled by the signs between two places, and is bound as the table says. -/
structure Bound (table : Table) (c : Cursor) (tree : Tree) (c' : Cursor) : Prop where
  rest : c.rest = tree.signs ++ c'.rest
  registered : tree.Registered table
  settled : tree.Settled table c'.peek

/-- A reader finds only trees that are bound as the table says and fit the level asked for. -/
def Sound (table : Table) (deeper : Nat → Reader) : Prop :=
  ∀ level c e c', deeper level c = (.ok e, c') →
    ∃ tree, tree.erase = e ∧ Bound table c tree c' ∧ tree.Fits table level c'.peek

/-! ### The next sign -/

section Cursors

variable {c c' : Cursor} {sign : Sign} {rest : List Sign}

theorem peek_of_rest (h : c.rest = sign :: rest) : c.peek = some sign := by
  rw [Cursor.peek, h, List.head?_cons]

theorem peek_of_nil (h : c.rest = []) : c.peek = none := by
  rw [Cursor.peek, h, List.head?_nil]

theorem advance_rest (h : c.rest = sign :: rest) : c.advance.rest = rest := by
  simp [Cursor.advance, h]

theorem consume_of_rest (h : c.rest = sign :: rest) : c.consume = (some sign, c.advance) := by
  simp [Cursor.consume, peek_of_rest h]

theorem peek_eq_some (h : c.peek = some sign) : c.rest = sign :: c.advance.rest := by
  obtain ⟨rest, hrest⟩ := List.head?_eq_some_iff.mp h
  rw [advance_rest hrest, hrest]

theorem consume_eq_some (h : c.consume = (some sign, c')) : c.rest = sign :: c'.rest := by
  rcases hrest : c.rest with _ | ⟨first, rest⟩
  · simp [Cursor.consume, peek_of_nil hrest] at h
  · obtain ⟨rfl, rfl⟩ : first = sign ∧ c.advance = c' := by
      simpa [consume_of_rest hrest] using h
    rw [advance_rest hrest]

theorem expect_eq_ok {s : Symbol} {t : Token} (h : c.expect s = (.ok t, c')) :
    c.rest = (t, s) :: c'.rest := by
  unfold Cursor.expect at h
  rcases hpeek : c.peek with _ | ⟨t', s'⟩
  · simp [hpeek] at h
  · simp only [hpeek] at h
    split_ifs at h with hs
    · simp only [Prod.mk.injEq, Except.ok.injEq] at h
      obtain ⟨rfl, rfl⟩ := h
      rw [peek_eq_some hpeek, hs]
    · simp at h

end Cursors

/-! ### What is read is bound -/

section Soundness

variable {deeper : Nat → Reader} (hdeeper : Sound table deeper)

include hdeeper

theorem readOpening_sound {t : Token} {s : Symbol} {opening : Opening} {c₀ c c' : Cursor}
    {e : Term} (hrest : c₀.rest = (t, s) :: c.rest) (hopening : table.opening? s = some opening)
    (h : readOpening deeper t s opening c = (.ok e, c')) :
    ∃ tree, tree.erase = e ∧ Bound table c₀ tree c' ∧ tree.spine = [] := by
  cases opening with
  | name =>
    simp only [readOpening, Prod.mk.injEq, Except.ok.injEq] at h
    obtain ⟨rfl, rfl⟩ := h
    exact ⟨.name (t, s), rfl, ⟨hrest, hopening, trivial⟩, rfl⟩
  | literal =>
    refine ⟨.literal (t, s), ?_⟩
    rcases hvalue : t.value with value | value <;>
      simp only [readOpening, hvalue, Prod.mk.injEq, Except.ok.injEq] at h <;>
      obtain ⟨rfl, rfl⟩ := h <;>
      exact ⟨by simp only [Tree.erase, hvalue], ⟨hrest, hopening, trivial⟩, rfl⟩
  | operator =>
    unfold readOpening at h
    rcases hread : deeper frontPrecedence c with ⟨_ | operand, c₁⟩
    · simp [hread] at h
    simp only [hread, Prod.mk.injEq, Except.ok.injEq] at h
    obtain ⟨rfl, rfl⟩ := h
    obtain ⟨tree, rfl, hbound, hfits⟩ := hdeeper _ _ _ _ hread
    refine ⟨.prefixed (t, s) tree, rfl, ⟨?_, ⟨hopening, hbound.registered⟩, hfits,
      hbound.settled⟩, rfl⟩
    rw [hrest, hbound.rest]
    rfl
  | group closing =>
    unfold readOpening at h
    rcases hread : deeper 0 c with ⟨_ | content, c₁⟩
    · simp [hread] at h
    rcases hclose : c₁.expect closing with ⟨_ | t', c₂⟩
    · simp [hread, hclose] at h
    simp only [hread, hclose, Prod.mk.injEq, Except.ok.injEq] at h
    obtain ⟨rfl, rfl⟩ := h
    obtain ⟨tree, rfl, hbound, hfits⟩ := hdeeper _ _ _ _ hread
    have hcloser := expect_eq_ok hclose
    have hsettled := hbound.settled
    rw [peek_of_rest hcloser] at hfits hsettled
    refine ⟨.group (t, s) tree (t', closing), rfl,
      ⟨?_, ⟨hopening, hbound.registered⟩, hfits, hsettled⟩, rfl⟩
    rw [hrest, hbound.rest, hcloser]
    simp [Tree.signs]

/-- An extension keeps what holds of the tree on the left, and goes on as long as it can. -/
theorem extend_sound {level : Nat} {c₀ : Cursor} : ∀ {fuel : Nat} {tree : Tree} {c c' : Cursor}
    {e : Term}, Bound table c₀ tree c → (∀ op ∈ tree.spine, table.Exceeds level op.2) →
      c.rest.length ≤ fuel → extend table deeper level fuel tree.erase c = (.ok e, c') →
        ∃ tree', tree'.erase = e ∧ Bound table c₀ tree' c' ∧ tree'.Fits table level c'.peek
  | 0, tree, c, c', e, hbound, hspine, hfuel, h => by
    simp only [extend, Prod.mk.injEq, Except.ok.injEq] at h
    obtain ⟨rfl, rfl⟩ := h
    refine ⟨tree, rfl, hbound, hspine, ?_⟩
    simp [peek_of_nil (List.length_eq_zero_iff.mp (Nat.le_zero.mp hfuel))]
  | fuel + 1, tree, c, c', e, hbound, hspine, hfuel, h => by
    -- the loop ends before the next token
    have hstop : (∀ t ∈ c.peek, ¬ table.Exceeds level t.2) →
        ((.ok tree.erase, c) : Except Failure Term × Cursor) = (.ok e, c') →
        ∃ tree', tree'.erase = e ∧ Bound table c₀ tree' c' ∧ tree'.Fits table level c'.peek := by
      intro hstops h
      simp only [Prod.mk.injEq, Except.ok.injEq] at h
      obtain ⟨rfl, rfl⟩ := h
      exact ⟨tree, rfl, hbound, hspine, hstops⟩
    unfold extend at h
    rcases hpeek : c.peek with _ | ⟨t, s⟩
    · simp only [hpeek] at h
      exact hstop (by simp [hpeek]) h
    rcases hjoining : table.joining? s with _ | joining
    · simp only [hpeek, hjoining] at h
      exact hstop (by simp [hpeek, Table.Exceeds, hjoining]) h
    simp only [hpeek, hjoining] at h
    split_ifs at h with hle
    · exact hstop (by simp [hpeek, Table.Exceeds, hjoining, hle]) h
    rcases hread : deeper joining.operandPrecedence c.advance with ⟨_ | right, c₁⟩
    · simp [hread] at h
    simp only [hread] at h
    obtain ⟨operand, rfl, hright, hfits⟩ := hdeeper _ _ _ _ hread
    have hop := peek_eq_some hpeek
    have hsettled := hbound.settled
    rw [hpeek] at hsettled
    have hbound' : Bound table c₀ (.operation tree (t, s) operand) c₁ := by
      refine ⟨?_, ⟨by simp [hjoining], hbound.registered, hright.registered⟩,
        hsettled, hright.settled, fun joining' hjoining' => ?_⟩
      · rw [hbound.rest, hop, hright.rest]
        simp [Tree.signs]
      · obtain rfl : joining = joining' := by simpa [hjoining] using hjoining'
        exact hfits
    have hspine' : ∀ op ∈ (Tree.operation tree (t, s) operand).spine,
        table.Exceeds level op.2 := by
      intro op hmem
      rcases List.mem_cons.mp hmem with rfl | hmem
      · exact ⟨joining, hjoining, Nat.not_le.mp hle⟩
      · exact hspine op hmem
    have hfuel' : c₁.rest.length ≤ fuel := by
      have hlength := congrArg List.length hright.rest
      rw [hop, List.length_cons] at hfuel
      rw [List.length_append] at hlength
      omega
    exact extend_sound hbound' hspine' hfuel' h

theorem readBinding_sound : Sound table (readBinding table deeper) := by
  intro level c e c' h
  unfold readBinding at h
  rcases hconsume : c.consume with ⟨_ | ⟨t, s⟩, c₁⟩
  · simp [hconsume] at h
  rcases hopening : table.opening? s with _ | opening
  · simp [hconsume, hopening] at h
  rcases hread : readOpening deeper t s opening c₁ with ⟨_ | left, c₂⟩
  · simp [hconsume, hopening, hread] at h
  simp only [hconsume, hopening, hread] at h
  obtain ⟨tree, rfl, hbound, hspine⟩ :=
    readOpening_sound hdeeper (consume_eq_some hconsume) hopening hread
  exact extend_sound hdeeper hbound (by simp [hspine]) (Nat.le_refl _) h

end Soundness

theorem readWithin_sound : ∀ levels, Sound table (readWithin table levels)
  | 0 => fun _ _ _ _ h => by simp [readWithin] at h
  | levels + 1 => readBinding_sound (readWithin_sound levels)

/-! ### What is bound is read -/

section Completeness

theorem extend_of_stops {deeper : Nat → Reader} {level fuel : Nat} {left : Term} {c : Cursor}
    (h : ∀ t ∈ c.peek, ¬ table.Exceeds level t.2) :
    extend table deeper level fuel left c = (.ok left, c) := by
  cases fuel with
  | zero => rfl
  | succ fuel =>
    unfold extend
    rcases hpeek : c.peek with _ | ⟨t, s⟩
    · rfl
    rcases hjoining : table.joining? s with _ | joining
    · simp only [hjoining]
    · have hle : joining.precedence ≤ level :=
        Nat.le_of_not_lt fun hlt => h (t, s) hpeek ⟨joining, hjoining, hlt⟩
      simp only [hjoining, if_pos hle]

theorem overruns_of_no_levels (level : Nat) (c : Cursor) :
    Overruns (readWithin table 0 level c) := by
  unfold readWithin Cursor.failure
  rcases c.peek with _ | ⟨t, s⟩ <;> exact ⟨_, c, rfl⟩

section Extensions

variable {deeper : Nat → Reader} {level fuel : Nat} {left : Term} {c c' : Cursor} {t : Sign}
  {rest : List Sign} {joining : Joining} (hrest : c.rest = t :: rest)
  (hjoining : table.joining? t.2 = some joining) (hexceeds : level < joining.precedence)

include hrest hjoining hexceeds

theorem extend_of_read {right : Term}
    (hread : deeper joining.operandPrecedence c.advance = (.ok right, c')) :
    extend table deeper level (fuel + 1) left c =
      extend table deeper level fuel (.operation left t.2 right) c' := by
  rw [extend]
  simp only [peek_of_rest hrest, hjoining, if_neg (Nat.not_le.mpr hexceeds), hread]

theorem extend_of_failure {failure : Failure}
    (hread : deeper joining.operandPrecedence c.advance = (.error failure, c')) :
    extend table deeper level (fuel + 1) left c = (.error failure, c') := by
  rw [extend]
  simp only [peek_of_rest hrest, hjoining, if_neg (Nat.not_le.mpr hexceeds), hread]

end Extensions

/-- From the place in front of a tree, the term of the tree is extended at the place behind it. -/
def Reaches (table : Table) (deeper : Nat → Reader) (level : Nat) (tree : Tree) (rest : List Sign)
    (result : Except Failure Term × Cursor) : Prop :=
  ∃ c fuel, c.rest = rest ∧ rest.length ≤ fuel ∧
    result = extend table deeper level fuel tree.erase c

/-- Wherever the tree stands, and whatever the number of levels, the parser gets behind it, or it
meets the limit. -/
def Passable (table : Table) (tree : Tree) : Prop :=
  ∀ (levels level : Nat) (c : Cursor) (rest : List Sign), c.rest = tree.signs ++ rest →
    tree.Settled table rest.head? → (∀ op ∈ tree.spine, table.Exceeds level op.2) →
    Reaches table (readWithin table levels) level tree rest
        (readBinding table (readWithin table levels) level c) ∨
      Overruns (readBinding table (readWithin table levels) level c)

/-- As an expression of a level that it fits, such a tree is read, or the limit is met. -/
theorem Passable.read {tree : Tree} (h : Passable table tree) (levels : Nat) {level : Nat}
    {c : Cursor} {rest : List Sign} (hrest : c.rest = tree.signs ++ rest)
    (hsettled : tree.Settled table rest.head?) (hfits : tree.Fits table level rest.head?) :
    (∃ c', c'.rest = rest ∧ readWithin table levels level c = (.ok tree.erase, c')) ∨
      Overruns (readWithin table levels level c) := by
  cases levels with
  | zero => exact .inr (overruns_of_no_levels level c)
  | succ levels =>
    rcases h levels level c rest hrest hsettled hfits.spine with ⟨c', fuel, hc', -, hread⟩ | hover
    · refine .inl ⟨c', hc', hread.trans (extend_of_stops ?_)⟩
      rw [Cursor.peek, hc']
      exact hfits.stops
    · exact .inr hover

section Openings

variable {levels level : Nat} {c : Cursor} {t : Sign} {rest : List Sign} {opening : Opening}
  {tree : Tree} (hrest : c.rest = t :: rest) (hopening : table.opening? t.2 = some opening)

include hrest hopening

theorem reaches_of_opening {c' : Cursor} {behind : List Sign}
    (h : readOpening (readWithin table levels) t.1 t.2 opening c.advance = (.ok tree.erase, c'))
    (hbehind : c'.rest = behind) :
    Reaches table (readWithin table levels) level tree behind
      (readBinding table (readWithin table levels) level c) := by
  refine ⟨c', c'.rest.length, hbehind, Nat.le_of_eq (congrArg List.length hbehind.symm), ?_⟩
  simp only [readBinding, consume_of_rest hrest, hopening, h]

theorem overruns_of_opening
    (h : Overruns (readOpening (readWithin table levels) t.1 t.2 opening c.advance)) :
    Overruns (readBinding table (readWithin table levels) level c) := by
  obtain ⟨site, c', hread⟩ := h
  exact ⟨site, c', by simp only [readBinding, consume_of_rest hrest, hopening, hread]⟩

end Openings

theorem passable : ∀ tree : Tree, tree.Registered table → Passable table tree
  | .name t, hname => fun levels level c rest hrest _ _ =>
    .inl (reaches_of_opening hrest hname rfl (advance_rest hrest))
  | .literal t, hliteral => fun levels level c rest hrest _ _ => by
    refine .inl (reaches_of_opening hrest hliteral ?_ (advance_rest hrest))
    rcases hvalue : t.1.value with value | value <;> simp only [readOpening, Tree.erase, hvalue]
  | .prefixed op operand, ⟨hoperator, hoperand⟩ => fun levels level c rest hrest hsettled _ => by
    have hnext := advance_rest hrest
    rcases (passable operand hoperand).read levels hnext hsettled.2 hsettled.1 with
      ⟨c', hc', hread⟩ | ⟨site, c', hread⟩
    · exact .inl (reaches_of_opening hrest hoperator (by simp only [readOpening, hread]; rfl) hc')
    · exact .inr (overruns_of_opening hrest hoperator
        ⟨site, c', by simp only [readOpening, hread]⟩)
  | .group opener content closer, ⟨hgroup, hcontent⟩ =>
    fun levels level c rest hrest hsettled _ => by
    have hnext : c.advance.rest = content.signs ++ closer :: rest := by
      rw [advance_rest hrest]
      exact List.append_assoc content.signs [closer] rest
    rcases (passable content hcontent).read levels hnext hsettled.2 hsettled.1 with
      ⟨c', hc', hread⟩ | ⟨site, c', hread⟩
    · have hexpect : c'.expect closer.2 = (.ok closer.1, c'.advance) := by
        simp [Cursor.expect, peek_of_rest hc']
      refine .inl (reaches_of_opening hrest hgroup ?_ (advance_rest hc'))
      simp only [readOpening, hread, hexpect]
      rfl
    · exact .inr (overruns_of_opening hrest hgroup
        ⟨site, c', by simp only [readOpening, hread]⟩)
  | .operation left op right, ⟨hop, hleft, hright⟩ =>
    fun levels level c rest hrest hsettled hspine => by
    obtain ⟨joining, hjoining⟩ := Option.isSome_iff_exists.mp hop
    obtain ⟨hsettledLeft, hsettledRight, hfits⟩ := hsettled
    obtain ⟨_, hjoining', hexceeds⟩ := hspine op List.mem_cons_self
    obtain rfl := Option.some.inj (hjoining.symm.trans hjoining')
    have hrest' : c.rest = left.signs ++ op :: (right.signs ++ rest) := by
      rw [hrest, Tree.signs, List.append_assoc]
      rfl
    -- the loop stands behind the left operand, with the operator in front
    rcases passable left hleft levels level c _ hrest' hsettledLeft
      (fun op' hop' => hspine op' (List.mem_cons_of_mem _ hop')) with
      ⟨c₁, fuel, hc₁, hfuel, hreach⟩ | hover
    · obtain ⟨fuel, rfl⟩ := Nat.exists_eq_add_one_of_ne_zero
        (Nat.ne_of_gt (Nat.lt_of_lt_of_le (Nat.succ_pos _) hfuel))
      rw [hreach]
      rcases (passable right hright).read levels (advance_rest hc₁) hsettledRight
        (hfits joining hjoining) with ⟨c₂, hc₂, hread⟩ | ⟨site, c₂, hread⟩
      · refine .inl ⟨c₂, fuel, hc₂, ?_, extend_of_read hc₁ hjoining hexceeds hread⟩
        simp only [List.length_cons, List.length_append] at hfuel
        omega
      · exact .inr ⟨site, c₂, extend_of_failure hc₁ hjoining hexceeds hread⟩
    · exact .inr hover

theorem readWithin_complete {tree : Tree} (levels : Nat) {level : Nat} {c : Cursor}
    {rest : List Sign} (hrest : c.rest = tree.signs ++ rest) (hregistered : tree.Registered table)
    (hsettled : tree.Settled table rest.head?) (hfits : tree.Fits table level rest.head?) :
    (∃ c', c'.rest = rest ∧ readWithin table levels level c = (.ok tree.erase, c')) ∨
      Overruns (readWithin table levels level c) :=
  (passable tree hregistered).read levels hrest hsettled hfits

end Completeness

/-! ### Whole rows -/

theorem classifies_cons {t : Token} {tokens : List Token} {row : List Sign} :
    Classifies (t :: tokens) row ↔
      ∃ s row', row = (t, s) :: row' ∧ Symbol.ofToken t = .ok s ∧ Classifies tokens row' := by
  constructor
  · rintro ⟨htokens, hsymbols⟩
    obtain ⟨⟨t', s⟩, row', rfl, rfl, hrow'⟩ := List.map_eq_cons_iff.mp htokens
    exact ⟨s, row', rfl, hsymbols _ List.mem_cons_self, hrow',
      fun p hp => hsymbols p (List.mem_cons_of_mem _ hp)⟩
  · rintro ⟨s, row', rfl, hs, rfl, hsymbols⟩
    exact ⟨rfl, List.forall_mem_cons.mpr ⟨hs, hsymbols⟩⟩

theorem mapM_eq_ok_iff : ∀ {tokens : List Token} {row : List Sign},
    tokens.mapM (fun t => (Symbol.ofToken t).map fun s => (t, s)) = .ok row ↔ Classifies tokens row
  | [], row => by
    rw [List.mapM_nil, Classifies, List.map_eq_nil_iff]
    constructor
    · rintro ⟨⟩
      exact ⟨rfl, by simp⟩
    · rintro ⟨rfl, -⟩
      rfl
  | t :: tokens, row => by
    rw [List.mapM_cons, classifies_cons]
    simp only [← mapM_eq_ok_iff]
    rcases hs : Symbol.ofToken t with failure | s
    · simp [Except.map, bind, Except.bind]
    rcases tokens.mapM (fun t => (Symbol.ofToken t).map fun s => (t, s)) with failure | row'
    · simp [Except.map, bind, Except.bind]
    · simp [Except.map, bind, Except.bind, pure, Except.pure, eq_comm]

section Rows

variable {tokens : List Token} {row : List Sign} (hrow : Classifies tokens row)

/-- The place in front of a row. -/
def start (tokens : List Token) (row : List Sign) : Cursor :=
  { rest := row, finish := Cursor.finishOf tokens }

include hrow

theorem ofTokens_of_classifies : Cursor.ofTokens tokens = .ok (start tokens row) := by
  rw [Cursor.ofTokens, mapM_eq_ok_iff.mpr hrow]
  rfl

theorem parseTokens_of_read {e : Term} {c : Cursor}
    (hread : readExpression table 0 (start tokens row) = (.ok e, c)) (hrest : c.rest = []) :
    parseTokens table tokens = .ok e := by
  simp only [parseTokens, ofTokens_of_classifies hrow, bind, Except.bind, hread,
    peek_of_nil hrest, pure, Except.pure]

theorem parseTokens_of_overruns (hover : Overruns (readExpression table 0 (start tokens row))) :
    MeetsLimit (parseTokens table tokens) := by
  obtain ⟨site, c, hread⟩ := hover
  exact ⟨site, by simp only [parseTokens, ofTokens_of_classifies hrow, bind, Except.bind, hread]⟩

omit hrow in
theorem read_of_parseTokens {e : Term} (h : parseTokens table tokens = .ok e) :
    ∃ row c, Classifies tokens row ∧
      readExpression table 0 (start tokens row) = (.ok e, c) ∧ c.rest = [] := by
  rcases hmap : tokens.mapM (fun t => (Symbol.ofToken t).map fun s => (t, s)) with failure | row
  · simp [parseTokens, Cursor.ofTokens, hmap, bind, Except.bind] at h
  have hrow := mapM_eq_ok_iff.mp hmap
  simp only [parseTokens, ofTokens_of_classifies hrow, bind, Except.bind] at h
  rcases hread : readExpression table 0 (start tokens row) with ⟨_ | e', c⟩
  · simp [hread] at h
  rcases hrest : c.rest with _ | ⟨t, rest⟩
  · simp only [hread, peek_of_nil hrest, pure, Except.pure, Except.ok.injEq] at h
    exact ⟨row, c, hrow, h ▸ hread, hrest⟩
  · simp [hread, peek_of_rest hrest, throw, throwThe, MonadExceptOf.throw] at h

end Rows

/-- What is parsed is the term of a tree that is bound as the table says. -/
theorem parseTokens_sound {tokens : List Token} {e : Term} (h : parseTokens table tokens = .ok e) :
    ∃ tree : Tree, tree.erase = e ∧ Classifies tokens tree.signs ∧ tree.WellBound table := by
  obtain ⟨row, c, hrow, hread, hrest⟩ := read_of_parseTokens h
  obtain ⟨tree, rfl, hbound, hfits⟩ := readWithin_sound depthLimit _ _ _ _ hread
  have hpeek := peek_of_nil hrest
  have hsigns : row = tree.signs := by
    have hrest' := hbound.rest
    rw [hrest, List.append_nil] at hrest'
    exact hrest'
  exact ⟨tree, rfl, hsigns ▸ hrow, hbound.registered, hpeek ▸ hfits, hpeek ▸ hbound.settled⟩

/-- A row that is spelled by such a tree is parsed as its term, or is too deep. -/
theorem parseTokens_complete {tokens : List Token} {tree : Tree}
    (hrow : Classifies tokens tree.signs) (h : tree.WellBound table) :
    parseTokens table tokens = .ok tree.erase ∨ MeetsLimit (parseTokens table tokens) := by
  have hrest : (start tokens tree.signs).rest = tree.signs ++ [] := (List.append_nil _).symm
  rcases readWithin_complete depthLimit hrest h.registered h.settled h.fits with
    ⟨c, hc, hread⟩ | hover
  · exact .inl (parseTokens_of_read hrow hread hc)
  · exact .inr (parseTokens_of_overruns hrow hover)

/-- Apart from the limit, a row of symbols has a term exactly if it is spelled by a tree for that
term in which every leaf, operator and group has its role in the table, and every expression fits
its level, which is 0 for the whole row. -/
theorem parses_iff_bound {tokens : List Token}
    (hlimit : ¬ MeetsLimit (parseTokens table tokens)) (e : Term) :
    parseTokens table tokens = .ok e ↔
      ∃ tree : Tree, tree.erase = e ∧ Classifies tokens tree.signs ∧ tree.WellBound table := by
  constructor
  · exact parseTokens_sound
  · rintro ⟨tree, rfl, hrow, hbound⟩
    exact (parseTokens_complete hrow hbound).resolve_right hlimit

/-- Sums and products bind alike here, but a product takes all that follows on its right. -/
def productsRight : Table :=
  let table := (Table.empty.setOpening .name .name).2
  let table := (table.setOpening .minus .operator).2
  let table := (table.setJoining .plus ⟨3, false⟩).2
  (table.setJoining .star ⟨3, true⟩).2

/-- The tokens of `-a*b+c`. -/
def negatedProduct : List Token :=
  [⟨.punctuator, "-", .text "-", [], ⟨0, 1⟩, ⟨1, 1⟩⟩, ⟨.name, "a", .text "a", [], ⟨1, 2⟩, ⟨1, 2⟩⟩,
    ⟨.punctuator, "*", .text "*", [], ⟨2, 3⟩, ⟨1, 3⟩⟩, ⟨.name, "b", .text "b", [], ⟨3, 4⟩, ⟨1, 4⟩⟩,
    ⟨.punctuator, "+", .text "+", [], ⟨4, 5⟩, ⟨1, 5⟩⟩, ⟨.name, "c", .text "c", [], ⟨5, 6⟩, ⟨1, 6⟩⟩]

theorem negated_product_bound : ¬ MeetsLimit (parseTokens productsRight negatedProduct) ∧
    ∃ tree : Tree, tree.erase = .operation (.prefixed .minus (.name "a")) .star
        (.operation (.name "b") .plus (.name "c")) ∧
      Classifies negatedProduct tree.signs ∧ tree.WellBound productsRight := by
  have hparse : parseTokens productsRight negatedProduct =
      .ok (.operation (.prefixed .minus (.name "a")) .star
        (.operation (.name "b") .plus (.name "c"))) := rfl
  have hlimit : ¬ MeetsLimit (parseTokens productsRight negatedProduct) := by
    rw [hparse]
    rintro ⟨_, ⟨⟩⟩
  exact ⟨hlimit, (parses_iff_bound hlimit _).mp hparse⟩

end Precedence.Pratt
