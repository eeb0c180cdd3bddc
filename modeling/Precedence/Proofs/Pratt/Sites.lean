import Precedence.Proofs.LineScanner.Sites
import Precedence.Proofs.Pratt.Binding

/-!
# Where the Pratt parser fails

Whatever its table says, the parser fails at one of its tokens or behind the last one: each reader
leaves a cursor among the same tokens, and points at one of them if it fails (`Careful`). As the
scanner has no token with a line break in it, every failure is located in the text
(`failures_located`), and so is the end of the input.
-/

namespace Precedence.Pratt

open Text

variable {table : Table} {tokens : List Token}

/-- The failure is one at a token, or behind the last one. -/
inductive PointsInto (tokens : List Token) : Failure → Prop where
  | token {t : Token} (problem : String) : t ∈ tokens → PointsInto tokens (failureAt t problem)
  | finish (problem : String) : PointsInto tokens (.operator problem (endSite tokens))

/-- The cursor is at one of the tokens, or behind the last one. -/
structure Cursor.Among (c : Cursor) (tokens : List Token) : Prop where
  mem : ∀ sign ∈ c.rest, sign.1 ∈ tokens
  finish : c.finish = endSite tokens

/-- A result that leaves a cursor among the tokens, and points at one of them if it is a failure. -/
structure Lands (tokens : List Token) {α : Type} (result : Except Failure α × Cursor) : Prop where
  among : result.2.Among tokens
  points : ∀ failure, result.1 = .error failure → PointsInto tokens failure

/-- Started among the tokens, the reader lands there. -/
def Careful (tokens : List Token) (reader : Reader) : Prop :=
  ∀ c, c.Among tokens → Lands tokens (reader c)

theorem lands_ok {α : Type} {c : Cursor} (h : c.Among tokens) (a : α) :
    Lands tokens (.ok a, c) :=
  ⟨h, by simp⟩

theorem lands_error {α : Type} {failure : Failure} {c : Cursor} (hc : c.Among tokens)
    (h : PointsInto tokens failure) : Lands tokens ((.error failure : Except Failure α), c) := by
  refine ⟨hc, fun failure' h' => ?_⟩
  obtain rfl := Except.error.inj h'
  exact h

/-! ### The next token -/

section Cursors

variable {c : Cursor} (h : c.Among tokens)

include h

theorem Cursor.Among.advance : c.advance.Among tokens := by
  unfold Cursor.advance
  split
  · exact h
  · next sign rest hrest =>
    refine ⟨fun sign' hmem => h.mem sign' ?_, h.finish⟩
    rw [hrest]
    exact List.mem_cons_of_mem _ hmem

theorem Cursor.Among.of_peek {t : Token} {s : Symbol} (hpeek : c.peek = some (t, s)) :
    t ∈ tokens :=
  h.mem _ (List.mem_of_head? hpeek)

theorem Cursor.Among.failure (problem : String) : PointsInto tokens (c.failure problem) := by
  unfold Cursor.failure
  split
  · next hpeek => exact .token problem (h.of_peek hpeek)
  · rw [h.finish]
    exact .finish problem

theorem Cursor.Among.expect (symbol : Symbol) : Lands tokens (c.expect symbol) := by
  unfold Cursor.expect
  split
  · next t s hpeek =>
    split
    · exact lands_ok h.advance t
    · exact lands_error h (.token _ (h.of_peek hpeek))
  · rw [h.finish]
    exact lands_error h (.finish _)

end Cursors

/-! ### The readers -/

section Readers

variable {deeper : Nat → Reader} (hdeeper : ∀ precedence, Careful tokens (deeper precedence))

include hdeeper

theorem careful_opening (t : Token) (symbol : Symbol) (opening : Opening) :
    Careful tokens (readOpening deeper t symbol opening) := by
  intro c hc
  cases opening with
  | name => exact lands_ok hc _
  | literal =>
    rcases hvalue : t.value with value | value <;> simp only [readOpening, hvalue]
    · exact lands_ok hc _
    · exact lands_ok hc _
  | operator =>
    have hlands := hdeeper frontPrecedence c hc
    rcases hread : deeper frontPrecedence c with ⟨failure | operand, c₁⟩ <;>
      rw [hread] at hlands <;> simp only [readOpening, hread]
    · exact lands_error hlands.among (hlands.points _ rfl)
    · exact lands_ok hlands.among _
  | group closing =>
    have hlands := hdeeper 0 c hc
    rcases hread : deeper 0 c with ⟨failure | term, c₁⟩ <;> rw [hread] at hlands
    · simp only [readOpening, hread]
      exact lands_error hlands.among (hlands.points _ rfl)
    have hcloses := hlands.among.expect closing
    rcases hclose : c₁.expect closing with ⟨failure | t', c₂⟩ <;>
      rw [hclose] at hcloses <;> simp only [readOpening, hread, hclose]
    · exact lands_error hcloses.among (hcloses.points _ rfl)
    · exact lands_ok hcloses.among _

theorem careful_extend (precedence : Nat) :
    ∀ fuel left, Careful tokens (extend table deeper precedence fuel left)
  | 0, left => fun c hc => lands_ok hc left
  | fuel + 1, left => fun c hc => by
    unfold extend
    split
    · exact lands_ok hc left
    split
    · exact lands_ok hc left
    next joining _ =>
    split
    · exact lands_ok hc left
    have hlands := hdeeper joining.operandPrecedence c.advance hc.advance
    rcases hread : deeper joining.operandPrecedence c.advance with ⟨failure | right, c₁⟩ <;>
      rw [hread] at hlands
    · exact lands_error hlands.among (hlands.points _ rfl)
    · exact careful_extend precedence fuel _ c₁ hlands.among

theorem careful_binding (precedence : Nat) :
    Careful tokens (readBinding table deeper precedence) := by
  intro c hc
  unfold readBinding Cursor.consume
  rcases hpeek : c.peek with _ | ⟨t, symbol⟩
  · exact lands_error hc.advance (hc.advance.failure _)
  simp only
  split
  · exact lands_error hc.advance (.token _ (hc.of_peek hpeek))
  next opening _ =>
  have hlands := careful_opening hdeeper t symbol opening c.advance hc.advance
  rcases hread : readOpening deeper t symbol opening c.advance with ⟨failure | left, c₁⟩ <;>
    rw [hread] at hlands
  · exact lands_error hlands.among (hlands.points _ rfl)
  · exact careful_extend hdeeper precedence _ left c₁ hlands.among

end Readers

theorem careful_within (table : Table) :
    ∀ levels precedence, Careful tokens (readWithin table levels precedence)
  | 0, _ => fun _ hc => lands_error hc (hc.failure _)
  | levels + 1, precedence => careful_binding (careful_within table levels) precedence

/-! ### Whole rows -/

theorem pointsInto_of_ofToken {t : Token} {failure : Failure} (ht : t ∈ tokens)
    (h : Symbol.ofToken t = .error failure) : PointsInto tokens failure := by
  unfold Symbol.ofToken at h
  split at h <;> try simp at h
  split at h
  · simp at h
  · obtain rfl := Except.error.inj h
    exact .token _ ht

theorem pointsInto_of_mapM : ∀ {ts : List Token} {failure : Failure}, ts ⊆ tokens →
    ts.mapM (fun t => (Symbol.ofToken t).map fun s => (t, s)) = .error failure →
      PointsInto tokens failure
  | [], _, _, h => by
    simp [pure, Except.pure] at h
  | t :: ts, failure, hts, h => by
    rw [List.mapM_cons] at h
    rcases Failure.bind_eq_error_iff.mp h with h | ⟨sign, -, h⟩
    · rcases hs : Symbol.ofToken t with failure' | s
      · rw [hs] at h
        obtain rfl := Except.error.inj h
        exact pointsInto_of_ofToken (hts List.mem_cons_self) hs
      · simp [hs, Except.map] at h
    · rcases Failure.bind_eq_error_iff.mp h with h | ⟨signs, -, h⟩
      · exact pointsInto_of_mapM (fun t' ht' => hts (List.mem_cons_of_mem _ ht')) h
      · simp [pure, Except.pure] at h

theorem among_of_ofTokens {c : Cursor} (h : Cursor.ofTokens tokens = .ok c) : c.Among tokens := by
  obtain ⟨row, hrow, h⟩ := Failure.bind_eq_ok_iff.mp h
  obtain rfl := Except.ok.inj h
  refine ⟨fun sign hmem => ?_, rfl⟩
  rw [← (mapM_eq_ok_iff.mp hrow).1]
  exact List.mem_map_of_mem hmem

theorem pointsInto_of_parseTokens {failure : Failure}
    (h : parseTokens table tokens = .error failure) : PointsInto tokens failure := by
  rcases Failure.bind_eq_error_iff.mp h with h | ⟨c, hc, h⟩
  · rcases Failure.bind_eq_error_iff.mp h with h | ⟨row, -, h⟩
    · exact pointsInto_of_mapM (List.Subset.refl _) h
    · simp [pure, Except.pure] at h
  have hlands := careful_within table depthLimit 0 c (among_of_ofTokens hc)
  rcases hread : readExpression table 0 c with ⟨failure' | term, c₁⟩ <;>
    rw [readExpression] at hread <;> rw [hread] at hlands
  · simp only [readExpression, hread, bind, Except.bind, Except.error.injEq] at h
    exact h ▸ hlands.points _ rfl
  rcases hpeek : c₁.peek with _ | ⟨t, s⟩
  · simp [readExpression, hread, hpeek, bind, Except.bind, pure, Except.pure] at h
  · simp only [readExpression, hread, hpeek, bind, Except.bind, throw, throwThe,
      MonadExceptOf.throw, Except.error.injEq] at h
    exact h ▸ .token _ (hlands.among.of_peek hpeek)

/-- A failure at a token, or behind the last one, is located in the text where the tokens stand. -/
theorem PointsInto.located {text : List Char} {failure : Failure} (h : PointsInto tokens failure)
    (hstands : ∀ t ∈ tokens, t.StandsIn [] text)
    (hline : ∀ t ∈ tokens, ∀ c ∈ t.text.toList, InLine c) :
    ∃ site, failure.site? = some site ∧ site.Located text := by
  cases h with
  | token problem ht => exact ⟨_, rfl, (hstands _ ht).located⟩
  | finish problem => exact ⟨_, rfl, endSite_located hstands hline⟩

/-- Whatever the table and the text, a failure of the parser has a span in the text, that of the
piece between two places between characters, and its position is that of the beginning of the
piece. -/
theorem failures_located {table : Table} {text : String} {failure : Failure}
    (h : parse table text = .error failure) :
    ∃ site span front w behind, failure.site? = some site ∧ site.span = some span ∧
      span.start ≤ span.stop ∧ span.stop ≤ byteLength text.toList ∧
      site.Marks text.toList front w behind ∧
      site.position = positionBetween front (w ++ behind) := by
  have hlocated : ∃ site, failure.site? = some site ∧ site.Located text.toList := by
    rcases Failure.bind_eq_error_iff.mp h with hscan | ⟨tokens, hscan, hparse⟩
    · exact LineScanner.located_of_scan hscan
    · exact (pointsInto_of_parseTokens hparse).located
        (LineScanner.covered_of_scan hscan).standsIn (LineScanner.inLine_of_scan hscan)
  obtain ⟨site, hsite, front, w, behind, hmarks, hposition⟩ := hlocated
  obtain ⟨span, hspan, hordered, hinside⟩ := hmarks.in_bounds
  exact ⟨site, span, front, w, behind, hsite, hspan, hordered, hinside, hmarks, hposition⟩

/-- A group that is not closed in the second line, where a character of two bytes stands. -/
theorem open_group_located : ∃ failure, parse .standard "( a +\r\n\"é\" " = .error failure ∧
    ∃ site front w behind, failure.site? = some site ∧ site.span = some ⟨11, 11⟩ ∧
      11 ≤ byteLength "( a +\r\n\"é\" ".toList ∧ site.position = ⟨2, 4⟩ ∧
      site.Marks "( a +\r\n\"é\" ".toList front w behind ∧
      site.position = positionBetween front (w ++ behind) := by
  have hplace : placeOf? (parse .standard "( a +\r\n\"é\" ") = some (⟨2, 4⟩, some ⟨11, 11⟩) := by
    decide +kernel
  obtain ⟨failure, site, hparse, hsite, hposition, hspan⟩ := exists_of_placeOf? hplace
  obtain ⟨site', span, front, w, behind, hsite', hspan', -, hinside, hmarks, hlocated⟩ :=
    failures_located hparse
  obtain rfl := Option.some.inj (hsite.symm.trans hsite')
  obtain rfl := Option.some.inj (hspan.symm.trans hspan')
  exact ⟨failure, hparse, site, front, w, behind, hsite, hspan, hinside, hposition, hmarks,
    hlocated⟩

end Precedence.Pratt
