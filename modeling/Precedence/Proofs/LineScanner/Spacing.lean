import Precedence.Proofs.LineScanner.Cuts

/-!
# Spaces and comments between tokens

A text is loosened by spaces where its tokens begin or end, and by comments at the ends of its lines
(`Loosened`). It keeps its tokens, in the same lines (`scan_loosened`). Line by line: up to the
first change a lexeme is followed by what followed it before, and every change begins with a space,
so the lexeme is read again (`tokensFrom_loosened`).
-/

namespace Precedence

/-- What a token says, and in which line, whatever its place there. -/
def Token.content (t : Token) : TokenKind × String × TokenValue × Nat :=
  (t.kind, t.text, t.value, t.position.line)

namespace LineScanner

open Text

theorem Scans.nil (place : Place) (rest : List Char) : Scans place [] rest [] := by
  have hhere : place.advance [] = place := rfl
  rw [Scans, hhere, List.nil_append]
  rcases tokensFrom place rest with failure | ts <;> rfl

/-- Blanks are left out. -/
theorem Scans.blanks (place : Place) (n : Nat) (rest : List Char) :
    Scans place (List.replicate n ' ') rest [] := by
  induction n generalizing place with
  | zero => exact .nil place rest
  | succ n ih => exact .append (.blank place _) (ih _)

theorem tokensFrom_comment {place : Place} {body : List Char} (hbody : ∀ c ∈ body, InLine c) :
    tokensFrom place ('/' :: '/' :: body) = .ok [] := by
  have hlexeme : lexeme? ('/' :: '/' :: body) =
      some ⟨.comment, runLength (· != '\n') body + 2, Nat.succ_pos _⟩ := rfl
  have hrun : runLength (· != '\n') (body ++ []) = body.length :=
    runLength_append (fun c hc => by simpa using (hbody c hc).1) (by simp)
  rw [List.append_nil] at hrun
  rw [tokensFrom_of_lexeme hlexeme, hrun]
  simp [token?, tokensFrom, bind, Except.bind, pure, Except.pure]

/-- One of the tokens begins or ends at the offset. -/
def IsBoundary (tokens : List Token) (offset : Nat) : Prop :=
  ∃ t ∈ tokens, t.span.start = offset ∨ t.span.stop = offset

instance (tokens : List Token) : DecidablePred (IsBoundary tokens) :=
  fun offset => inferInstanceAs
    (Decidable (∃ t ∈ tokens, t.span.start = offset ∨ t.span.stop = offset))

/-- The second text is the first one, which stands at the offset, with spaces put in where the
tokens begin or end, and with a space and a comment behind lines. -/
inductive Loosened (tokens : List Token) : Nat → List Char → List Char → Prop where
  | finish {offset : Nat} : Loosened tokens offset [] []
  | inLine {offset : Nat} {c : Char} {rest rest' : List Char} : InLine c →
    Loosened tokens (offset + c.utf8Size) rest rest' →
    Loosened tokens offset (c :: rest) (c :: rest')
  | lineBreak {offset : Nat} {lineBreak rest rest' : List Char} : LineBreak lineBreak rest →
    Loosened tokens (offset + byteLength lineBreak) rest rest' →
    Loosened tokens offset (lineBreak ++ rest) (lineBreak ++ rest')
  | space {offset : Nat} {rest rest' : List Char} : IsBoundary tokens offset →
    Loosened tokens offset rest rest' → Loosened tokens offset rest (' ' :: rest')
  /-- Behind a line comes its line break, or nothing. -/
  | comment {offset : Nat} {body rest rest' : List Char} : (∀ c ∈ body, InLine c) →
    (∀ c ∈ rest.head?, ¬ InLine c) → Loosened tokens offset rest rest' →
    Loosened tokens offset rest (' ' :: '/' :: '/' :: (body ++ rest'))

variable {marks : List Token}

namespace Loosened

/-- Up to the first change both texts are the same, and a change begins with a space. -/
theorem eq_or_blank {offset : Nat} {text text' : List Char} (h : Loosened marks offset text text') :
    text' = text ∨ ∃ common rest rest', text = common ++ rest ∧ text' = common ++ ' ' :: rest' := by
  induction h with
  | finish => exact Or.inl rfl
  | @inLine _ c _ _ _ _ ih =>
    rcases ih with rfl | ⟨common, rest, rest', rfl, rfl⟩
    · exact Or.inl rfl
    · exact Or.inr ⟨c :: common, rest, rest', rfl, rfl⟩
  | @lineBreak _ lineBreak _ _ _ _ ih =>
    rcases ih with rfl | ⟨common, rest, rest', rfl, rfl⟩
    · exact Or.inl rfl
    · exact Or.inr ⟨lineBreak ++ common, rest, rest', by simp, by simp⟩
  | space => exact Or.inr ⟨[], _, _, rfl, rfl⟩
  | comment => exact Or.inr ⟨[], _, _, rfl, rfl⟩

theorem head {offset : Nat} {text text' : List Char} (h : Loosened marks offset text text') :
    ∀ c ∈ text'.head?, c = ' ' ∨ c ∈ text.head? := by
  intro c hc
  rcases h.eq_or_blank with rfl | ⟨common, rest, rest', rfl, rfl⟩
  · exact Or.inr hc
  · rcases common with _ | ⟨d, common⟩
    · exact Or.inl (Option.some.inj hc).symm
    · exact Or.inr hc

theorem inLine_of_inLine {offset : Nat} {text text' : List Char}
    (h : Loosened marks offset text text') (hline : ∀ c ∈ text, InLine c) :
    ∀ c ∈ text', InLine c := by
  induction h with
  | finish => exact hline
  | inLine hc _ ih => exact List.forall_mem_cons.mpr ⟨hc, ih (List.forall_mem_cons.mp hline).2⟩
  | lineBreak _ _ ih =>
    obtain ⟨hbreak, hrest⟩ := List.forall_mem_append.mp hline
    exact List.forall_mem_append.mpr ⟨hbreak, ih hrest⟩
  | space _ _ ih => exact List.forall_mem_cons.mpr ⟨by decide, ih hline⟩
  | comment hbody _ _ ih =>
    simp only [List.forall_mem_cons, List.forall_mem_append]
    exact ⟨by decide, by decide, by decide, hbody, ih hline⟩

/-- In front of a character of a line there can only be spaces, and only at a boundary. -/
theorem front {offset : Nat} {c : Char} {rest text' : List Char} (hc : InLine c)
    (h : Loosened marks offset (c :: rest) text') :
    ∃ n rest', text' = List.replicate n ' ' ++ c :: rest' ∧
      Loosened marks (offset + c.utf8Size) rest rest' ∧ (¬ IsBoundary marks offset → n = 0) := by
  generalize hwhole : c :: rest = text at h
  induction h with
  | finish => exact absurd hwhole (List.cons_ne_nil _ _)
  | inLine _ h =>
    obtain ⟨rfl, rfl⟩ := List.cons.inj hwhole
    exact ⟨0, _, rfl, h, fun _ => rfl⟩
  | lineBreak hbreak _ =>
    exact absurd hc (hbreak.not_inLine c (by rw [← hwhole]; rfl))
  | space hbound _ ih =>
    obtain ⟨n, rest', rfl, hrest, -⟩ := ih hwhole
    exact ⟨n + 1, rest', rfl, hrest, fun hnone => absurd hbound hnone⟩
  | comment _ hend => exact absurd hc (hend c (by rw [← hwhole]; rfl))

/-- A piece of a line with no boundary at its beginning, or in it, stays as it is. -/
theorem piece {offset : Nat} {w rest text' : List Char} (hw : ∀ c ∈ w, InLine c)
    (h : Loosened marks offset (w ++ rest) text')
    (hnone : ∀ o, offset ≤ o → o < offset + byteLength w → ¬ IsBoundary marks o) :
    ∃ rest', text' = w ++ rest' ∧ Loosened marks (offset + byteLength w) rest rest' := by
  induction w generalizing offset text' with
  | nil => exact ⟨text', rfl, h⟩
  | cons c w ih =>
    obtain ⟨hc, hw⟩ := List.forall_mem_cons.mp hw
    have hpos := c.utf8Size_pos
    rw [byteLength_cons] at hnone
    obtain ⟨n, rest', rfl, hrest, hn⟩ := h.front hc
    obtain rfl := hn (hnone offset (Nat.le_refl _) (by omega))
    obtain ⟨rest', rfl, hrest⟩ := ih hw hrest fun o hle hlt => hnone o (by omega) (by omega)
    refine ⟨rest', rfl, ?_⟩
    rwa [byteLength_cons, ← Nat.add_assoc]

/-- A piece of a line with no boundary in it has spaces in front of it, if anything. -/
theorem behind_spaces {offset : Nat} {c : Char} {w rest text' : List Char}
    (hw : ∀ d ∈ c :: w, InLine d) (h : Loosened marks offset (c :: w ++ rest) text')
    (hnone : ∀ o, offset < o → o < offset + byteLength (c :: w) → ¬ IsBoundary marks o) :
    ∃ n rest', text' = List.replicate n ' ' ++ (c :: w ++ rest') ∧
      Loosened marks (offset + byteLength (c :: w)) rest rest' := by
  obtain ⟨hc, hw⟩ := List.forall_mem_cons.mp hw
  have hpos := c.utf8Size_pos
  rw [byteLength_cons] at hnone ⊢
  obtain ⟨n, rest', rfl, hrest, -⟩ := h.front hc
  obtain ⟨rest', rfl, hrest⟩ := hrest.piece hw fun o hle hlt => hnone o (by omega) (by omega)
  exact ⟨n, rest', rfl, by rwa [← Nat.add_assoc]⟩

/-- If nothing is left of the text, only spaces and comments can have been put in. -/
theorem tokens_of_nil {place : Place} {offset : Nat} {text' : List Char}
    (h : Loosened marks offset [] text') : tokensFrom place text' = .ok [] := by
  generalize hwhole : ([] : List Char) = text at h
  induction h generalizing place with
  | finish => rw [tokensFrom]
  | inLine _ _ => exact absurd hwhole.symm (List.cons_ne_nil _ _)
  | lineBreak hbreak _ => exact absurd (List.append_eq_nil_iff.mp hwhole.symm).1 hbreak.ne_nil
  | space _ _ ih =>
    rw [← List.singleton_append, Scans.blank place, ih hwhole]
    rfl
  | comment hbody _ h =>
    subst hwhole
    have hline := h.inLine_of_inLine (List.forall_mem_nil _)
    rw [← List.singleton_append, Scans.blank place,
      tokensFrom_comment (List.forall_mem_append.mpr ⟨hbody, hline⟩)]
    rfl

end Loosened

/-! ### Tokens of a line -/

/-- The first lexeme of a line, what it reads and what it leaves. -/
theorem exists_read {place : Place} {c : Char} {cs : List Char} {tokens : List Token}
    (hline : ∀ d ∈ c :: cs, InLine d) (h : tokensFrom place (c :: cs) = .ok tokens) :
    ∃ lexeme token later read rest, c :: cs = read ++ rest ∧
      lexeme? (read ++ rest) = some lexeme ∧ lexeme.length = read.length ∧
      lexeme.kind.Reads read rest ∧ token? place lexeme.kind read = .ok token ∧
      tokensFrom (place.advance read) rest = .ok later ∧ tokens = token.toList ++ later ∧
      rest.length < (c :: cs).length := by
  obtain ⟨lexeme, token, later, hlexeme, htoken, hlater, rfl⟩ := tokensFrom_cons h
  refine ⟨lexeme, token, later, _, _, (List.take_append_drop lexeme.length _).symm, ?_, ?_,
    reads_of_lexeme hline hlexeme, htoken, hlater, rfl, length_drop_lexeme lexeme c cs⟩
  · rwa [List.take_append_drop]
  · rw [List.length_take, Nat.min_eq_left (lexeme?_length_le hlexeme)]

/-- The token of a lexeme begins and ends where the lexeme does. -/
theorem boundary_of_token? {place : Place} {kind : LexemeKind} {read : List Char}
    {token : Option Token} {o : Nat} (h : token? place kind read = .ok token)
    (ho : IsBoundary token.toList o) : o = place.offset ∨ o = place.offset + byteLength read := by
  obtain ⟨t, ht, ho⟩ := ho
  rcases token?_eq_ok h with ⟨rfl, -⟩ | ⟨t, rfl, -, hspan, -⟩
  · simp at ht
  · obtain rfl := List.mem_singleton.mp ht
    rw [hspan] at ho
    exact ho.imp Eq.symm Eq.symm

theorem isBoundary_append {a b : List Token} {o : Nat} :
    IsBoundary (a ++ b) o ↔ IsBoundary a o ∨ IsBoundary b o := by
  simp only [IsBoundary, List.mem_append, or_and_right, exists_or]

theorem boundary_of_tokensFrom {place : Place} {w : List Char} {ts : List Token} {o : Nat}
    (hline : ∀ c ∈ w, InLine c) (h : tokensFrom place w = .ok ts) (ho : IsBoundary ts o) :
    place.offset ≤ o ∧ o ≤ place.offset + byteLength w := by
  induction hn : w.length using Nat.strongRecOn generalizing place w ts with
  | ind n ih =>
  rcases w with _ | ⟨c, cs⟩
  · rw [tokensFrom] at h
    obtain rfl := Except.ok.inj h
    obtain ⟨t, ht, -⟩ := ho
    simp at ht
  obtain ⟨lexeme, token, later, read, rest, hwhole, -, -, -, htoken, hlater, rfl, hless⟩ :=
    exists_read hline h
  rw [hwhole] at hline hless hn ⊢
  rw [byteLength_append]
  rcases isBoundary_append.mp ho with ho | ho
  · rcases boundary_of_token? htoken ho with rfl | rfl <;> omega
  · have hrest := ih _ (hn ▸ hless) (List.forall_mem_append.mp hline).2 hlater ho rfl
    simp only [Place.advance] at hrest
    omega

/-- Of the boundaries of a line none is within its first lexeme. -/
theorem boundary_of_first {place : Place} {kind : LexemeKind} {read rest : List Char}
    {token : Option Token} {later : List Token} {o : Nat} (hrest : ∀ c ∈ rest, InLine c)
    (htoken : token? place kind read = .ok token)
    (hlater : tokensFrom (place.advance read) rest = .ok later)
    (ho : IsBoundary (token.toList ++ later) o) :
    o = place.offset ∨ o = place.offset + byteLength read ∨
      IsBoundary later o ∧ place.offset + byteLength read ≤ o := by
  rcases isBoundary_append.mp ho with ho | ho
  · exact (boundary_of_token? htoken ho).imp_right Or.inl
  · exact Or.inr (Or.inr ⟨ho, (boundary_of_tokensFrom hrest hlater ho).1⟩)

theorem token?_content {place place' : Place} {kind : LexemeKind} {read : List Char}
    {token : Option Token} (hplace : place'.line = place.line)
    (h : token? place kind read = .ok token) :
    ∃ token', token? place' kind read = .ok token' ∧
      token'.map Token.content = token.map Token.content := by
  cases kind with
  | spaces => exact ⟨token, h, rfl⟩
  | comment => exact ⟨token, h, rfl⟩
  | name =>
    obtain rfl := Except.ok.inj h
    exact ⟨_, rfl, by simp [Token.content, Place.position, hplace]⟩
  | punctuator =>
    obtain rfl := Except.ok.inj h
    exact ⟨_, rfl, by simp [Token.content, Place.position, hplace]⟩
  | number =>
    simp only [token?] at h ⊢
    split at h
    · obtain rfl := Except.ok.inj h
      exact ⟨_, rfl, by simp [Token.content, Place.position, hplace]⟩
    · simp at h
  | string =>
    simp only [token?] at h ⊢
    split at h
    · obtain rfl := Except.ok.inj h
      exact ⟨_, rfl, by simp [Token.content, Place.position, hplace]⟩
    · simp at h

/-- What is put in behind a lexeme does not change it. -/
theorem Loosened.lexeme? {offset : Nat} {read rest rest' : List Char} {lexeme : Lexeme}
    (hloosened : Loosened marks offset rest rest') (h : lexeme? (read ++ rest) = some lexeme)
    (hlength : lexeme.length = read.length) (hspaces : lexeme.kind ≠ .spaces)
    (hcomment : lexeme.kind ≠ .comment) : LineScanner.lexeme? (read ++ rest') = some lexeme := by
  rcases hloosened.eq_or_blank with rfl | ⟨common, behind, behind', rfl, rfl⟩
  · exact h
  · rw [← List.append_assoc] at h ⊢
    refine lexeme?_stops h ?_ hspaces hcomment fun c hc => (Option.some.inj hc).symm
    rw [hlength, List.length_append]
    exact Nat.le_add_right _ _

/-- From the place on, the line has these tokens, though maybe at other offsets and columns. -/
def SameContent (place : Place) (line : List Char) (ts : List Token) : Prop :=
  ∃ ts', tokensFrom place line = .ok ts' ∧ ts'.map Token.content = ts.map Token.content

/-- A lexeme gives its token again, wherever in the line it stands now, if what is behind it gives
its tokens again. -/
theorem sameContent_of_lexeme {place place' : Place} {offset : Nat} {read rest rest' : List Char}
    {lexeme : Lexeme} {token : Option Token} {later : List Token}
    (hline : ∀ c ∈ read ++ rest, InLine c) (hlexeme : lexeme? (read ++ rest) = some lexeme)
    (hlength : lexeme.length = read.length) (hreads : lexeme.kind.Reads read rest)
    (htoken : token? place lexeme.kind read = .ok token)
    (hlater : tokensFrom (place.advance read) rest = .ok later)
    (hplace : place'.line = place.line) (hloosened : Loosened marks offset rest rest')
    (hrest : SameContent (place'.advance read) rest' later) :
    SameContent place' (read ++ rest') (token.toList ++ later) := by
  obtain ⟨later', hlater', hcontent⟩ := hrest
  obtain ⟨token', htoken', hsame⟩ := token?_content hplace htoken
  by_cases hcomment : lexeme.kind = .comment
  · -- nothing is behind a comment, and it takes in what is put behind it
    obtain ⟨rfl, body, rfl⟩ := hreads.comment hcomment
    rw [tokensFrom] at hlater
    obtain rfl := Except.ok.inj hlater
    have hbody := List.forall_mem_append.mp hline
    simp only [List.forall_mem_cons] at hbody
    rw [hcomment] at htoken
    obtain rfl := Except.ok.inj htoken
    refine ⟨[], tokensFrom_comment (List.forall_mem_append.mpr ⟨hbody.1.2.2, ?_⟩), rfl⟩
    exact hloosened.inLine_of_inLine hbody.2
  refine ⟨token'.toList ++ later', ?_, ?_⟩
  · by_cases hspaces : lexeme.kind = .spaces
    · rw [hspaces] at htoken'
      obtain rfl := Except.ok.inj htoken'
      rw [List.eq_replicate_of_mem (hreads.spaces hspaces)] at hlater' ⊢
      rw [Scans.blanks place' read.length rest', hlater']
      rfl
    · rw [tokensFrom_of_lexeme (hloosened.lexeme? hlexeme hlength hspaces hcomment), hlength,
        List.take_left, List.drop_left, htoken', hlater']
      rfl
  · rw [List.map_append, List.map_append, hcontent, ← Option.toList_map, hsame, Option.toList_map]

/-- A loosened line has its tokens, though at other places. -/
theorem tokensFrom_loosened {place place' : Place} {w w' : List Char} {ts : List Token}
    (hplace : place'.line = place.line) (hline : ∀ c ∈ w, InLine c)
    (h : tokensFrom place w = .ok ts) (hloosened : Loosened marks place.offset w w')
    (hmarks : ∀ o, place.offset < o → o < place.offset + byteLength w → IsBoundary marks o →
      IsBoundary ts o) : SameContent place' w' ts := by
  -- the first lexeme stays as it is behind spaces, and it leaves a shorter line
  induction hn : w.length using Nat.strongRecOn generalizing place place' w w' ts with
  | ind n ih =>
  rcases w with _ | ⟨c, cs⟩
  · rw [tokensFrom] at h
    obtain rfl := Except.ok.inj h
    exact ⟨[], hloosened.tokens_of_nil, rfl⟩
  obtain ⟨lexeme, token, later, read, rest, hwhole, hlexeme, hlength, hreads, htoken, hlater, rfl,
    hless⟩ := exists_read hline h
  rw [hwhole] at hline hless hloosened hmarks hn
  obtain ⟨hread, hrest⟩ := List.forall_mem_append.mp hline
  rw [byteLength_append] at hmarks
  have hinside : ∀ o, place.offset < o → o < place.offset + byteLength read →
      ¬ IsBoundary marks o := by
    intro o hfirst hlast hmark
    have ho := boundary_of_first hrest htoken hlater (hmarks o hfirst (by omega) hmark)
    omega
  have hbehind : ∀ o, place.offset + byteLength read < o →
      o < place.offset + byteLength read + byteLength rest → IsBoundary marks o →
      IsBoundary later o := by
    intro o hfirst hlast hmark
    rcases boundary_of_first hrest htoken hlater (hmarks o (by omega) (by omega) hmark) with
      ho | ho | ⟨ho, -⟩
    · omega
    · omega
    · exact ho
  obtain ⟨n, rest', rfl, hlater'⟩ : ∃ n rest', w' = List.replicate n ' ' ++ (read ++ rest') ∧
      Loosened marks (place.offset + byteLength read) rest rest' := by
    obtain ⟨d, ds, rfl⟩ := List.exists_cons_of_ne_nil hreads.ne_nil
    exact hloosened.behind_spaces hread hinside
  generalize hblanks : place'.advance (List.replicate n ' ') = place''
  have hhere : place''.line = place.line := hblanks ▸ hplace
  have hadvance : (place''.advance read).line = (place.advance read).line := hhere
  obtain ⟨ts', hts', hcontent⟩ := sameContent_of_lexeme hline hlexeme hlength hreads htoken hlater
    hhere hlater' (ih _ (hn ▸ hless) hadvance hrest hlater hlater' hbehind rfl)
  subst hblanks
  refine ⟨ts', ?_, hcontent⟩
  rw [Scans.blanks place' n (read ++ rest'), hts']
  rfl

/-! ### Lines -/

namespace Loosened

/-- A line is loosened in front of its break, and what is behind that by itself. -/
theorem line {offset : Nat} {w lineBreak rest text' : List Char} (hw : ∀ c ∈ w, InLine c)
    (hbreak : LineBreak lineBreak rest)
    (h : Loosened marks offset (w ++ (lineBreak ++ rest)) text') :
    ∃ w' rest', text' = w' ++ (lineBreak ++ rest') ∧ Loosened marks offset w w' ∧
      Loosened marks (offset + byteLength w + byteLength lineBreak) rest rest' := by
  generalize hwhole : w ++ (lineBreak ++ rest) = text at h
  induction h generalizing w with
  | finish =>
    have hnil := (List.append_eq_nil_iff.mp hwhole).2
    exact absurd (List.append_eq_nil_iff.mp hnil).1 hbreak.ne_nil
  | @inLine _ c _ _ hc h ih =>
    rcases w with _ | ⟨d, w⟩
    · exact absurd hc (hbreak.not_inLine c (by rw [← List.nil_append (_ ++ _), hwhole]; rfl))
    · obtain ⟨rfl, rfl⟩ := List.cons.inj hwhole
      obtain ⟨w', rest', rfl, hline, hrest⟩ := ih (List.forall_mem_cons.mp hw).2 rfl
      refine ⟨d :: w', rest', rfl, .inLine hc hline, ?_⟩
      rwa [byteLength_cons, ← Nat.add_assoc]
  | @lineBreak _ lineBreak' _ rest' hbreak' h =>
    rcases w with _ | ⟨d, w⟩
    · obtain ⟨rfl, rfl⟩ := hbreak.unique hbreak' hwhole
      exact ⟨[], rest', rfl, .finish, h⟩
    · have hd := hbreak'.not_inLine d (by rw [← hwhole]; rfl)
      exact absurd (hw d List.mem_cons_self) hd
  | space hbound _ ih =>
    obtain ⟨w', rest', rfl, hline, hrest⟩ := ih hw hwhole
    exact ⟨' ' :: w', rest', rfl, .space hbound hline, hrest⟩
  | @comment _ body _ _ hbody hend _ ih =>
    obtain ⟨w', rest', rfl, hline, hrest⟩ := ih hw hwhole
    refine ⟨' ' :: '/' :: '/' :: (body ++ w'), rest', by simp, .comment hbody ?_ hline, hrest⟩
    intro c hc
    rw [← hwhole] at hend
    exact hend c (by rw [List.head?_append, Option.mem_def.mp hc]; rfl)

/-- What is put in behind a line break leaves it one. -/
theorem lineBreak_again {offset : Nat} {lineBreak rest rest' : List Char}
    (h : Loosened marks offset rest rest') (hbreak : LineBreak lineBreak rest) :
    LineBreak lineBreak rest' := by
  cases hbreak with
  | lineFeed => exact .lineFeed
  | both => exact .both
  | carriageReturn hrest =>
    refine .carriageReturn fun hfeed => ?_
    rcases h.head '\n' hfeed with hblank | hhead
    · exact absurd hblank (by decide)
    · exact hrest hhead

end Loosened

theorem boundary_of_tokensOfLines {number start : Nat} {text : List Char} {ts : List Token}
    {o : Nat} (h : tokensOfLines number (splitLinesFrom start [] text) = .ok ts)
    (ho : IsBoundary ts o) : start ≤ o := by
  induction ofLines text generalizing number start ts with
  | last hw =>
    rw [tokensOfLines_last hw] at h
    exact (boundary_of_tokensFrom hw h ho).1
  | line hw hbreak _ ih =>
    rw [splitLinesFrom_lineBreak hw hbreak] at h
    obtain ⟨ts, us, hts, hus, rfl⟩ := tokensOfLines_cons h
    rcases isBoundary_append.mp ho with ho | ho
    · exact (boundary_of_tokensFrom hw hts ho).1
    · have hle := ih hus ho
      omega

/-- Loosened lines have their tokens, in the lines of the same numbers. -/
theorem tokensOfLines_loosened {number start start' : Nat} {text text' : List Char}
    {ts : List Token} (h : tokensOfLines number (splitLinesFrom start [] text) = .ok ts)
    (hloosened : Loosened marks start text text')
    (hmarks : ∀ o, start < o → IsBoundary marks o → IsBoundary ts o) :
    ∃ ts', tokensOfLines number (splitLinesFrom start' [] text') = .ok ts' ∧
      ts'.map Token.content = ts.map Token.content := by
  induction ofLines text generalizing number start start' text' ts with
  | last hw =>
    rw [tokensOfLines_last hw] at h
    rw [tokensOfLines_last (hloosened.inLine_of_inLine hw)]
    have hplace : Place.line ⟨number, start', 1⟩ = Place.line ⟨number, start, 1⟩ := rfl
    exact tokensFrom_loosened hplace hw h hloosened fun o hfirst _ => hmarks o hfirst
  | @line w lineBreak rest hw hbreak _ ih =>
    obtain ⟨w', rest', rfl, hline, hrest⟩ := hloosened.line hw hbreak
    rw [splitLinesFrom_lineBreak hw hbreak] at h
    rw [splitLinesFrom_lineBreak (hline.inLine_of_inLine hw) (hrest.lineBreak_again hbreak)]
    obtain ⟨ts, us, hts, hus, rfl⟩ := tokensOfLines_cons h
    have hplace : Place.line ⟨number, start', 1⟩ = Place.line ⟨number, start, 1⟩ := rfl
    obtain ⟨ts', hts', hcontent⟩ := tokensFrom_loosened hplace hw hts hline
      fun o hfirst hlast hmark => by
        rcases isBoundary_append.mp (hmarks o hfirst hmark) with ho | ho
        · exact ho
        · have hle := boundary_of_tokensOfLines hus ho
          simp only at hlast
          omega
    obtain ⟨us', hus', hcontent'⟩ := ih hus hrest fun o hfirst hmark => by
      rcases isBoundary_append.mp (hmarks o (by omega) hmark) with ho | ho
      · have hle := (boundary_of_tokensFrom hw hts ho).2
        simp only at hle
        omega
      · exact ho
    refine ⟨ts' ++ us', ?_, ?_⟩
    · rw [tokensOfLines, hts', hus']
      rfl
    · rw [List.map_append, List.map_append, hcontent, hcontent']

/-- A text that is loosened between its tokens, and by comments behind its lines, is scanned into
the same tokens in the same lines. -/
theorem scan_loosened {text text' : String} {tokens : List Token} (h : scan text = .ok tokens)
    (hloosened : Loosened tokens 0 text.toList text'.toList) :
    ∃ tokens', scan text' = .ok tokens' ∧
      tokens'.map Token.content = tokens.map Token.content := by
  rw [scan_eq] at h
  rw [scan_eq]
  exact tokensOfLines_loosened h hloosened fun _ _ hmark => hmark

/-- The tokens of `x+=y//é`, a carriage return and line feed, and `"b"`. -/
def commentedAssignment : List Token :=
  [{ kind := .name, text := "x", value := .text "x", span := ⟨0, 1⟩, position := ⟨1, 1⟩ },
    { kind := .punctuator, text := "+=", value := .text "+=", span := ⟨1, 3⟩, position := ⟨1, 2⟩ },
    { kind := .name, text := "y", value := .text "y", span := ⟨3, 4⟩, position := ⟨1, 4⟩ },
    { kind := .string, text := "\"b\"", value := .text "b", span := ⟨10, 13⟩, position := ⟨2, 1⟩ }]

theorem commented_assignment_loosened :
    scan "x+=y//é\r\n\"b\"" = .ok commentedAssignment ∧
      ∃ tokens', scan " x  += y //é //!\r\n \"b\" //" = .ok tokens' ∧
        tokens'.map Token.content = commentedAssignment.map Token.content := by
  have hscan : scan "x+=y//é\r\n\"b\"" = .ok commentedAssignment :=
    Failure.eq_ok_of_toOption (by decide +kernel)
  have hsecond : Loosened commentedAssignment 10 ['"', 'b', '"']
      [' ', '"', 'b', '"', ' ', '/', '/'] :=
    .space (by decide) (.inLine (by decide) (.inLine (by decide) (.inLine (by decide)
      (@Loosened.comment _ _ [] _ _ (List.forall_mem_nil _) (by simp) .finish))))
  have hfirst : Loosened commentedAssignment 0
      ['x', '+', '=', 'y', '/', '/', 'é', '\r', '\n', '"', 'b', '"']
      [' ', 'x', ' ', ' ', '+', '=', ' ', 'y', ' ', '/', '/', 'é', ' ', '/', '/', '!', '\r', '\n',
        ' ', '"', 'b', '"', ' ', '/', '/'] :=
    .space (by decide) (.inLine (by decide) (.space (by decide) (.space (by decide)
      (.inLine (by decide) (.inLine (by decide) (.space (by decide) (.inLine (by decide)
      (.space (by decide) (.inLine (by decide) (.inLine (by decide) (.inLine (by decide)
      (@Loosened.comment _ _ ['!'] _ _ (by simp [InLine]) (by simp [InLine])
      (@Loosened.lineBreak _ _ ['\r', '\n'] _ _ .both hsecond)))))))))))))
  exact ⟨hscan, scan_loosened hscan hfirst⟩

end LineScanner

end Precedence
