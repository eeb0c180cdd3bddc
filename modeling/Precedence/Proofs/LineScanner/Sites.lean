import Precedence.Proofs.LineScanner.Lexemes
import Precedence.Proofs.Text.Sites

/-!
# Where the line scanner fails

Each line of a text stands in it, begins in the first column, and holds no line break
(`LineScanner.stands_of_splitLinesFrom`). So the scanner, which counts the columns of one line at a
time, gives the right position for all that it refuses (`LineScanner.located_of_scan`), and no token
has part of a line break in it (`LineScanner.inLine_of_scan`).
-/

namespace Precedence.LineScanner

open Text

variable {failure : Failure}

/-! ### A line -/

/-- At the place in front of the piece `w` of a text, a site with the span of the piece is
located. -/
theorem Place.At.located {place : Place} {site : Site} {front w behind : List Char}
    (h : place.At front (w ++ behind)) (hposition : site.position = place.position)
    (hspan : site.span = some (place.span w)) : site.Located (front ++ (w ++ behind)) := by
  refine ⟨front, w, behind, ⟨rfl, ?_⟩, hposition.trans h.position⟩
  rw [hspan, Place.span, h.offset, byteLength_append]

theorem noLexeme_located {place : Place} {front behind : List Char} {c : Char} {cs : List Char}
    (h : place.At front (c :: cs ++ behind)) :
    ∃ site, (noLexeme place (c :: cs)).site? = some site ∧
      site.Located (front ++ (c :: cs ++ behind)) :=
  ⟨_, rfl, h.located (w := [c]) rfl rfl⟩

/-- A lexeme that has no token is refused as a whole. -/
theorem token?_error_located {place : Place} {kind : LexemeKind} {front read behind : List Char}
    (hplace : place.At front (read ++ behind)) (h : token? place kind read = .error failure) :
    ∃ site, failure.site? = some site ∧ site.Located (front ++ (read ++ behind)) := by
  cases kind with
  | spaces => simp [token?] at h
  | comment => simp [token?] at h
  | name => simp [token?] at h
  | punctuator => simp [token?] at h
  | number =>
    simp only [token?] at h
    split at h
    · simp at h
    · obtain rfl := Except.error.inj h
      exact ⟨_, rfl, hplace.located rfl rfl⟩
  | string =>
    simp only [token?] at h
    split at h
    · simp at h
    · obtain rfl := Except.error.inj h
      exact ⟨_, rfl, hplace.located rfl rfl⟩

/-- Where a line is not scanned, no lexeme begins there, or the one there has no token, or what is
behind it is not scanned. -/
theorem tokensFrom_cons_error {place : Place} {c : Char} {cs : List Char}
    (h : tokensFrom place (c :: cs) = .error failure) :
    failure = noLexeme place (c :: cs) ∨
      ∃ lexeme, lexeme? (c :: cs) = some lexeme ∧
        (token? place lexeme.kind ((c :: cs).take lexeme.length) = .error failure ∨
          tokensFrom (place.advance ((c :: cs).take lexeme.length))
            ((c :: cs).drop lexeme.length) = .error failure) := by
  rw [tokensFrom] at h
  split at h
  · exact Or.inl (Except.error.inj h).symm
  next lexeme hlexeme =>
  refine Or.inr ⟨lexeme, hlexeme, ?_⟩
  rcases Failure.bind_eq_error_iff.mp h with h | ⟨token, -, h⟩
  · exact Or.inl h
  rcases Failure.bind_eq_error_iff.mp h with h | ⟨tokens, -, h⟩
  · exact Or.inr h
  · simp [pure, Except.pure] at h

/-- A failure in a line points into it. -/
theorem located_of_tokensFrom {place : Place} {front w behind : List Char}
    (hline : ∀ c ∈ w, InLine c) (hplace : place.At front (w ++ behind))
    (h : tokensFrom place w = .error failure) :
    ∃ site, failure.site? = some site ∧ site.Located (front ++ (w ++ behind)) := by
  -- each lexeme leaves a shorter line, at whose beginning the place is right again
  induction hn : w.length using Nat.strongRecOn generalizing place front w with
  | ind n ih =>
  rcases w with _ | ⟨c, cs⟩
  · simp [tokensFrom] at h
  rcases tokensFrom_cons_error h with rfl | ⟨lexeme, -, hcases⟩
  · exact noLexeme_located hplace
  have hless := hn ▸ length_drop_lexeme lexeme c cs
  rw [← List.take_append_drop lexeme.length (c :: cs)] at hline hplace ⊢
  obtain ⟨hread, hrest⟩ := List.forall_mem_append.mp hline
  rw [List.append_assoc] at hplace ⊢
  rcases hcases with htoken | hlater
  · exact token?_error_located hplace htoken
  · rw [← List.append_assoc]
    exact ih _ hless hrest (hplace.advance hread) hlater rfl

/-! ### The lines of a text -/

/-- The line stands in `rest`, which follows `front`, as the one of that number: it begins in the
first column, and holds no line break. -/
structure LineStandsIn (line : Line) (number : Nat) (front rest : List Char) : Prop where
  inLine : ∀ c ∈ line.text, InLine c
  place : ∃ w behind, rest = w ++ (line.text ++ behind) ∧
    Place.At ⟨number, line.start, 1⟩ (front ++ w) (line.text ++ behind)

theorem LineStandsIn.behind {line : Line} {number : Nat} {front w rest : List Char}
    (h : LineStandsIn line number (front ++ w) rest) :
    LineStandsIn line number front (w ++ rest) := by
  obtain ⟨hline, v, behind, rfl, hplace⟩ := h
  exact ⟨hline, w ++ v, behind, (List.append_assoc _ _ _).symm, by rwa [← List.append_assoc]⟩

section Lines

variable {start number : Nat} {front w rest : List Char}

theorem lineStandsIn_here (hstart : start = byteLength front) (hline : ∀ c ∈ w, InLine c)
    (hplace : positionBetween front (w ++ rest) = ⟨number, 1⟩) :
    LineStandsIn ⟨start, w⟩ number front (w ++ rest) := by
  refine ⟨hline, [], rest, rfl, ?_⟩
  rw [List.append_nil]
  exact ⟨hstart, hplace.symm⟩

/-- A line stands in front of its break, and those behind it are counted from the next number. -/
theorem lineStandsIn_cons {lineBreak : List Char} {lines : List Line}
    (hbreak : LineBreak lineBreak rest) (hstart : start = byteLength front)
    (hline : ∀ c ∈ w, InLine c)
    (hplace : positionBetween front (w ++ (lineBreak ++ rest)) = ⟨number, 1⟩)
    (hnext : ∀ front, start + byteLength w + byteLength lineBreak = byteLength front →
      positionBetween front rest = ⟨number + 1, 1⟩ →
      ∀ p ∈ lines.zipIdx (number + 1), LineStandsIn p.1 p.2 front rest) :
    ∀ p ∈ (⟨start, w⟩ :: lines).zipIdx number,
      LineStandsIn p.1 p.2 front (w ++ (lineBreak ++ rest)) := by
  rw [List.zipIdx_cons, List.forall_mem_cons]
  refine ⟨lineStandsIn_here hstart hline hplace, fun p hp => (hnext _ ?_ ?_ p hp).behind.behind⟩
  · rw [byteLength_append, byteLength_append, hstart]
  · rw [positionBetween_append, positionBetween_append, hplace, Position.past_of_inLine hline,
      hbreak.past]

/-- The lines that begin behind `front`, the first of which is read up to behind `current`, stand in
the text one after the other. -/
theorem stands_of_splitLinesFrom {current text : List Char} (hstart : start = byteLength front)
    (hline : ∀ c ∈ current, InLine c)
    (hplace : positionBetween front (current.reverse ++ text) = ⟨number, 1⟩) :
    ∀ p ∈ (splitLinesFrom start current text).zipIdx number,
      LineStandsIn p.1 p.2 front (current.reverse ++ text) := by
  have hreverse : ∀ c ∈ current.reverse, InLine c := fun c hc => hline c (List.mem_reverse.mp hc)
  fun_induction splitLinesFrom start current text generalizing front number with
  | case1 start current =>
    exact List.forall_mem_singleton.mpr (lineStandsIn_here hstart hreverse hplace)
  | case2 start current rest ih =>
    refine lineStandsIn_cons .both hstart hreverse hplace fun front hfront hposition => ?_
    rw [byteLength_reverse] at hfront
    exact ih hfront (by simp) hposition (by simp)
  | case3 start current rest hrest ih =>
    have hhead : rest.head? ≠ some '\n' := by
      intro hhead
      obtain ⟨later, rfl⟩ := List.head?_eq_some_iff.mp hhead
      exact hrest later rfl
    refine lineStandsIn_cons (.carriageReturn hhead) hstart hreverse hplace
      fun front hfront hposition => ?_
    rw [byteLength_reverse] at hfront
    exact ih hfront (by simp) hposition (by simp)
  | case4 start current rest ih =>
    refine lineStandsIn_cons .lineFeed hstart hreverse hplace fun front hfront hposition => ?_
    rw [byteLength_reverse] at hfront
    exact ih hfront (by simp) hposition (by simp)
  | case5 start current c rest hcrlf hcr hlf ih =>
    have hinLine : ∀ d ∈ c :: current, InLine d := List.forall_mem_cons.mpr ⟨⟨hlf, hcr⟩, hline⟩
    have hwhole : current.reverse ++ c :: rest = (c :: current).reverse ++ rest := by simp
    rw [hwhole] at hplace ⊢
    exact ih hstart hinLine hplace fun d hd => hinLine d (List.mem_reverse.mp hd)

end Lines

theorem stands_of_splitLines (text : List Char) :
    ∀ p ∈ (splitLines text).zipIdx 1, LineStandsIn p.1 p.2 [] text := by
  rw [splitLines_eq]
  exact stands_of_splitLinesFrom byteLength_nil.symm (List.forall_mem_nil _) rfl

/-- Where lines are not scanned, one of them is not. -/
theorem tokensOfLines_error {number : Nat} {lines : List Line}
    (h : tokensOfLines number lines = .error failure) :
    ∃ p ∈ lines.zipIdx number, tokensFrom ⟨p.2, p.1.start, 1⟩ p.1.text = .error failure := by
  induction lines generalizing number with
  | nil => simp [tokensOfLines] at h
  | cons line lines ih =>
    rw [tokensOfLines] at h
    rw [List.zipIdx_cons]
    rcases Failure.bind_eq_error_iff.mp h with h | ⟨ts, -, h⟩
    · exact ⟨_, List.mem_cons_self, h⟩
    rcases Failure.bind_eq_error_iff.mp h with h | ⟨us, -, h⟩
    · obtain ⟨p, hp, h⟩ := ih h
      exact ⟨p, List.mem_cons_of_mem _ hp, h⟩
    · simp [pure, Except.pure] at h

/-- What the scanner refuses is a piece of the text, and its position is right. -/
theorem located_of_scan {text : String} (h : scan text = .error failure) :
    ∃ site, failure.site? = some site ∧ site.Located text.toList := by
  obtain ⟨p, hp, h⟩ := tokensOfLines_error h
  obtain ⟨hline, w, behind, htext, hplace⟩ := stands_of_splitLines text.toList p hp
  rw [htext]
  exact located_of_tokensFrom hline hplace h

/-- No token of a text has part of a line break in it. -/
theorem inLine_of_scan {text : String} {tokens : List Token} (h : scan text = .ok tokens) :
    ∀ t ∈ tokens, ∀ c ∈ t.text.toList, InLine c := by
  intro t ht c hc
  obtain ⟨p, hp, hlexed⟩ := lexedIn_of_tokensOfLines h t ht
  exact (stands_of_splitLines text.toList p hp).inLine c (hlexed.mem c hc)

end Precedence.LineScanner
