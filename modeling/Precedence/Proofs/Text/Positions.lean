import Precedence.Proofs.Text.Lines
import Precedence.Token

/-!
# The position of a place in a text

A text is read from the left: a character that ends a line leads to the first column of the next
line, any other character to the next column. So every place between two characters has a position
(`positionBetween`), which is the one that a line index gives for its offset
(`LineIndex.position_between`). A token stands at a place if its span and its position are those of
its text there (`Token.Stands`).
-/

namespace Precedence

namespace Text

/-- Whether a character ends a line in front of `behind`. Of a carriage return and line feed it is
the line feed that does. -/
def endsLine (c : Char) (behind : List Char) : Bool :=
  c == '\n' || (c == '\r' && behind.head? != some '\n')

namespace Position

/-- The position behind the character `c`, which `behind` follows. -/
def next (p : Position) (c : Char) (behind : List Char) : Position :=
  if endsLine c behind then ⟨p.line + 1, 1⟩ else ⟨p.line, p.column + 1⟩

/-- The position behind the piece `w` of a text, which `behind` follows. -/
def past (p : Position) (w behind : List Char) : Position :=
  match w with
  | [] => p
  | c :: cs => (p.next c (cs ++ behind)).past cs behind

theorem past_append (p : Position) (a b behind : List Char) :
    p.past (a ++ b) behind = (p.past a (b ++ behind)).past b behind := by
  induction a generalizing p with
  | nil => rfl
  | cons c a ih => rw [List.cons_append, past, past, ih, List.append_assoc]

end Position

/-- The position of the place between the two parts of a text. -/
def positionBetween (front behind : List Char) : Position :=
  Position.past ⟨1, 1⟩ front behind

theorem positionBetween_append (front w behind : List Char) :
    positionBetween (front ++ w) behind = (positionBetween front (w ++ behind)).past w behind :=
  Position.past_append _ _ _ _

/-- A character that is part of no line break. -/
def InLine (c : Char) : Prop :=
  c ≠ '\n' ∧ c ≠ '\r'

instance : DecidablePred InLine :=
  fun c => inferInstanceAs (Decidable (c ≠ '\n' ∧ c ≠ '\r'))

theorem InLine.endsLine {c : Char} (h : InLine c) (behind : List Char) :
    endsLine c behind = false := by
  simp [Text.endsLine, h.1, h.2]

/-- Within a line only the column grows. -/
theorem Position.past_of_inLine {w : List Char} (h : ∀ c ∈ w, InLine c) (p : Position)
    (behind : List Char) : p.past w behind = ⟨p.line, p.column + w.length⟩ := by
  induction w generalizing p with
  | nil => rfl
  | cons c w ih =>
    obtain ⟨hc, hw⟩ := List.forall_mem_cons.mp h
    rw [past, ih hw, next, if_neg (by simp [hc.endsLine])]
    simp only [List.length_cons, Nat.add_assoc, Nat.add_comm 1]

/-- What ends a line in front of `rest`. A line feed behind a carriage return ends the same line. -/
inductive LineBreak : List Char → List Char → Prop where
  | lineFeed {rest : List Char} : LineBreak ['\n'] rest
  | both {rest : List Char} : LineBreak ['\r', '\n'] rest
  | carriageReturn {rest : List Char} : rest.head? ≠ some '\n' → LineBreak ['\r'] rest

/-- Behind a line break the next line begins. -/
theorem LineBreak.past {lineBreak rest : List Char} (h : LineBreak lineBreak rest) (p : Position) :
    p.past lineBreak rest = ⟨p.line + 1, 1⟩ := by
  cases h with
  | lineFeed => rfl
  | both => rfl
  | carriageReturn hrest =>
    have hends : Text.endsLine '\r' rest = true := by simp [Text.endsLine, hrest]
    rw [Position.past, List.nil_append, Position.next, if_pos hends]
    rfl

theorem LineBreak.not_inLine {lineBreak rest : List Char} (h : LineBreak lineBreak rest) :
    ∀ c ∈ (lineBreak ++ rest).head?, ¬ InLine c := by
  cases h <;> simp [InLine]

theorem LineBreak.ne_nil {lineBreak rest : List Char} (h : LineBreak lineBreak rest) :
    lineBreak ≠ [] := by
  cases h <;> simp

/-- The line break at the beginning of a text is told by the text. -/
theorem LineBreak.unique {lineBreak lineBreak' rest rest' : List Char}
    (h : LineBreak lineBreak rest) (h' : LineBreak lineBreak' rest')
    (hwhole : lineBreak ++ rest = lineBreak' ++ rest') : lineBreak = lineBreak' ∧ rest = rest' := by
  cases h <;> cases h' <;> grind

/-- A text is its last line, or it is a line, the break of that, and another text. -/
inductive OfLines : List Char → Prop where
  | last {w : List Char} : (∀ c ∈ w, InLine c) → OfLines w
  | line {w lineBreak rest : List Char} : (∀ c ∈ w, InLine c) → LineBreak lineBreak rest →
    OfLines rest → OfLines (w ++ (lineBreak ++ rest))

theorem OfLines.cons {c : Char} {text : List Char} (hc : InLine c) (h : OfLines text) :
    OfLines (c :: text) := by
  cases h with
  | last hw => exact .last (List.forall_mem_cons.mpr ⟨hc, hw⟩)
  | @line w _ _ hw hbreak hrest =>
    exact .line (w := c :: w) (List.forall_mem_cons.mpr ⟨hc, hw⟩) hbreak hrest

theorem ofLines (text : List Char) : OfLines text := by
  fun_induction laterLineStarts 0 text with
  | case1 => exact .last (List.forall_mem_nil _)
  | case2 _ rest ih => exact .line (List.forall_mem_nil _) .both ih
  | case3 _ rest hrest ih =>
    refine .line (List.forall_mem_nil _) (.carriageReturn fun hhead => ?_) ih
    obtain ⟨later, rfl⟩ := List.head?_eq_some_iff.mp hhead
    exact hrest later rfl
  | case4 _ rest ih => exact .line (List.forall_mem_nil _) .lineFeed ih
  | case5 _ c rest _ hreturn hfeed ih => exact .cons ⟨hfeed, hreturn⟩ ih

/-! ### The beginnings of lines -/

/-- The offsets of the lines that begin behind a character of the piece `w`, which stands at
`offset` in front of `behind`. -/
def lineStartsIn (offset : Nat) (w behind : List Char) : List Nat :=
  match w with
  | [] => []
  | c :: cs =>
    if endsLine c (cs ++ behind) then
      (offset + c.utf8Size) :: lineStartsIn (offset + c.utf8Size) cs behind
    else lineStartsIn (offset + c.utf8Size) cs behind

theorem laterLineStarts_cons (offset : Nat) (c : Char) (cs : List Char) :
    laterLineStarts offset (c :: cs) =
      if endsLine c cs then (offset + c.utf8Size) :: laterLineStarts (offset + c.utf8Size) cs
      else laterLineStarts (offset + c.utf8Size) cs := by
  by_cases hn : c = '\n'
  · subst hn
    rfl
  by_cases hr : c = '\r'
  · subst hr
    rcases cs with _ | ⟨d, ds⟩
    · rfl
    · by_cases hd : d = '\n'
      · subst hd
        rfl
      · have hends : endsLine '\r' (d :: ds) = true := by simp [endsLine, hd]
        rw [if_pos hends, laterLineStarts]
        · rfl
        · exact fun rest h => hd (List.cons.inj h).1
  · rw [if_neg (by simp [endsLine, hn, hr]), laterLineStarts]
    · exact fun rest h => absurd h hr
    · exact hr
    · exact hn

theorem laterLineStarts_append (offset : Nat) (w behind : List Char) :
    laterLineStarts offset (w ++ behind) =
      lineStartsIn offset w behind ++ laterLineStarts (offset + byteLength w) behind := by
  induction w generalizing offset with
  | nil => rfl
  | cons c w ih =>
    rw [List.cons_append, laterLineStarts_cons, lineStartsIn, ih, byteLength_cons, Nat.add_assoc]
    split
    · rfl
    · rfl

theorem lt_of_mem_laterLineStarts {offset start : Nat} {text : List Char}
    (h : start ∈ laterLineStarts offset text) : offset < start := by
  induction text generalizing offset with
  | nil => simp [laterLineStarts] at h
  | cons c text ih =>
    have hc := c.utf8Size_pos
    rw [laterLineStarts_cons] at h
    split at h
    · rcases List.mem_cons.mp h with rfl | h
      · omega
      · have := ih h
        omega
    · have := ih h
      omega

theorem le_of_mem_lineStartsIn {offset start : Nat} {w behind : List Char}
    (h : start ∈ lineStartsIn offset w behind) : start ≤ offset + byteLength w := by
  induction w generalizing offset with
  | nil => simp [lineStartsIn] at h
  | cons c w ih =>
    rw [byteLength_cons]
    rw [lineStartsIn] at h
    split at h
    · rcases List.mem_cons.mp h with rfl | h
      · omega
      · have := ih h
        omega
    · have := ih h
      omega

/-- Behind a piece in which no line begins only the column has grown; behind any other, the line
has grown by the lines that begin, and the column counts from the last of them. -/
theorem past_eq_or (offset : Nat) (p : Position) (w behind : List Char) :
    (lineStartsIn offset w behind = [] ∧ p.past w behind = ⟨p.line, p.column + w.length⟩) ∨
      ∃ a b, w = a ++ b ∧
        (lineStartsIn offset w behind).getLast? = some (offset + byteLength a) ∧
        p.past w behind = ⟨p.line + (lineStartsIn offset w behind).length, b.length + 1⟩ := by
  induction w generalizing offset p with
  | nil => exact Or.inl ⟨rfl, rfl⟩
  | cons c w ih =>
    rw [Position.past, lineStartsIn, Position.next]
    by_cases hc : endsLine c (w ++ behind) = true
    · rw [if_pos hc, if_pos hc]
      refine Or.inr ?_
      rcases ih (offset + c.utf8Size) ⟨p.line + 1, 1⟩ with ⟨hnone, hp⟩ | ⟨a, b, rfl, hlast, hp⟩
      · refine ⟨[c], w, rfl, by rw [hnone]; rfl, ?_⟩
        rw [hp, hnone, Nat.add_comm w.length]
        rfl
      · refine ⟨c :: a, b, rfl, ?_, ?_⟩
        · rw [List.getLast?_cons, hlast, byteLength_cons, ← Nat.add_assoc]
          rfl
        · rw [hp, List.length_cons, Nat.add_assoc, Nat.add_comm 1]
    · rw [if_neg hc, if_neg hc]
      rcases ih (offset + c.utf8Size) ⟨p.line, p.column + 1⟩ with
        ⟨hnone, hp⟩ | ⟨a, b, rfl, hlast, hp⟩
      · refine Or.inl ⟨hnone, ?_⟩
        rw [hp, List.length_cons, Nat.add_assoc, Nat.add_comm 1]
      · exact Or.inr ⟨c :: a, b, rfl, by rw [hlast, byteLength_cons, Nat.add_assoc], hp⟩

/-- The lines of a text begin in front of a place, the first of them at the beginning, or
behind it. -/
theorem lineStarts_append (front behind : List Char) :
    lineStarts (front ++ behind) =
      (0 :: lineStartsIn 0 front behind) ++ laterLineStarts (byteLength front) behind := by
  rw [lineStarts_eq, laterLineStarts_append, Nat.zero_add, List.cons_append]

/-- The line of a place begins with the last of the starts in front of it, and only what stands
between the two counts for the column. -/
theorem exists_line (front behind : List Char) :
    ∃ a piece, front = a ++ piece ∧
      (0 :: lineStartsIn 0 front behind).getLast? = some (byteLength a) ∧
      positionBetween front behind =
        ⟨(lineStartsIn 0 front behind).length + 1, piece.length + 1⟩ := by
  rcases past_eq_or 0 ⟨1, 1⟩ front behind with ⟨hnone, hp⟩ | ⟨a, b, hfront, hlast, hp⟩
  · refine ⟨[], front, rfl, by rw [hnone]; rfl, ?_⟩
    rw [positionBetween, hp, hnone, Nat.add_comm]
    rfl
  · refine ⟨a, b, hfront, ?_, ?_⟩
    · rw [List.getLast?_cons, hlast, Nat.zero_add]
      rfl
    · rw [positionBetween, hp, Nat.add_comm 1]

namespace LineIndex

/-- An index finds an offset in the line with a number, counted from 0: the search ends there or
right behind, the line begins at `start`, and `piece` stands between its start and the offset. -/
structure Finds (index : LineIndex) (offset line start : Nat) (piece : List Char) : Prop where
  search_eq : search index.starts offset = .ok line ∨
    search index.starts offset = .error (line + 1)
  start_eq : index.starts[line]? = some start
  slice_eq : slice? start offset index.text = some piece

theorem Finds.position {index : LineIndex} {offset line start : Nat} {piece : List Char}
    (h : index.Finds offset line start piece) :
    index.position offset = ⟨line + 1, piece.length + 1⟩ := by
  have hline : index.line offset = line := by
    rw [LineIndex.line]
    rcases h.search_eq with hsearch | hsearch
    · rw [hsearch]
    · rw [hsearch]
      rfl
  have hstart : index.starts.getD line 0 = start := by
    rw [List.getD_eq_getElem?_getD, h.start_eq, Option.getD_some]
  rw [LineIndex.position, hline, hstart, h.slice_eq]
  rfl

/-- An index finds every place of its text in the last line that begins in front of it. -/
theorem finds {front behind a piece : List Char} (hfront : front = a ++ piece)
    (hlast : (0 :: lineStartsIn 0 front behind).getLast? = some (byteLength a)) :
    (ofText (front ++ behind)).Finds (byteLength front) (lineStartsIn 0 front behind).length
      (byteLength a) piece := by
  obtain ⟨earlier, hstarts⟩ := List.getLast?_eq_some_iff.mp hlast
  have hlength : earlier.length = (lineStartsIn 0 front behind).length := by
    have := congrArg List.length hstarts
    simpa using this.symm
  have hin : ∀ start ∈ earlier ++ [byteLength a], start ≤ byteLength front := by
    rw [← hstarts]
    refine List.forall_mem_cons.mpr ⟨Nat.zero_le _, fun start h => ?_⟩
    simpa using le_of_mem_lineStartsIn h
  obtain ⟨hearlier, ha⟩ := List.forall_mem_append.mp hin
  have hstarts : (ofText (front ++ behind)).starts =
      earlier ++ byteLength a :: laterLineStarts (byteLength front) behind := by
    rw [ofText, lineStarts_append, hstarts, List.append_assoc, List.singleton_append]
  refine ⟨?_, ?_, ?_⟩
  · rw [hstarts, search_eq hearlier (fun _ => lt_of_mem_laterLineStarts)
      (ha _ (List.mem_singleton_self _)), hlength]
    split
    · exact Or.inl rfl
    · exact Or.inr rfl
  · rw [hstarts, ← hlength, List.getElem?_append_right (Nat.le_refl _), Nat.sub_self,
      List.getElem?_cons_zero]
  · rw [ofText, hfront, List.append_assoc]
    exact slice?_append a piece behind

/-- A line index gives for an offset the position of the place there. -/
theorem position_between (front behind : List Char) :
    (ofText (front ++ behind)).position (byteLength front) = positionBetween front behind := by
  obtain ⟨a, piece, hfront, hlast, hposition⟩ := exists_line front behind
  rw [hposition, (finds hfront hlast).position]

end LineIndex

end Text

open Text

/-- A token stands behind `front` and in front of `behind`: it reads something, its span goes from
the one to the other, and its position is that of the place behind `front`. -/
structure Token.Stands (t : Token) (front behind : List Char) : Prop where
  ne_nil : t.text.toList ≠ []
  span : t.span = ⟨byteLength front, byteLength (front ++ t.text.toList)⟩
  position : t.position = positionBetween front (t.text.toList ++ behind)

theorem Token.Stands.start_lt_stop {t : Token} {front behind : List Char}
    (h : t.Stands front behind) : t.span.start < t.span.stop := by
  obtain ⟨c, cs, htext⟩ := List.exists_cons_of_ne_nil h.ne_nil
  have hc := c.utf8Size_pos
  rw [h.span, htext, byteLength_append, byteLength_cons]
  show byteLength front < byteLength front + (c.utf8Size + byteLength cs)
  omega

/-- A token stands somewhere in `rest`, which follows `front`. -/
def Token.StandsIn (t : Token) (front rest : List Char) : Prop :=
  ∃ w behind, rest = w ++ (t.text.toList ++ behind) ∧ t.Stands (front ++ w) behind

theorem Token.Stands.standsIn {t : Token} {front behind : List Char} (h : t.Stands front behind) :
    t.StandsIn front (t.text.toList ++ behind) :=
  ⟨[], behind, rfl, by rwa [List.append_nil]⟩

theorem Token.StandsIn.behind {t : Token} {front w rest : List Char}
    (h : t.StandsIn (front ++ w) rest) : t.StandsIn front (w ++ rest) := by
  obtain ⟨v, behind, rfl, hstands⟩ := h
  exact ⟨w ++ v, behind, (List.append_assoc _ _ _).symm, by rwa [← List.append_assoc]⟩

end Precedence
