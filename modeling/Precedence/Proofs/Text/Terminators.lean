import Mathlib
import Precedence.Proofs.Text.Positions
import Precedence.Regex.Read

/-!
# Line terminators

A text has a line terminator where a line feed, a carriage return and line feed, or a carriage
return alone ends (`Terminated`). Both views of the lines of a text are those between its
terminators: the line starts of an index are those of the split lines (`map_start_splitLines`), and
they lie where terminators end (`mem_lineStartsIn_iff`). So an index tells for a place how many
terminators end in front of it, and how many characters stand between the last of them and the
place (`lines_agree`).
-/

namespace Precedence.Text

/-- The pattern of what ends a line, as it is written. -/
theorem read_lineBreak : Pattern.read "\\n|\\r\\n?".toList = some lineBreak := by
  rw [lineBreak]
  cbv

/-- A line terminator of the text ends at an offset. A carriage return and line feed are one. -/
inductive Terminated (text : List Char) : Nat → Prop where
  | lineFeed (front behind : List Char) : text = front ++ '\n' :: behind →
    front.getLast? ≠ some '\r' → Terminated text (byteLength (front ++ ['\n']))
  | both (front behind : List Char) : text = front ++ '\r' :: '\n' :: behind →
    Terminated text (byteLength (front ++ ['\r', '\n']))
  | carriageReturn (front behind : List Char) : text = front ++ '\r' :: behind →
    behind.head? ≠ some '\n' → Terminated text (byteLength (front ++ ['\r']))

/-- Terminators end behind the characters that end lines. -/
theorem terminated_iff {text : List Char} {stop : Nat} :
    Terminated text stop ↔ ∃ front c behind, text = front ++ c :: behind ∧
      endsLine c behind = true ∧ stop = byteLength (front ++ [c]) := by
  constructor
  · rintro (⟨front, behind, h, -⟩ | ⟨front, behind, h⟩ | ⟨front, behind, h, hbehind⟩)
    · exact ⟨front, '\n', behind, h, rfl, rfl⟩
    · exact ⟨front ++ ['\r'], '\n', behind, by simpa using h, rfl, by simp⟩
    · exact ⟨front, '\r', behind, h, by simp [endsLine, hbehind], rfl⟩
  · rintro ⟨front, c, behind, h, hends, rfl⟩
    by_cases hc : c = '\n'
    · subst hc
      by_cases hlast : front.getLast? = some '\r'
      · obtain ⟨front, rfl⟩ := List.getLast?_eq_some_iff.mp hlast
        rw [List.append_assoc] at h ⊢
        exact .both front behind h
      · exact .lineFeed front behind h hlast
    · obtain ⟨rfl, hbehind⟩ : c = '\r' ∧ behind.head? ≠ some '\n' := by
        simpa [endsLine, hc] using hends
      exact .carriageReturn front behind h hbehind

theorem mem_lineStartsIn_cons {offset stop : Nat} {c : Char} {w behind : List Char} :
    stop ∈ lineStartsIn offset (c :: w) behind ↔
      (endsLine c (w ++ behind) = true ∧ stop = offset + c.utf8Size) ∨
        stop ∈ lineStartsIn (offset + c.utf8Size) w behind := by
  rw [lineStartsIn]
  split
  · next hends => rw [List.mem_cons, and_iff_right hends]
  · next hends => rw [iff_false_intro hends, false_and, false_or]

/-- The lines that begin behind a character of a piece begin where such a character ends one. -/
theorem mem_lineStartsIn {offset stop : Nat} {w behind : List Char} :
    stop ∈ lineStartsIn offset w behind ↔ ∃ a c b, w = a ++ c :: b ∧
      endsLine c (b ++ behind) = true ∧ stop = offset + byteLength (a ++ [c]) := by
  induction w generalizing offset with
  | nil => simp [lineStartsIn]
  | cons d w ih =>
    rw [mem_lineStartsIn_cons, ih]
    constructor
    · rintro (⟨hends, rfl⟩ | ⟨a, c, b, rfl, hends, rfl⟩)
      · exact ⟨[], d, w, rfl, hends, rfl⟩
      · exact ⟨d :: a, c, b, rfl, hends, Nat.add_assoc _ _ _⟩
    · rintro ⟨_ | ⟨e, a⟩, c, b, h, hends, rfl⟩
      · obtain ⟨rfl, rfl⟩ := List.cons.inj h
        exact Or.inl ⟨hends, rfl⟩
      · obtain ⟨rfl, hw⟩ := List.cons.inj h
        exact Or.inr ⟨a, c, b, hw, hends, (Nat.add_assoc _ _ _).symm⟩

theorem eq_nil_of_byteLength {w : List Char} (h : byteLength w = 0) : w = [] := by
  rcases w with _ | ⟨c, w⟩
  · rfl
  · have hc := c.utf8Size_pos
    rw [byteLength_cons] at h
    omega

/-- The lines that begin behind a character in front of a place begin where terminators end. -/
theorem mem_lineStartsIn_iff {front behind : List Char} {stop : Nat} :
    stop ∈ lineStartsIn 0 front behind ↔
      stop ≤ byteLength front ∧ Terminated (front ++ behind) stop := by
  rw [mem_lineStartsIn, terminated_iff]
  constructor
  · rintro ⟨a, c, b, rfl, hends, rfl⟩
    refine ⟨?_, a, c, b ++ behind, by simp, hends, Nat.zero_add _⟩
    simp
  · rintro ⟨hle, a, c, rest, h, hends, rfl⟩
    rw [List.append_cons] at h
    rcases List.append_eq_append_iff.mp h with ⟨w, hw, hrest⟩ | ⟨b, hb, hrest⟩
    · have hnil : byteLength w = 0 := by
        rw [hw, byteLength_append] at hle
        omega
      obtain rfl := eq_nil_of_byteLength hnil
      refine ⟨a, c, [], by simpa using hw.symm, ?_, (Nat.zero_add _).symm⟩
      rwa [List.nil_append, hrest]
    · exact ⟨a, c, b, by rw [hb]; simp, hrest ▸ hends, (Nat.zero_add _).symm⟩

theorem pairwise_laterLineStarts (offset : Nat) (text : List Char) :
    (laterLineStarts offset text).Pairwise (· < ·) := by
  induction text generalizing offset with
  | nil => exact .nil
  | cons c text ih =>
    rw [laterLineStarts_cons]
    split
    · exact .cons (fun _ => lt_of_mem_laterLineStarts) (ih _)
    · exact ih _

theorem pairwise_lineStartsIn (offset : Nat) (front behind : List Char) :
    (lineStartsIn offset front behind).Pairwise (· < ·) := by
  have h := pairwise_laterLineStarts offset (front ++ behind)
  rw [laterLineStarts_append] at h
  exact (List.pairwise_append.mp h).1

theorem map_start_splitLinesFrom (start : Nat) (current text : List Char) :
    (splitLinesFrom start current text).map Line.start =
      start :: laterLineStarts (start + byteLength current) text := by
  fun_induction splitLinesFrom start current text with
  | case1 => rfl
  | case2 start current rest ih => exact congrArg _ ih
  | case3 start current rest hrest ih =>
    rw [laterLineStarts]
    · exact congrArg _ ih
    · exact hrest
  | case4 start current rest ih => exact congrArg _ ih
  | case5 start current c rest _ hreturn hfeed ih =>
    have hline : InLine c := ⟨hfeed, hreturn⟩
    rw [ih, byteLength_cons, laterLineStarts_cons, if_neg (by simp [hline.endsLine]),
      Nat.add_comm c.utf8Size, Nat.add_assoc]

theorem map_start_splitLines (text : List Char) :
    (splitLines text).map Line.start = (LineIndex.ofText text).starts := by
  rw [splitLines_eq, map_start_splitLinesFrom, LineIndex.ofText, lineStarts_eq]
  rfl

/-- The line starts of an index are those of the split lines. At every place of a text the index
counts the terminators that end up to there, and the characters between the last of them and the
place; its search never ends in front of the first line, and what it slices is there. -/
theorem lines_agree :
    (∀ text, (LineIndex.ofText text).starts = (splitLines text).map Line.start) ∧
      ∀ front behind, ∃ (ends : List Nat) (a piece : List Char),
        ends.Pairwise (· < ·) ∧
        (∀ stop, stop ∈ ends ↔ stop ≤ byteLength front ∧ Terminated (front ++ behind) stop) ∧
        front = a ++ piece ∧ byteLength a = ends.getLast?.getD 0 ∧
        (LineIndex.ofText (front ++ behind)).Finds (byteLength front) ends.length (byteLength a)
          piece ∧
        (LineIndex.ofText (front ++ behind)).position (byteLength front) =
          ⟨1 + ends.length, 1 + piece.length⟩ := by
  refine ⟨fun text => (map_start_splitLines text).symm, fun front behind => ?_⟩
  obtain ⟨a, piece, hfront, hlast, -⟩ := exists_line front behind
  have hfinds := LineIndex.finds hfront hlast
  refine ⟨lineStartsIn 0 front behind, a, piece, pairwise_lineStartsIn 0 front behind,
    fun _ => mem_lineStartsIn_iff, hfront, ?_, hfinds, ?_⟩
  · rw [List.getLast?_cons] at hlast
    exact (Option.some.inj hlast).symm
  · rw [hfinds.position, Nat.add_comm, Nat.add_comm 1 piece.length]

/-- A carriage return in front of a carriage return and line feed ends a line of its own. -/
example : (LineIndex.ofText "é\r\r\nb".toList).position 6 = ⟨3, 2⟩ := rfl

end Precedence.Text
