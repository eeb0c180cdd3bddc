import Precedence.Text.Lines

/-!
# The lines of a text, character by character

The pattern that ends a line reads what a look at the next character or two tells
(`splitLines_eq`), and so does the loop over the bytes of a text, because no byte of any other
character is that of a line feed or a carriage return (`lineStarts_eq`). Searching an ordered list
finds the last entry that is not greater than what is searched (`search_eq`).
-/

namespace Precedence.Text

open Regex

/-! ### Splitting at a pattern -/

section LineBreak

variable (before : Option Char)

theorem length_lineBreak_lineFeed (rest : List Char) :
    (lineBreak.matchAt before ('\n' :: rest)).map Match.length = some 1 :=
  rfl

theorem length_lineBreak_both (rest : List Char) :
    (lineBreak.matchAt before ('\r' :: '\n' :: rest)).map Match.length = some 2 := by
  simp [lineBreak, Pattern.matchAt, find, Search.chars, Search.exactly, Spot.run, Spot.advance]

theorem length_lineBreak_carriageReturn {rest : List Char} (h : ∀ later, rest ≠ '\n' :: later) :
    (lineBreak.matchAt before ('\r' :: rest)).map Match.length = some 1 := by
  rcases rest with _ | ⟨d, rest⟩
  · rfl
  · have hd : ('\n' == d) = false := by
      rw [beq_eq_false_iff_ne]
      rintro rfl
      exact h rest rfl
    simp [lineBreak, Pattern.matchAt, find, Search.chars, Search.exactly, Spot.run, Spot.advance,
      hd]

theorem length_lineBreak_none {c : Char} (hreturn : c ≠ '\r') (hfeed : c ≠ '\n')
    (rest : List Char) : (lineBreak.matchAt before (c :: rest)).map Match.length = none := by
  have hreturn : ('\r' == c) = false := beq_eq_false_iff_ne.mpr hreturn.symm
  have hfeed : ('\n' == c) = false := beq_eq_false_iff_ne.mpr hfeed.symm
  simp [lineBreak, Pattern.matchAt, find, hreturn, hfeed]

end LineBreak

/-- The lines of a text of which `current`, read backwards, is the part of a line already seen. -/
def splitLinesFrom (start : Nat) (current : List Char) : List Char → List Line
  | [] => [⟨start, current.reverse⟩]
  | '\r' :: '\n' :: rest =>
    ⟨start, current.reverse⟩ :: splitLinesFrom (start + byteLength current + 2) [] rest
  | '\r' :: rest =>
    ⟨start, current.reverse⟩ :: splitLinesFrom (start + byteLength current + 1) [] rest
  | '\n' :: rest =>
    ⟨start, current.reverse⟩ :: splitLinesFrom (start + byteLength current + 1) [] rest
  | c :: rest => splitLinesFrom start (c :: current) rest

theorem splitFrom_eq (start : Nat) (current : List Char) (before : Option Char)
    (text : List Char) : splitFrom start current before text = splitLinesFrom start current text := by
  fun_induction splitLinesFrom start current text generalizing before with
  | case1 => rw [splitFrom]
  | case2 start current rest ih =>
    rw [splitFrom, length_lineBreak_both]
    exact congrArg _ (ih _)
  | case3 start current rest hrest ih =>
    rw [splitFrom, length_lineBreak_carriageReturn before fun later h => hrest later h]
    exact congrArg _ (ih _)
  | case4 start current rest ih =>
    rw [splitFrom, length_lineBreak_lineFeed]
    exact congrArg _ (ih _)
  | case5 start current c rest _ hreturn hfeed ih =>
    rw [splitFrom, length_lineBreak_none before hreturn hfeed]
    exact ih _

theorem splitLines_eq (text : List Char) : splitLines text = splitLinesFrom 0 [] text :=
  splitFrom_eq 0 [] none text

/-! ### Line starts among bytes -/

/-- The offsets at which the lines after the first begin, in a text that stands at `offset`. -/
def laterLineStarts (offset : Nat) : List Char → List Nat
  | [] => []
  | '\r' :: '\n' :: rest => (offset + 2) :: laterLineStarts (offset + 2) rest
  | '\r' :: rest => (offset + 1) :: laterLineStarts (offset + 1) rest
  | '\n' :: rest => (offset + 1) :: laterLineStarts (offset + 1) rest
  | c :: rest => laterLineStarts (offset + c.utf8Size) rest

/-- The bytes of a character are that of an ASCII character, or they are above all of these. -/
theorem utf8EncodeChar_cases (c : Char) :
    String.utf8EncodeChar c = [UInt8.ofNat c.toNat] ∧ c.toNat < 128 ∨
      ∀ b ∈ String.utf8EncodeChar c, 128 ≤ b.toNat := by
  simp only [String.utf8EncodeChar, ← Char.toNat_val]
  split
  · exact Or.inl ⟨rfl, by omega⟩
  · refine Or.inr ?_
    split
    · simp
      omega
    · split
      · simp
        omega
      · simp
        omega

/-- Only the characters that end lines have their bytes. -/
theorem ne_of_mem_utf8EncodeChar {c : Char} (hreturn : c ≠ '\r') (hfeed : c ≠ '\n') {b : UInt8}
    (h : b ∈ String.utf8EncodeChar c) : b ≠ 10 ∧ b ≠ 13 := by
  rcases utf8EncodeChar_cases c with ⟨hc, hsmall⟩ | hlarge
  · have hb : b.toNat = c.toNat := by
      rw [hc, List.mem_singleton] at h
      rw [h, UInt8.toNat_ofNat']
      omega
    refine ⟨fun h => hfeed (Char.toNat_inj.mp ?_), fun h => hreturn (Char.toNat_inj.mp ?_)⟩
    · rw [← hb, h]
      rfl
    · rw [← hb, h]
      rfl
  · have hb := hlarge b h
    refine ⟨fun h => ?_, fun h => ?_⟩
    · simp [h] at hb
    · simp [h] at hb

/-- A text whose bytes begin with a line feed begins with one. -/
theorem head_of_lineFeed {text : List Char} {later : List UInt8}
    (h : text.flatMap String.utf8EncodeChar = 10 :: later) : ∃ rest, text = '\n' :: rest := by
  rcases text with _ | ⟨c, rest⟩
  · cases h
  · rw [List.flatMap_cons] at h
    by_cases hfeed : c = '\n'
    · exact ⟨rest, by rw [hfeed]⟩
    by_cases hreturn : c = '\r'
    · rw [hreturn] at h
      exact absurd (List.cons.inj h).1 (by decide)
    · rcases hw : String.utf8EncodeChar c with _ | ⟨b, w⟩
      · have hlength := String.length_utf8EncodeChar c
        rw [hw] at hlength
        exact absurd hlength (Nat.ne_of_lt c.utf8Size_pos)
      · rw [hw, List.cons_append] at h
        have hb : b ∈ String.utf8EncodeChar c := hw ▸ List.mem_cons_self
        exact absurd (List.cons.inj h).1 (ne_of_mem_utf8EncodeChar hreturn hfeed hb).1

theorem startsBehind_append (offset : Nat) {w : List UInt8} (hw : ∀ b ∈ w, b ≠ 10 ∧ b ≠ 13)
    (rest : List UInt8) :
    startsBehind offset (w ++ rest) = startsBehind (offset + w.length) rest := by
  induction w generalizing offset with
  | nil => rfl
  | cons b w ih =>
    obtain ⟨⟨hfeed, hreturn⟩, hw⟩ := List.forall_mem_cons.mp hw
    rw [List.cons_append, startsBehind, ih _ hw, List.length_cons, Nat.add_assoc, Nat.add_comm 1]
    · exact hfeed
    · exact fun _ h _ => hreturn h
    · exact hreturn

theorem startsBehind_eq (offset : Nat) (text : List Char) :
    startsBehind offset (text.flatMap String.utf8EncodeChar) = laterLineStarts offset text := by
  fun_induction laterLineStarts offset text with
  | case1 => rfl
  | case2 offset rest ih => exact congrArg _ ih
  | case3 offset rest hrest ih =>
    show startsBehind offset (13 :: rest.flatMap String.utf8EncodeChar) = _
    rw [startsBehind, ih]
    intro later h
    obtain ⟨rest', rfl⟩ := head_of_lineFeed h
    exact hrest rest' rfl
  | case4 offset rest ih => exact congrArg _ ih
  | case5 offset c rest _ hreturn hfeed ih =>
    rw [List.flatMap_cons, startsBehind_append offset fun b =>
      ne_of_mem_utf8EncodeChar hreturn hfeed, String.length_utf8EncodeChar, ih]

theorem lineStarts_eq (text : List Char) : lineStarts text = 0 :: laterLineStarts 0 text :=
  congrArg _ (startsBehind_eq 0 text)

/-! ### Searching -/

section Search

variable {lo hi : List Nat} {x : Nat} (hlo : ∀ y ∈ lo, y ≤ x) (hhi : ∀ y ∈ hi, x < y)

include hlo hhi

theorem lt_getD_append_iff {i : Nat} (h : i < (lo ++ hi).length) :
    x < (lo ++ hi).getD i 0 ↔ lo.length ≤ i := by
  rw [List.getD_eq_getElem?_getD, List.getElem?_eq_getElem h, Option.getD_some,
    List.getElem_append]
  split
  · next hin =>
    have hle := hlo _ (List.getElem_mem hin)
    omega
  · next hin =>
    exact iff_of_true (hhi _ (List.getElem_mem _)) (Nat.le_of_not_lt hin)

/-- While the places are halved, the last that holds no more than `x` stays among them. -/
theorem narrow_eq {base size : Nat} (hbase : base < lo.length)
    (hsize : lo.length ≤ base + size) (hend : base + size ≤ (lo ++ hi).length) :
    narrow (lo ++ hi) x base size + 1 = lo.length := by
  fun_induction narrow (lo ++ hi) x base size with
  | case1 base size h => omega
  | case2 base size h middle hlt ih =>
    have hmiddle : middle = base + size / 2 := rfl
    rw [lt_getD_append_iff hlo hhi (by omega)] at hlt
    exact ih hbase (by omega) (by omega)
  | case3 base size h middle hle ih =>
    have hmiddle : middle = base + size / 2 := rfl
    rw [lt_getD_append_iff hlo hhi (by omega)] at hle
    exact ih (by omega) (by omega) (by omega)

theorem search_eq {y : Nat} (hy : y ≤ x) :
    search (lo ++ y :: hi) x = if y = x then .ok lo.length else .error (lo.length + 1) := by
  have hlast : ∀ z ∈ lo ++ [y], z ≤ x :=
    List.forall_mem_append.mpr ⟨hlo, List.forall_mem_singleton.mpr hy⟩
  have hnarrow : narrow (lo ++ [y] ++ hi) x 0 (lo ++ [y] ++ hi).length + 1 = (lo ++ [y]).length :=
    narrow_eq hlast hhi (by simp) (by simp) (by simp)
  have hbase : narrow (lo ++ y :: hi) x 0 (lo ++ y :: hi).length = lo.length := by
    simpa using hnarrow
  have hget : (lo ++ y :: hi)[lo.length]? = some y := by
    rw [List.getElem?_append_right (Nat.le_refl _), Nat.sub_self, List.getElem?_cons_zero]
  simp only [search, hbase, hget]
  split
  · rfl
  · rw [if_pos (by omega)]

end Search

/-! ### Slices -/

theorem slice?_append (a w b : List Char) :
    slice? (byteLength a) (byteLength (a ++ w)) (a ++ (w ++ b)) = some w := by
  rw [slice?, if_pos]
  · rw [dropBytes_byteLength, byteLength_append, Nat.add_sub_cancel_left, takeBytes_byteLength]
  · rw [takeBytes_byteLength, ← List.append_assoc, takeBytes_byteLength, byteLength_append]
    exact ⟨Nat.le_add_right _ _, rfl, rfl⟩

end Precedence.Text
