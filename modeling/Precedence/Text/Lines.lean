import Precedence.Regex.Basic
import Precedence.Text.Bytes

/-!
# Lines of a text and positions in it

A line ends with a line feed, a carriage return and line feed, or a carriage return alone. A text
has two views of its lines: `lineStarts`, the offsets at which lines begin, found by a loop over the
bytes of the text, and `splitLines`, the pieces between the matches of a pattern, each with the
offset at which it begins. `LineIndex.position` turns an offset into a line and a column, both
counted from 1: it searches the line in the ordered line starts and counts the characters between
its start and the offset.
-/

namespace Precedence.Text

/-- A line and a column, counted from 1; columns count characters. -/
structure Position where
  line : Nat
  column : Nat
  deriving DecidableEq, Inhabited

/-! ### The lines themselves -/

/-- What ends a line: `\n|\r\n?`. -/
def lineBreak : Pattern :=
  ⟨.alt (.seq (.char (.single '\n')) .empty)
    (.seq (.char (.single '\r')) (.seq (.repeated true 0 (some 1) (.char (.single '\n'))) .empty)),
    0⟩

/-- A line of a text without its terminator, and the offset at which it begins. -/
structure Line where
  start : Nat
  text : List Char
  deriving DecidableEq

/-- The lines of a text, in front of which `before` stands, and of which `current`, read backwards,
is the part of a line already seen. -/
def splitFrom (start : Nat) (current : List Char) (before : Option Char) (text : List Char) :
    List Line :=
  match text with
  | [] => [⟨start, current.reverse⟩]
  | c :: rest =>
    match (lineBreak.matchAt before (c :: rest)).map Match.length with
    | some (n + 1) =>
      let read := (c :: rest).take (n + 1)
      ⟨start, current.reverse⟩ ::
        splitFrom (start + byteLength current + byteLength read) [] read.getLast?
          ((c :: rest).drop (n + 1))
    | _ => splitFrom start (c :: current) (some c) rest
termination_by text.length

/-- The lines of a text; there is always at least one. -/
def splitLines (text : List Char) : List Line :=
  splitFrom 0 [] none text

/-- The given lines as if they were joined by line feeds. -/
def joinedLines (start : Nat) : List (List Char) → List Line
  | [] => []
  | line :: rest => ⟨start, line⟩ :: joinedLines (start + byteLength line + 1) rest

/-! ### The beginnings of lines -/

/-- The offsets at which the lines after the first begin, in bytes that stand at `offset`. -/
def startsBehind (offset : Nat) : List UInt8 → List Nat
  | [] => []
  | 10 :: rest => (offset + 1) :: startsBehind (offset + 1) rest
  | 13 :: 10 :: rest => (offset + 2) :: startsBehind (offset + 2) rest
  | 13 :: rest => (offset + 1) :: startsBehind (offset + 1) rest
  | _ :: rest => startsBehind (offset + 1) rest

/-- The offsets at which the lines of a text begin. -/
def lineStarts (text : List Char) : List Nat :=
  0 :: startsBehind 0 (text.flatMap String.utf8EncodeChar)

/-! ### Positions -/

/-- Halves the `size` places from `base` on until one is left, which is the last that holds no more
than `x`, or else the first of all. -/
@[semireducible] def narrow (xs : List Nat) (x base size : Nat) : Nat :=
  if size ≤ 1 then base
  else
    let middle := base + size / 2
    if x < xs.getD middle 0 then narrow xs x base (size - size / 2)
    else narrow xs x middle (size - size / 2)
termination_by size

/-- The place of `x` in an ordered list, or else the place at which it can be inserted. -/
def search (xs : List Nat) (x : Nat) : Except Nat Nat :=
  let base := narrow xs x 0 xs.length
  match xs[base]? with
  | none => .error 0
  | some y => if y = x then .ok base else if y < x then .error (base + 1) else .error base

/-- The text from one offset up to another, if they are in order and no character stands across
them. -/
def slice? (start stop : Nat) (text : List Char) : Option (List Char) :=
  if start ≤ stop ∧ byteLength (takeBytes start text) = start ∧
      byteLength (takeBytes stop text) = stop then
    some (takeBytes (stop - start) (dropBytes start text))
  else none

/-- A text together with the offsets at which its lines begin. -/
structure LineIndex where
  text : List Char
  starts : List Nat

namespace LineIndex

def ofText (text : List Char) : LineIndex :=
  ⟨text, lineStarts text⟩

/-- The number of lines that end at an offset or in front of it. -/
def line (index : LineIndex) (offset : Nat) : Nat :=
  match search index.starts offset with
  | .ok i => i
  | .error i => i - 1

/-- The line and column of an offset. Columns count the characters since the start of the line, or
the bytes where the offset stands within a character. -/
def position (index : LineIndex) (offset : Nat) : Position :=
  let line := index.line offset
  let start := index.starts.getD line 0
  let column := ((slice? start offset index.text).map List.length).getD (offset - start)
  ⟨line + 1, column + 1⟩

end LineIndex

end Precedence.Text
