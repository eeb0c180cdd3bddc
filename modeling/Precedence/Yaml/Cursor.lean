/-!
# Places in a YAML text

A cursor is what is left of a text, together with the line and column where it begins, both counted
from 0. There are five line breaks, and a carriage return with a line feed counts as one of them.
-/

namespace Precedence.Yaml

structure Cursor where
  rest : List Char
  /-- The number of characters in front. -/
  index : Nat := 0
  line : Nat := 0
  column : Nat := 0

def isBlank (c : Char) : Bool :=
  c == ' ' || c == '\t'

def isBreak (c : Char) : Bool :=
  c == '\n' || c == '\r' || c == '\x85' || c == '\u2028' || c == '\u2029'

def isSpacing (c : Char) : Bool :=
  isBlank c || isBreak c

/-- Whether a text is at its end or goes on with a blank or a line break. -/
def atSpacing (text : List Char) : Bool :=
  text.head?.all isSpacing

/-- Whether a text is at its end or at the end of a line. -/
def atLineEnd (text : List Char) : Bool :=
  text.head?.all isBreak

/-- Letters, digits, and the two characters that count as letters in names. -/
def isNameChar (c : Char) : Bool :=
  c.isAlphanum || c == '_' || c == '-'

/-- Three hyphens or three points that stand alone. -/
def atDocumentMark (text : List Char) : Bool :=
  match text with
  | '-' :: '-' :: '-' :: rest => atSpacing rest
  | '.' :: '.' :: '.' :: rest => atSpacing rest
  | _ => false

namespace Cursor

/-- The place some characters further in the line. -/
def advance (c : Cursor) (n : Nat) : Cursor :=
  { c with rest := c.rest.drop n, index := c.index + n, column := c.column + n }

/-- The longest piece of characters with a property, and the place behind it. -/
def readWhile (c : Cursor) (p : Char → Bool) : List Char × Cursor :=
  let piece := c.rest.takeWhile p
  (piece, c.advance piece.length)

def skipWhile (c : Cursor) (p : Char → Bool) : Cursor :=
  (c.readWhile p).2

/-- The line break at a place, as what it counts in a text, and the place behind it. -/
def readBreak? (c : Cursor) : Option (Char × Cursor) :=
  let behind (n : Nat) : Cursor :=
    { rest := c.rest.drop n, index := c.index + n, line := c.line + 1, column := 0 }
  match c.rest with
  | '\r' :: '\n' :: _ => some ('\n', behind 2)
  | x :: _ =>
    if x = '\u2028' || x = '\u2029' then some (x, behind 1)
    else if isBreak x then some ('\n', behind 1)
    else none
  | [] => none

/-- The place behind a line break, if there is one. -/
def skipBreak (c : Cursor) : Cursor :=
  (c.readBreak?.map (·.2)).getD c

/-- The place at the end of the line if only blanks and a comment are in front of it. -/
def skipLineRest? (c : Cursor) : Option Cursor :=
  let c := c.skipWhile isBlank
  let c := if c.rest.head? = some '#' then c.skipWhile (!isBreak ·) else c
  if atLineEnd c.rest then some c else none

/-- Whether a line begins with a document mark here. -/
def atDocumentMark (c : Cursor) : Bool :=
  c.column == 0 && Yaml.atDocumentMark c.rest

end Cursor

end Precedence.Yaml
