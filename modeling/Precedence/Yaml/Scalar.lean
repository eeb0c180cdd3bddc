import Precedence.Number.Decimal
import Precedence.Yaml.Cursor

/-!
# YAML scalars

The texts that stand for themselves: plain, between quotes, or as a block of lines. In the first two
a single line break counts as a space, and of several the first does not count. A block keeps its
breaks, or is folded in much the same way.
-/

namespace Precedence.Yaml

open Number

inductive ScalarStyle where
  | plain
  | singleQuoted
  | doubleQuoted
  | literal
  | folded
  deriving DecidableEq

/-- What a reader finds, and the place behind it. -/
abbrev Found (α : Type) := Option (α × Cursor)

/-- Blanks and line breaks between words. Blanks count only in front of the first break. -/
structure Gap where
  blanks : List Char := []
  broken : Bool := false
  breaks : List Char := []

namespace Gap

/-- What a gap counts in a text. -/
def text (g : Gap) : List Char :=
  match g.breaks with
  | [] => g.blanks
  | ['\n'] => [' ']
  | '\n' :: breaks => breaks
  | breaks => breaks

/-- Reads on in a gap. A tab left of the margin is refused once the line is broken. -/
def read (margin : Nat) : (fuel : Nat) → Gap → Cursor → Found Gap
  | 0, _, _ => none
  | fuel + 1, g, c =>
    match c.readBreak? with
    | some (x, behind) =>
      read margin fuel { blanks := [], broken := true, breaks := g.breaks ++ [x] } behind
    | none =>
      match c.rest with
      | x :: _ =>
        if !isBlank x then some (g, c)
        else if g.broken then
          if x = '\t' && c.column < margin then none else read margin fuel g (c.advance 1)
        else read margin fuel { g with blanks := g.blanks ++ [x] } (c.advance 1)
      | [] => some (g, c)

end Gap

/-! ### Plain scalars -/

def isFlowMark (c : Char) : Bool :=
  c == ',' || c == '[' || c == ']' || c == '\x7b' || c == '\x7d'

/-- The length of the word at the beginning of a text. In a flow collection a word ends at its
marks, and a colon in front of one is refused. -/
def plainWordLength? (flow : Bool) : List Char → Option Nat
  | [] => some 0
  | c :: rest =>
    if isSpacing c then some 0
    else if flow && c == ':' && rest.head?.any (fun x => isFlowMark x || x == '?') then none
    else if (c == ':' && atSpacing rest) || (flow && isFlowMark c) then some 0
    else (plainWordLength? flow rest).map (· + 1)

/-- A text, and whether a broken line follows it. -/
structure PlainScalar where
  text : List Char
  broken : Bool

/-- Reads on in a plain scalar behind a gap. -/
def readPlain (flow : Bool) (margin : Nat) :
    (fuel : Nat) → (read : List Char) → Gap → Cursor → Found PlainScalar
  | 0, _, _, _ => none
  | fuel + 1, read, gap, c =>
    if c.atDocumentMark || c.rest.head? = some '#' then some (⟨read, gap.broken⟩, c)
    else
      match plainWordLength? flow c.rest with
      | none => none
      | some 0 => some (⟨read, gap.broken⟩, c)
      | some length =>
        let read := read ++ gap.text ++ c.rest.take length
        let c := c.advance length
        if c.rest.head?.any isSpacing then
          match Gap.read margin (c.rest.length + 1) {} c with
          | none => none
          | some (gap, c) =>
            if !flow && c.column < margin then some (⟨read, gap.broken⟩, c)
            else readPlain flow margin fuel read gap c
        else some (⟨read, false⟩, c)

/-! ### Quoted scalars -/

/-- The character that a backslash and this one stand for. -/
def escapedChar? : Char → Option Char
  | '0' => some '\x00'
  | 'a' => some '\x07'
  | 'b' => some '\x08'
  | 't' => some '\t'
  | '\t' => some '\t'
  | 'n' => some '\n'
  | 'v' => some '\x0b'
  | 'f' => some '\x0c'
  | 'r' => some '\r'
  | 'e' => some '\x1b'
  | ' ' => some ' '
  | '"' => some '"'
  | '/' => some '/'
  | '\\' => some '\\'
  | 'N' => some '\x85'
  | '_' => some '\xa0'
  | 'L' => some '\u2028'
  | 'P' => some '\u2029'
  | _ => none

/-- The number of hexadecimal digits behind a backslash and a letter. -/
def codeLength? : Char → Option Nat
  | 'x' => some 2
  | 'u' => some 4
  | 'U' => some 8
  | _ => none

/-- The character with a code of so many digits. -/
def charOfCode? (digits : List Char) (length : Nat) : Option Char := do
  if digits.length < length then none
  let code ← hexDigitsValue? digits
  if code.isValidChar then some (Char.ofNat code) else none

/-- A word between quotes: its text, its length as written, and whether it ends with a backslash at
the end of a line. -/
structure QuotedWord where
  text : List Char := []
  length : Nat := 0
  joined : Bool := false

namespace QuotedWord

/-- The word with a character more in front, which is written with `n` characters. -/
def cons (n : Nat) (c : Char) (w : QuotedWord) : QuotedWord :=
  { w with text := c :: w.text, length := n + w.length }

/-- Reads a word up to the closing quote or the end of a line. -/
def read (double : Bool) (text : List Char) : Option QuotedWord :=
  match text with
  | [] => some {}
  | c :: rest =>
    if isSpacing c then some {}
    else if !double && c == '\'' then
      match rest with
      | '\'' :: rest => (read double rest).map (cons 2 '\'')
      | _ => some {}
    else if double && c == '"' then some {}
    else if double && c == '\\' then
      match rest with
      | [] => none
      | e :: rest =>
        if isBreak e then some { length := 1, joined := true }
        else
          match codeLength? e with
          | some n =>
            match charOfCode? (rest.take n) n with
            | some c => (read double (rest.drop n)).map (cons (n + 2) c)
            | none => none
          | none =>
            match escapedChar? e with
            | some c => (read double rest).map (cons 2 c)
            | none => none
    else (read double rest).map (cons 1 c)
termination_by text.length
decreasing_by all_goals simp_wf <;> omega

end QuotedWord

/-- Reads on in a quoted scalar, up to and with its closing quote. -/
def readQuoted (double : Bool) : (fuel : Nat) → (read : List Char) → Cursor → Found (List Char)
  | 0, _, _ => none
  | fuel + 1, read, c =>
    if c.atDocumentMark || c.rest.isEmpty then none
    else
      match QuotedWord.read double c.rest with
      | none => none
      | some word =>
        let read := read ++ word.text
        let c := c.advance word.length
        if word.joined then
          let c := c.skipBreak
          match Gap.read 0 (c.rest.length + 1) { broken := true } c with
          | none => none
          | some (gap, c) => readQuoted double fuel (read ++ gap.breaks) c
        else if c.rest.head? = some (if double then '"' else '\'') then some (read, c.advance 1)
        else
          match Gap.read 0 (c.rest.length + 1) {} c with
          | none => none
          | some (gap, c) => readQuoted double fuel (read ++ gap.text) c

/-! ### Blocks of lines -/

/-- Which of the breaks at the end of a block count. -/
inductive Chomping where
  | strip
  | clip
  | keep
  deriving DecidableEq

def readChomping : Cursor → Option Chomping × Cursor := fun c =>
  match c.rest with
  | '+' :: _ => (some .keep, c.advance 1)
  | '-' :: _ => (some .strip, c.advance 1)
  | _ => (none, c)

/-- Reads how deep a block is indented, if that is stated; a zero is refused. -/
def readIndentation : Cursor → Found (Option Nat) := fun c =>
  match c.rest with
  | d :: _ =>
    if d = '0' then none
    else if isDigit d then some (some (digitValue d), c.advance 1)
    else some (none, c)
  | [] => some (none, c)

/-- Reads the two in either order. -/
def readBlockHeader (c : Cursor) : Found (Chomping × Option Nat) :=
  match readChomping c with
  | (some chomping, c) => (readIndentation c).map fun (n, c) => ((chomping, n), c)
  | (none, c) =>
    match readIndentation c with
    | none => none
    | some (none, c) => some ((.clip, none), c)
    | some (some n, c) =>
      let (chomping, c) := readChomping c
      some ((chomping.getD .clip, some n), c)

/-- Reads the indentation of a line and the empty lines in front of it: the breaks of these, and
the widest indentation. While the indentation of the block is not known, any is read. -/
def readIndent (indent : Option Nat) :
    (fuel : Nat) → (widest : Nat) → (breaks : List Char) → Cursor → Found (List Char × Nat)
  | 0, _, _, _ => none
  | fuel + 1, widest, breaks, c =>
    let spaces := (c.rest.takeWhile (· == ' ')).length
    let c := c.advance (match indent with
      | some n => min spaces (n - c.column)
      | none => spaces)
    let widest := max widest c.column
    if c.rest.head? = some '\t' && indent.all (c.column < ·) then none
    else
      match c.readBreak? with
      | some (x, c) => readIndent indent fuel widest (breaks ++ [x]) c
      | none => some ((breaks, widest), c)

/-- A block as far as it is read: its text, the break at the end of the last line, the breaks of
the empty lines behind that, and whether the last line began with a blank. -/
structure Block where
  text : List Char := []
  lineBreak : List Char := []
  emptyLines : List Char := []
  blankLine : Bool := false

/-- What stands between the last line and one that begins with a blank or does not. -/
def Block.separator (folded : Bool) (b : Block) (blank : Bool) : List Char :=
  if folded && b.lineBreak == ['\n'] && !b.blankLine && !blank then
    if b.emptyLines.isEmpty then [' '] else b.emptyLines
  else b.lineBreak ++ b.emptyLines

/-- Reads the lines of a block that are indented as deep as it is. -/
def readLines (folded : Bool) (indent : Nat) : (fuel : Nat) → Block → Cursor → Found Block
  | 0, _, _ => none
  | fuel + 1, b, c =>
    if c.column ≠ indent || c.rest.isEmpty then some (b, c)
    else
      let blank := c.rest.head?.any isBlank
      let (line, c) := c.readWhile (!isBreak ·)
      let (lineBreak, c) := match c.readBreak? with
        | some (x, c) => ([x], c)
        | none => ([], c)
      match readIndent (some indent) (c.rest.length + 1) 0 [] c with
      | none => none
      | some ((emptyLines, _), c) =>
        let text := b.text ++ b.separator folded blank ++ line
        readLines folded indent fuel ⟨text, lineBreak, emptyLines, blank⟩ c

/-- Reads a block behind the mark that opens it, in a collection that is indented up to, but
without, the margin. -/
def readBlock (folded : Bool) (margin : Nat) (c : Cursor) : Option (List Char × Cursor) := do
  let ((chomping, stated), c) ← readBlockHeader c
  let c := (← c.skipLineRest?).skipBreak
  let stated := stated.map (· + (margin - 1))
  let ((emptyLines, widest), c) ← readIndent stated (c.rest.length + 1) 0 [] c
  let indent := stated.getD (max widest (max margin 1))
  let (b, c) ← readLines folded indent (c.rest.length + 1) { emptyLines } c
  let tail := match chomping with
    | .strip => []
    | .clip => b.lineBreak
    | .keep => b.lineBreak ++ b.emptyLines
  return (b.text ++ tail, c)

end Precedence.Yaml
