import Precedence.Yaml.Scalar

/-!
# Marks of a YAML text

A text is read as a row of marks: scalars, anchors, aliases, tags, and what shows the structure.
Some of these are written; others say where a block collection begins and ends, which indentation
shows. A key need not be marked as one: it is enough that a colon follows it in the same line, and
so the mark of a key is put in front of it only when the colon is read.
-/

namespace Precedence.Yaml

inductive Mark where
  | version (major minor : Nat)
  | tagHandle (handle meaning : List Char)
  | documentStart
  | documentEnd
  | blockSequenceStart
  | blockMappingStart
  | blockEnd
  | flowSequenceStart
  | flowSequenceEnd
  | flowMappingStart
  | flowMappingEnd
  | entry
  | comma
  | key
  | value
  | alias (name : List Char)
  | anchor (name : List Char)
  | tag (handle suffix : List Char)
  | scalar (style : ScalarStyle) (text : List Char)
  deriving DecidableEq

/-- What may turn out to be a key: where it begins, which mark is the first of it, and whether
nothing but a key can stand there. -/
structure PossibleKey where
  place : Cursor
  mark : Nat
  required : Bool

/-- How far a text is read. There is a possible key or none for the block context and for each flow
collection that is open, the innermost first. -/
structure Scan where
  place : Cursor
  marks : Array Mark := #[]
  /-- The column of the innermost block collection and one more, 0 outside of all. -/
  margin : Nat := 0
  /-- The margins around it. -/
  outer : List Nat := []
  keys : List (Option PossibleKey) := [none]
  keyAllowed : Bool := true

namespace Scan

def inFlow (s : Scan) : Bool :=
  1 < s.keys.length

def push (s : Scan) (m : Mark) : Scan :=
  { s with marks := s.marks.push m }

/-- The scan behind a written mark of `n` characters. -/
def mark (s : Scan) (n : Nat) (m : Mark) : Scan :=
  { s.push m with place := s.place.advance n }

/-! ### Possible keys -/

/-- Whether what began as a key can still be one: the line is the same and not too long. -/
def isFresh (s : Scan) (key : PossibleKey) : Bool :=
  key.place.line == s.place.line && s.place.index ≤ key.place.index + 1024

/-- Gives up the keys that can be keys no longer; a required one must not be among them. -/
def dropStale (s : Scan) : Option Scan := do
  let keys ← s.keys.mapM fun key? =>
    match key? with
    | none => some none
    | some key =>
      if s.isFresh key then some (some key)
      else if key.required then none
      else some none
  return { s with keys }

/-- Gives up the innermost possible key, which must not be required. -/
def dropKey (s : Scan) : Option Scan :=
  match s.keys with
  | [] => some s
  | key? :: keys =>
    if key?.any (·.required) then none else some { s with keys := none :: keys }

/-- Notes that a key may begin here. -/
def noteKey (s : Scan) : Option Scan := do
  if !s.keyAllowed then return s
  let s ← s.dropKey
  let required := !s.inFlow && s.margin == s.place.column + 1
  return { s with keys := some ⟨s.place, s.marks.size, required⟩ :: s.keys.drop 1 }

/-! ### Block collections -/

/-- Opens a block collection at a column unless one stands there; its mark is put at an index. -/
def openBlock (s : Scan) (column index : Nat) (m : Mark) : Scan :=
  if s.inFlow || column < s.margin then s
  else
    { s with
      marks := s.marks.insertIdxIfInBounds index m
      margin := column + 1
      outer := s.margin :: s.outer }

/-- Closes the block collections to the right of a margin. -/
def closeBlocks (s : Scan) (margin : Nat) : Scan :=
  let rec close (current : Nat) : List Nat → Scan → Scan
    | [], s => { s with margin := current, outer := [] }
    | outer :: rest, s =>
      if margin < current then close outer rest (s.push .blockEnd)
      else { s with margin := current, outer := outer :: rest }
  if s.inFlow then s else close s.margin s.outer s

/-! ### Gaps between marks -/

/-- Reads blanks, comments and line breaks. In a block a tab counts as a blank only where no key can
begin. -/
def skipGap : (fuel : Nat) → Scan → Scan
  | 0, s => s
  | fuel + 1, s =>
    let c := s.place
    let c := if c.index = 0 && c.rest.head? = some '\ufeff' then c.advance 1 else c
    let tabs := s.inFlow || !s.keyAllowed
    let c := c.skipWhile fun x => x == ' ' || (tabs && x == '\t')
    let c := if c.rest.head? = some '#' then c.skipWhile (!isBreak ·) else c
    match c.readBreak? with
    | some (_, c) => skipGap fuel { s with place := c, keyAllowed := s.keyAllowed || !s.inFlow }
    | none => { s with place := c }

/-! ### Directives -/

/-- A number of at most nine digits. -/
def readNumber (c : Cursor) : Found Nat :=
  let (digits, c) := c.readWhile isDigit
  if digits.isEmpty || 9 < digits.length then none else some (Number.digitsValue digits, c)
where
  isDigit := Number.isDigit

def readVersion (c : Cursor) : Option (Mark × Cursor) := do
  let (major, c) ← readNumber (c.skipWhile isBlank)
  if c.rest.head? ≠ some '.' then none
  let (minor, c) ← readNumber (c.advance 1)
  return (.version major minor, c)

/-- Characters of a tag, besides escapes. In angle brackets and directives flow marks are too. -/
def isTagChar (full : Bool) (c : Char) : Bool :=
  isNameChar c ||
    [';', '/', '?', ':', '@', '&', '=', '+', '$', '.', '!', '~', '*', '\'', '(', ')'].contains c ||
    (full && [',', '[', ']'].contains c)

/-- The bytes that the escapes at the beginning of a text stand for. -/
def readEscapedBytes : List Char → Option (List UInt8 × List Char)
  | '%' :: a :: b :: rest =>
    match Number.hexDigitsValue? [a, b] with
    | none => none
    | some byte =>
      (readEscapedBytes rest).map fun (bytes, rest) => (UInt8.ofNat byte :: bytes, rest)
  | '%' :: _ => none
  | rest => some ([], rest)

/-- Reads characters of a tag. Escapes must stand for characters in UTF-8. -/
def readTagChars (full : Bool) : (fuel : Nat) → (read : List Char) → Cursor → Found (List Char)
  | 0, _, _ => none
  | fuel + 1, read, c =>
    match c.rest with
    | '%' :: _ =>
      match readEscapedBytes c.rest with
      | none => none
      | some (bytes, _) =>
        match String.fromUTF8? ⟨bytes.toArray⟩ with
        | none => none
        | some text =>
          readTagChars full fuel (read ++ text.toList) (c.advance (3 * bytes.length))
    | x :: _ =>
      if isTagChar full x then readTagChars full fuel (read ++ [x]) (c.advance 1)
      else some (read, c)
    | [] => some (read, c)

/-- Reads an exclamation mark, and a name and another one if they follow: the handle, and whether
it is complete. -/
def readTagHandle (c : Cursor) : Option (List Char × Bool × Cursor) :=
  if c.rest.head? ≠ some '!' then none
  else
    let (name, c) := (c.advance 1).readWhile isNameChar
    if c.rest.head? = some '!' then some ('!' :: name ++ ['!'], true, c.advance 1)
    else some ('!' :: name, false, c)

def readTagDirective (c : Cursor) : Option (Mark × Cursor) := do
  let (handle, complete, c) ← readTagHandle (c.skipWhile isBlank)
  if !complete && handle ≠ ['!'] then none
  if !c.rest.head?.any isBlank then none
  let c := c.skipWhile isBlank
  let (meaning, c) ← readTagChars true (c.rest.length + 1) [] c
  if meaning.isEmpty || !atSpacing c.rest then none
  return (.tagHandle handle meaning, c)

/-- Reads a directive up to the end of its line. -/
def readDirective (c : Cursor) : Option (Mark × Cursor) := do
  let (name, c) := (c.advance 1).readWhile isNameChar
  if !atSpacing c.rest then none
  let (m, c) ← match String.ofList name with
    | "YAML" => readVersion c
    | "TAG" => readTagDirective c
    | _ => none
  return (m, (← c.skipLineRest?).skipBreak)

/-! ### Anchors, aliases and tags -/

/-- Reads the name behind an ampersand or a star. -/
def readName (c : Cursor) : Found (List Char) :=
  let (name, c) := (c.advance 1).readWhile isNameChar
  let ends := atSpacing c.rest ||
    c.rest.head?.any fun x => ['?', ':', ',', ']', '\x7d', '%', '@', '\x60'].contains x
  if name.isEmpty || !ends then none else some (name, c)

/-- Reads a tag in angle brackets. -/
def readVerbatimTag (c : Cursor) : Option (Mark × Cursor) := do
  let c := c.advance 2
  let (suffix, c) ← readTagChars true (c.rest.length + 1) [] c
  if suffix.isEmpty || c.rest.head? ≠ some '>' then none
  return (.tag [] suffix, c.advance 1)

/-- Reads a tag with a handle, or only with an exclamation mark. -/
def readShortTag (c : Cursor) : Option (Mark × Cursor) := do
  let (handle, complete, c) ← readTagHandle c
  if complete then
    let (suffix, c) ← readTagChars false (c.rest.length + 1) [] c
    if suffix.isEmpty then none
    return (.tag handle suffix, c)
  else
    let (suffix, c) ← readTagChars false (c.rest.length + 1) (handle.drop 1) c
    return (if suffix.isEmpty then .tag [] ['!'] else .tag ['!'] suffix, c)

/-- A tag ends with spacing, or in a flow collection with a comma. -/
def readTag (inFlow : Bool) (c : Cursor) : Option (Mark × Cursor) := do
  let (m, c) ← match c.rest with
    | '!' :: '<' :: _ => readVerbatimTag c
    | _ => readShortTag c
  if atSpacing c.rest || (inFlow && c.rest.head? = some ',') then return (m, c) else none

/-! ### Marks -/

/-- The scan behind a mark in front of which no key can begin, and behind which one can or not. -/
def structural (s : Scan) (n : Nat) (m : Mark) (keyAllowed : Bool) : Option Scan := do
  return { (← s.dropKey).mark n m with keyAllowed }

/-- The scan behind what may be a key or the beginning of one. -/
def content (s : Scan) (read : Cursor → Option (Mark × Cursor)) : Option Scan := do
  let s ← s.noteKey
  let (m, place) ← read s.place
  return { s.push m with place, keyAllowed := false }

def openFlow (s : Scan) (m : Mark) : Option Scan := do
  let s ← s.noteKey
  return { s.mark 1 m with keys := none :: s.keys, keyAllowed := true }

def closeFlow (s : Scan) (m : Mark) : Option Scan := do
  let s ← s.dropKey
  let keys := if s.inFlow then s.keys.drop 1 else s.keys
  return { s.mark 1 m with keys, keyAllowed := false }

/-- The hyphen in front of an entry of a block sequence. -/
def entry (s : Scan) : Option Scan :=
  if s.inFlow then s.structural 1 .entry true
  else if !s.keyAllowed then none
  else (s.openBlock s.place.column s.marks.size .blockSequenceStart).structural 1 .entry true

/-- The question mark in front of a key. -/
def key (s : Scan) : Option Scan :=
  if s.inFlow then s.structural 1 .key false
  else if !s.keyAllowed then none
  else (s.openBlock s.place.column s.marks.size .blockMappingStart).structural 1 .key true

/-- The colon in front of a value. -/
def value (s : Scan) : Option Scan :=
  match s.keys with
  | some key :: keys =>
    let s := { s with marks := s.marks.insertIdxIfInBounds key.mark .key, keys := none :: keys }
    let s := s.openBlock key.place.column key.mark .blockMappingStart
    some { s.mark 1 .value with keyAllowed := false }
  | _ =>
    if s.inFlow then some { s.mark 1 .value with keyAllowed := false }
    else if !s.keyAllowed then none
    else
      some ((s.openBlock s.place.column s.marks.size .blockMappingStart).mark 1 .value)

def block (s : Scan) (folded : Bool) : Option Scan := do
  let s ← s.dropKey
  let (text, place) ← readBlock folded s.margin (s.place.advance 1)
  let style := if folded then ScalarStyle.folded else .literal
  return { s.push (.scalar style text) with place, keyAllowed := true }

def quoted (s : Scan) (double : Bool) : Option Scan :=
  s.content fun c => do
    let (text, c) ← readQuoted double (c.rest.length + 1) [] (c.advance 1)
    return (.scalar (if double then .doubleQuoted else .singleQuoted) text, c)

def plain (s : Scan) : Option Scan := do
  let s ← s.noteKey
  let (found, place) ← readPlain s.inFlow s.margin (s.place.rest.length + 1) [] {} s.place
  return { s.push (.scalar .plain found.text) with place, keyAllowed := found.broken }

/-- Characters that begin a mark and no plain scalar. -/
def isIndicator (c : Char) : Bool :=
  ['-', '?', ':', ',', '[', ']', '\x7b', '\x7d', '#', '&', '*', '!', '|', '>', '\'', '"', '%', '@',
    '\x60'].contains c

/-- Whether a plain scalar can begin here. -/
def plainBegins (s : Scan) : Bool :=
  match s.place.rest with
  | '-' :: rest => !rest.head?.any isBlank
  | '?' :: rest => !s.inFlow && !atSpacing rest
  | ':' :: rest => !s.inFlow && !atSpacing rest
  | c :: _ => !isSpacing c && !isIndicator c
  | [] => false

/-- Closes all block collections, for what stands outside of them. -/
def outside (s : Scan) : Option Scan := do
  return { ← (s.closeBlocks 0).dropKey with keyAllowed := false }

/-- The next mark. -/
def next (s : Scan) : Option Scan :=
  let begins := fun (rest : List Char) => s.inFlow || atSpacing rest
  if s.place.column = 0 && s.place.rest.head? = some '%' then do
    let s ← s.outside
    let (m, place) ← readDirective s.place
    return { s.push m with place }
  else if s.place.atDocumentMark then do
    let s ← s.outside
    return s.mark 3 (if s.place.rest.head? = some '-' then .documentStart else .documentEnd)
  else
    match s.place.rest with
    | '[' :: _ => s.openFlow .flowSequenceStart
    | '\x7b' :: _ => s.openFlow .flowMappingStart
    | ']' :: _ => s.closeFlow .flowSequenceEnd
    | '\x7d' :: _ => s.closeFlow .flowMappingEnd
    | ',' :: _ => s.structural 1 .comma true
    | '-' :: rest =>
      if atSpacing rest then s.entry else if s.plainBegins then s.plain else none
    | '?' :: rest => if begins rest then s.key else if s.plainBegins then s.plain else none
    | ':' :: rest => if begins rest then s.value else if s.plainBegins then s.plain else none
    | '*' :: _ => s.content fun c => (readName c).map fun (name, c) => (.alias name, c)
    | '&' :: _ => s.content fun c => (readName c).map fun (name, c) => (.anchor name, c)
    | '!' :: _ => s.content (readTag s.inFlow)
    | '|' :: _ => if s.inFlow then none else s.block false
    | '>' :: _ => if s.inFlow then none else s.block true
    | '\'' :: _ => s.quoted false
    | '"' :: _ => s.quoted true
    | _ => if s.plainBegins then s.plain else none

/-- All marks up to the end of the text. Each mark takes a character at least. -/
def run : (fuel : Nat) → Scan → Option (Array Mark)
  | 0, _ => none
  | fuel + 1, s => do
    let s ← (s.skipGap (s.place.rest.length + 1)).dropStale
    let s := s.closeBlocks (s.place.column + 1)
    if s.place.rest.isEmpty then return (← s.outside).marks
    else run fuel (← s.next)

end Scan

/-- Characters that may stand in a text at all. -/
def isAdmitted (c : Char) : Bool :=
  let n := c.toNat
  n == 0x9 || n == 0xa || n == 0xd || (0x20 ≤ n && n ≤ 0x7e) || n == 0x85 ||
    (0xa0 ≤ n && n ≤ 0xd7ff) || (0xe000 ≤ n && n ≤ 0xfffd) || 0x10000 ≤ n

/-- The marks of a text. -/
def marks? (text : List Char) : Option (List Mark) :=
  if text.all isAdmitted then
    (Scan.run (text.length + 1) { place := { rest := text } }).map Array.toList
  else none

end Precedence.Yaml
