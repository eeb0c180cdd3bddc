import Precedence.Failure
import Precedence.Json.Quoted
import Precedence.Number.Decimal
import Precedence.Text.Unicode.Classes
import Precedence.Token

/-!
# The line scanner

Reads a text line by line into names, numerals, quoted texts and punctuation. Spaces and comments,
which run from `//` to the end of their line, give no token. At each place of a line the first of
the six kinds of lexemes that matches there is read (`lexeme?`).
-/

namespace Precedence.LineScanner

open Number Text

inductive LexemeKind where
  | spaces
  | comment
  | name
  | number
  | string
  | punctuator
  deriving DecidableEq

/-- A kind of lexeme and the number of characters that one of it reads. -/
structure Lexeme where
  kind : LexemeKind
  length : Nat
  length_pos : 0 < length

/-- The number of leading characters with a property. -/
def runLength (p : Char → Bool) (text : List Char) : Nat :=
  (text.takeWhile p).length

def isLetter (c : Char) : Bool :=
  ('a' ≤ c && c ≤ 'z') || ('A' ≤ c && c ≤ 'Z')

def isNameChar (c : Char) : Bool :=
  isLetter c || isDigit c || c == '_'

/-- A point and digits. -/
def fractionLength : List Char → Nat
  | '.' :: rest =>
    let digits := runLength Unicode.isDigit rest
    if digits = 0 then 0 else digits + 1
  | _ => 0

/-- An `e`, a sign or none, and digits. -/
def exponentLength : List Char → Nat
  | e :: rest =>
    if e = 'e' || e = 'E' then
      let sign := match rest with
        | '+' :: _ => 1
        | '-' :: _ => 1
        | _ => 0
      let digits := runLength Unicode.isDigit (rest.drop sign)
      if digits = 0 then 0 else digits + sign + 1
    else 0
  | [] => 0

/-- What may follow the first digits of a numeral. -/
def numberTailLength (text : List Char) : Nat :=
  let fraction := fractionLength text
  fraction + exponentLength (text.drop fraction)

/-- From behind an opening quote to behind the closing one. -/
def stringTailLength? : List Char → Option Nat
  | [] => none
  | '"' :: _ => some 1
  | '\\' :: 'u' :: a :: b :: c :: d :: rest =>
    if [a, b, c, d].all fun x => (hexDigitValue? x).isSome then
      (stringTailLength? rest).map (· + 6)
    else none
  | '\\' :: c :: rest =>
    if ['n', 'r', '"', '\\'].contains c then (stringTailLength? rest).map (· + 2) else none
  | c :: rest => if c = '\\' then none else (stringTailLength? rest).map (· + 1)

def isSinglePunctuator (c : Char) : Bool :=
  ['(', ')', '\x7b', '\x7d', '[', ']', '?', '.', ',', ':', ';', '~', '*', '/', '&', '|', '+', '-',
    '<', '>', '!', '='].contains c

/-- The longest punctuator at the beginning of a text, 0 if there is none. -/
def punctuatorLength : List Char → Nat
  | '!' :: '=' :: '=' :: _ => 3
  | '=' :: '=' :: '=' :: _ => 3
  | '&' :: '&' :: _ => 2
  | '|' :: '|' :: _ => 2
  | '+' :: '=' :: _ => 2
  | '-' :: '=' :: _ => 2
  | '<' :: '=' :: _ => 2
  | '>' :: '=' :: _ => 2
  | c :: _ => if isSinglePunctuator c then 1 else 0
  | [] => 0

/-- The lexeme at the beginning of a text. -/
def lexeme? : List Char → Option Lexeme
  | [] => none
  | '/' :: '/' :: rest => some ⟨.comment, runLength (· != '\n') rest + 2, by omega⟩
  | c :: rest =>
    if c = ' ' then some ⟨.spaces, runLength (· == ' ') rest + 1, by omega⟩
    else if isLetter c then some ⟨.name, runLength isNameChar rest + 1, by omega⟩
    else if Unicode.isDigit c then
      let digits := runLength Unicode.isDigit rest
      some ⟨.number, digits + numberTailLength (rest.drop digits) + 1, by omega⟩
    else if c = '"' then
      (stringTailLength? rest).map fun n => ⟨.string, n + 1, by omega⟩
    else
      match h : punctuatorLength (c :: rest) with
      | 0 => none
      | n + 1 => some ⟨.punctuator, n + 1, by omega⟩

/-- A place in a line: the number of the line, the offset in the whole text, and the column. -/
structure Place where
  line : Nat
  offset : Nat
  column : Nat

namespace Place

/-- The place behind a piece of the line. -/
def advance (p : Place) (read : List Char) : Place :=
  ⟨p.line, p.offset + byteLength read, p.column + read.length⟩

def position (p : Place) : Position :=
  ⟨p.line, p.column⟩

/-- The span of a piece of the line that begins at the place. -/
def span (p : Place) (read : List Char) : Span :=
  ⟨p.offset, p.offset + byteLength read⟩

end Place

/-- The token of a lexeme with the given text, none for spaces and comments. A numeral must have a
finite value, and the escapes of a quoted text must stand for characters. -/
def token? (place : Place) (kind : LexemeKind) (read : List Char) :
    Except Failure (Option Token) :=
  let text := String.ofList read
  let site : Site := { position := place.position, span := some (place.span read) }
  let make := fun (kind : TokenKind) (value : TokenValue) =>
    some { kind, text, value, span := place.span read, position := place.position : Token }
  match kind with
  | .spaces => .ok none
  | .comment => .ok none
  | .name => .ok (make .name (.text text))
  | .number =>
    match (Decimal.read read).bind Decimal.toBinary64? with
    | some x => .ok (make .number (.number x))
    | none => .error (.nonFiniteNumber text site)
  | .string =>
    match Json.Quoted.decode read with
    | some s => .ok (make .string (.text (String.ofList s)))
    | none =>
      .error (.lexical text { site with help := some "invalid escape sequence in string" })
  | .punctuator => .ok (make .punctuator (.text text))

/-- Where no lexeme begins. -/
def noLexeme (place : Place) (text : List Char) : Failure :=
  .lexical (String.ofList (text.take 12))
    { position := place.position, span := some (place.span (text.take 1)) }

/-- The tokens of the rest of a line. -/
def tokensFrom (place : Place) (text : List Char) : Except Failure (List Token) :=
  match text with
  | [] => .ok []
  | c :: cs =>
    match lexeme? (c :: cs) with
    | none => .error (noLexeme place (c :: cs))
    | some lexeme => do
      let read := (c :: cs).take lexeme.length
      let token ← token? place lexeme.kind read
      let tokens ← tokensFrom (place.advance read) ((c :: cs).drop lexeme.length)
      return token.toList ++ tokens
termination_by text.length
decreasing_by
  have := lexeme.length_pos
  simp only [List.length_drop, List.length_cons]
  omega

/-- The tokens of lines that are counted from `number`. -/
def tokensOfLines (number : Nat) : List Line → Except Failure (List Token)
  | [] => .ok []
  | line :: rest => do
    let tokens ← tokensFrom ⟨number, line.start, 1⟩ line.text
    return tokens ++ (← tokensOfLines (number + 1) rest)

/-- The tokens of a text. -/
def scan (text : String) : Except Failure (List Token) :=
  tokensOfLines 1 (splitLines text.toList)

/-- The tokens of given lines; offsets are those of the lines joined by line feeds. -/
def scanLines (lines : List String) : Except Failure (List Token) :=
  tokensOfLines 1 (joinedLines 0 (lines.map String.toList))

end Precedence.LineScanner
