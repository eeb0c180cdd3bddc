import Precedence.Json.Basic
import Precedence.Json.Quoted

/-!
# Reading JSON

`Json.parse?` reads a text that is one JSON value, with blanks around its parts and nothing else.
A number too large to be represented is refused.
-/

namespace Precedence.Json

open Number

def isBlank (c : Char) : Bool :=
  c == ' ' || c == '\n' || c == '\r' || c == '\t'

def skipBlanks (text : List Char) : List Char :=
  text.dropWhile isBlank

/-- Reads digits, at least one. -/
def readDigits (text : List Char) : Option (List Char × List Char) :=
  let digits := text.takeWhile isDigit
  if digits.isEmpty then none else some (digits, text.dropWhile isDigit)

/-- Reads the digits in front of the point: a zero stands alone. -/
def readWhole : List Char → Option (List Char × List Char)
  | '0' :: rest => some (['0'], rest)
  | text => readDigits text

/-- Reads a point and digits, or nothing. -/
def readFraction : List Char → Option (List Char × List Char)
  | '.' :: rest => (readDigits rest).map fun (digits, rest) => ('.' :: digits, rest)
  | text => some ([], text)

/-- Reads an exponent, or nothing. -/
def readExponent : List Char → Option (List Char × List Char)
  | c :: rest =>
    if c = 'e' || c = 'E' then
      match rest with
      | '-' :: rest => (readDigits rest).map fun (digits, rest) => ('e' :: '-' :: digits, rest)
      | '+' :: rest => (readDigits rest).map fun (digits, rest) => ('e' :: digits, rest)
      | rest => (readDigits rest).map fun (digits, rest) => ('e' :: digits, rest)
    else some ([], c :: rest)
  | [] => some ([], [])

def readNumber (text : List Char) : Option (Json × List Char) := do
  let (sign, rest) := match text with
    | '-' :: rest => (['-'], rest)
    | rest => ([], rest)
  let (whole, rest) ← readWhole rest
  let (fraction, rest) ← readFraction rest
  let (exponent, rest) ← readExponent rest
  if sign.isEmpty && fraction.isEmpty && exponent.isEmpty then
    return (natural (digitsValue whole), rest)
  let decimal ← Decimal.read (sign ++ whole ++ fraction ++ exponent)
  return (number (← decimal.toBinary64?), rest)

/-- Reads a word that stands for a value. -/
def readWord (word : String) (value : Json) (text : List Char) : Option (Json × List Char) :=
  if word.toList.isPrefixOf text then some (value, text.drop word.length) else none

mutual

/-- Reads a value, in no more steps than `fuel`. -/
def readValue (fuel : Nat) (text : List Char) : Option (Json × List Char) :=
  match fuel with
  | 0 => none
  | fuel + 1 =>
    match skipBlanks text with
    | '[' :: rest =>
      match skipBlanks rest with
      | ']' :: rest => some (array [], rest)
      | rest => (readItems fuel rest).map fun (items, rest) => (array items, rest)
    | '\x7b' :: rest =>
      match skipBlanks rest with
      | '\x7d' :: rest => some (object [], rest)
      | rest => (readFields fuel rest).map fun (fields, rest) => (object fields, rest)
    | '"' :: rest =>
      (Quoted.read [] rest).map fun (s, rest) => (string (String.ofList s), rest)
    | 't' :: rest => readWord "rue" (bool true) rest
    | 'f' :: rest => readWord "alse" (bool false) rest
    | 'n' :: rest => readWord "ull" null rest
    | rest => readNumber rest

/-- Reads items up to the bracket that closes them. -/
def readItems (fuel : Nat) (text : List Char) : Option (List Json × List Char) :=
  match fuel with
  | 0 => none
  | fuel + 1 =>
    match readValue fuel text with
    | none => none
    | some (item, rest) =>
      match skipBlanks rest with
      | ',' :: rest => (readItems fuel rest).map fun (items, rest) => (item :: items, rest)
      | ']' :: rest => some ([item], rest)
      | _ => none

/-- Reads fields up to the brace that closes them. -/
def readFields (fuel : Nat) (text : List Char) : Option (List (String × Json) × List Char) :=
  match fuel with
  | 0 => none
  | fuel + 1 =>
    match skipBlanks text with
    | '"' :: rest =>
      match Quoted.read [] rest with
      | none => none
      | some (name, rest) =>
        match skipBlanks rest with
        | ':' :: rest =>
          match readValue fuel rest with
          | none => none
          | some (value, rest) =>
            let field := (String.ofList name, value)
            match skipBlanks rest with
            | ',' :: rest =>
              (readFields fuel rest).map fun (fields, rest) => (field :: fields, rest)
            | '\x7d' :: rest => some ([field], rest)
            | _ => none
        | _ => none
    | _ => none

end

/-- The value of a text that is JSON. Every step reads a character, or is the first to look at a
text that the step before has shortened. -/
def parse? (text : String) : Option Json :=
  let text := text.toList
  match readValue (2 * text.length + 2) text with
  | some (value, rest) => if (skipBlanks rest).isEmpty then some value else none
  | none => none

end Precedence.Json
