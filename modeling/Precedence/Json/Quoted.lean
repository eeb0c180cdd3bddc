import Precedence.Number.Decimal

/-!
# Quoted text

A text between double quotes, as JSON has it. `Quoted.read` decodes one up to its closing quote;
`Quoted.write` escapes the quote, the backslash and control characters, and nothing else.
-/

namespace Precedence.Json.Quoted

open Number

/-- The character that a backslash and this letter stand for. -/
def named? : Char → Option Char
  | '"' => some '"'
  | '\\' => some '\\'
  | '/' => some '/'
  | 'b' => some '\x08'
  | 'f' => some '\x0c'
  | 'n' => some '\n'
  | 'r' => some '\r'
  | 't' => some '\t'
  | _ => none

def isHighSurrogate (unit : Nat) : Bool :=
  0xd800 ≤ unit && unit < 0xdc00

def isLowSurrogate (unit : Nat) : Bool :=
  0xdc00 ≤ unit && unit < 0xe000

/-- The character above the first 65536 that two surrogates stand for together. -/
def joinSurrogates (high low : Nat) : Char :=
  Char.ofNat (0x10000 + (high - 0xd800) * 0x400 + (low - 0xdc00))

/-- Reads on behind an opening quote: the decoded text, of which `read` is the beginning backwards,
and what follows the closing quote. A raw control character, an unknown escape and half a pair of
surrogates are refused. -/
def read (read : List Char) : List Char → Option (List Char × List Char)
  | [] => none
  | '"' :: rest => some (read.reverse, rest)
  | '\\' :: 'u' :: a :: b :: c :: d :: rest =>
    match hexDigitsValue? [a, b, c, d] with
    | none => none
    | some unit =>
      if isHighSurrogate unit then
        match rest with
        | '\\' :: 'u' :: a' :: b' :: c' :: d' :: rest =>
          match hexDigitsValue? [a', b', c', d'] with
          | none => none
          | some low =>
            if isLowSurrogate low then Quoted.read (joinSurrogates unit low :: read) rest
            else none
        | _ => none
      else if isLowSurrogate unit then none
      else Quoted.read (Char.ofNat unit :: read) rest
  | '\\' :: c :: rest =>
    match named? c with
    | some c => Quoted.read (c :: read) rest
    | none => none
  | c :: rest => if c = '\\' || c.toNat < 0x20 then none else Quoted.read (c :: read) rest

/-- The text that a whole quoted text stands for. -/
def decode : List Char → Option (List Char)
  | '"' :: rest =>
    match read [] rest with
    | some (text, []) => some text
    | _ => none
  | _ => none

/-- A character as it stands between quotes. -/
def escape (c : Char) : List Char :=
  match c with
  | '"' => ['\\', '"']
  | '\\' => ['\\', '\\']
  | '\x08' => ['\\', 'b']
  | '\x0c' => ['\\', 'f']
  | '\n' => ['\\', 'n']
  | '\r' => ['\\', 'r']
  | '\t' => ['\\', 't']
  | c =>
    if c.toNat < 0x20 then
      ['\\', 'u', '0', '0', Nat.digitChar (c.toNat / 16), Nat.digitChar (c.toNat % 16)]
    else [c]

def write (text : List Char) : List Char :=
  '"' :: text.flatMap escape ++ ['"']

end Precedence.Json.Quoted
