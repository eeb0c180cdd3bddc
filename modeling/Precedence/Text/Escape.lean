import Precedence.Number.Decimal

/-!
# Escape sequences

What a backslash and the characters behind it stand for in the body of a quoted literal. Every body
has a meaning: a backslash in front of a character without a meaning of its own is dropped, and a
damaged code gives the replacement character.
-/

namespace Precedence.Text

open Number

def replacementCharacter : Char := '\ufffd'

/-- The character behind a backslash that is not a `u`. -/
def escapedChar : Char → Char
  | 'n' => '\n'
  | 'r' => '\r'
  | 't' => '\t'
  | 'b' => '\x08'
  | 'f' => '\x0c'
  | 'v' => '\x0b'
  | '0' => '\x00'
  | c => c

/-- The character with a code, if there is one. -/
def charOfCode (code : Nat) : Char :=
  if code.isValidChar then Char.ofNat code else replacementCharacter

def unescape : List Char → List Char
  | [] => []
  | '\\' :: 'u' :: a :: b :: c :: d :: rest =>
    match hexDigitsValue? [a, b, c, d] with
    | some code => charOfCode code :: unescape rest
    | none => replacementCharacter :: unescape (a :: b :: c :: d :: rest)
  | '\\' :: 'u' :: rest => replacementCharacter :: unescape rest
  | '\\' :: c :: rest => escapedChar c :: unescape rest
  | c :: rest => c :: unescape rest

end Precedence.Text
