import Precedence.Text.Unicode.Classes

/-!
# Visible quotation

A text between double quotes in which every character can be seen: what has no visible form of its
own, or would join the character in front, is written as its code.
-/

namespace Precedence.Text

/-- The code of a character, in hexadecimal digits between braces. -/
def codeForm (c : Char) : List Char :=
  '\\' :: 'u' :: '\x7b' :: Nat.toDigits 16 c.toNat ++ ['\x7d']

def visible (c : Char) : List Char :=
  match c with
  | '\x00' => ['\\', '0']
  | '\t' => ['\\', 't']
  | '\n' => ['\\', 'n']
  | '\r' => ['\\', 'r']
  | '"' => ['\\', '"']
  | '\\' => ['\\', '\\']
  | c =>
    if Unicode.extendsGrapheme c || !Unicode.isPrintable c then codeForm c else [c]

def quoteVisibly (text : List Char) : List Char :=
  '"' :: text.flatMap visible ++ ['"']

end Precedence.Text
