import Precedence.Text.Span
import Precedence.Text.Lines
import Precedence.Number.Binary64

/-!
# Tokens

A token has a kind, the text that it stands for, a decoded value, the groups of the pattern that
matched it, and its place in the source.
-/

namespace Precedence

open Number Text

inductive TokenKind where
  | name
  | number
  | string
  | punctuator
  | identifier
  | verbatim
  | regex
  | boolean
  | null
  /-- Matched and left out, as white space and comments are. -/
  | ignore
  deriving DecidableEq, Hashable, Inhabited

namespace TokenKind

def all : List TokenKind :=
  [name, number, string, punctuator, identifier, verbatim, regex, boolean, null, ignore]

/-- The word for a kind. -/
def label : TokenKind → String
  | name => "name"
  | number => "number"
  | string => "string"
  | punctuator => "punctuator"
  | identifier => "identifier"
  | verbatim => "verbatim"
  | regex => "regex"
  | boolean => "boolean"
  | null => "null"
  | ignore => "ignore"

def ofLabel? (label : String) : Option TokenKind :=
  all.find? (·.label == label)

end TokenKind

/-- What a token stands for: a number, or a text. -/
inductive TokenValue where
  | number (value : Binary64)
  | text (value : String)
  deriving DecidableEq, Inhabited

structure Token where
  kind : TokenKind
  /-- All of the matched text. -/
  text : String
  value : TokenValue
  /-- What the groups of the pattern matched, as far as they took part. -/
  captures : List (Option String) := []
  span : Span
  position : Position
  deriving DecidableEq, Inhabited

namespace Token

/-- The decoded text, or for a number the text as it stands. -/
def textValue (t : Token) : String :=
  match t.value with
  | .text s => s
  | .number _ => t.text

def number? (t : Token) : Option Binary64 :=
  match t.value with
  | .number x => some x
  | .text _ => none

/-- What a group matched, counted from 0. -/
def capture? (t : Token) (i : Nat) : Option String :=
  (t.captures[i]?).join

/-- A text in backquotes. -/
def quote (text : String) : String :=
  "`" ++ text ++ "`"

/-- The token as messages name it: its text, and unless that says it all, the kind in front. -/
def describe (t : Token) : String :=
  match t.kind with
  | .verbatim | .punctuator => quote t.text
  | kind => kind.label ++ " " ++ quote t.text

end Token

end Precedence
