import Precedence.Failure
import Precedence.Token

/-!
# Symbols

What the Pratt parser tells tokens apart by. Names, numerals and quoted texts are symbols whatever
they say; of all other tokens ten are symbols.
-/

namespace Precedence.Pratt

inductive Symbol where
  | name
  | number
  | string
  | plus
  | minus
  | tilde
  | bang
  | star
  | slash
  | leftParen
  | rightParen
  | leftCurly
  | rightCurly
  deriving DecidableEq, Inhabited

/-- A failure at a token. -/
def failureAt (t : Token) (problem : String) : Failure :=
  .operator problem { position := t.position, span := some t.span }

namespace Symbol

def all : List Symbol :=
  [name, number, string, plus, minus, tilde, bang, star, slash, leftParen, rightParen, leftCurly,
    rightCurly]

/-- The word for a symbol. -/
def label : Symbol → String
  | name => "name"
  | number => "number"
  | string => "string"
  | plus => "plus"
  | minus => "minus"
  | tilde => "tilde"
  | bang => "bang"
  | star => "star"
  | slash => "slash"
  | leftParen => "left_paren"
  | rightParen => "right_paren"
  | leftCurly => "left_curly"
  | rightCurly => "right_curly"

def ofLabel? (label : String) : Option Symbol :=
  all.find? (·.label == label)

/-- The text of a symbol that has only one. -/
def text? : Symbol → Option String
  | name => none
  | number => none
  | string => none
  | plus => some "+"
  | minus => some "-"
  | tilde => some "~"
  | bang => some "!"
  | star => some "*"
  | slash => some "/"
  | leftParen => some "("
  | rightParen => some ")"
  | leftCurly => some "\x7b"
  | rightCurly => some "\x7d"

def ofText? (text : String) : Option Symbol :=
  all.find? (·.text? == some text)

/-- The symbol as messages name it. -/
def describe (s : Symbol) : String :=
  match s.text? with
  | some text => Token.quote text
  | none => s.label

/-- The symbol that a token is. -/
def ofToken (t : Token) : Except Failure Symbol :=
  match t.kind with
  | .name => .ok name
  | .identifier => .ok name
  | .number => .ok number
  | .string => .ok string
  | _ =>
    match ofText? t.text with
    | some s => .ok s
    | none => .error (failureAt t ("unsupported token " ++ t.describe))

end Symbol

end Precedence.Pratt
