import Precedence.Token

/-!
# Token listings

One line for each token: line and column, the kind, and the text. On a terminal the kind is bold and
has a color.
-/

namespace Precedence

/-- The text, with blanks in front of it up to a width. -/
def padLeft (width : Nat) (text : String) : String :=
  String.ofList (List.replicate (width - text.length) ' ') ++ text

/-- The text, with blanks behind it up to a width. -/
def padRight (width : Nat) (text : String) : String :=
  text ++ String.ofList (List.replicate (width - text.length) ' ')

/-- The number of the color in which a terminal shows a kind. -/
def TokenKind.color : TokenKind → Nat
  | name => 7
  | identifier => 7
  | number => 5
  | string => 2
  | regex => 2
  | boolean => 4
  | null => 4
  | punctuator => 3
  | verbatim => 3
  | ignore => 0

/-- What tells a terminal how to show what follows. -/
def terminalCode (code : String) : String :=
  "\x1b[" ++ code ++ "m"

/-- A text in bold and in the color of a kind, between two resets. -/
def highlight (kind : TokenKind) (text : String) : String :=
  terminalCode "0" ++ terminalCode "1" ++ terminalCode ("3" ++ toString kind.color) ++ text ++
    terminalCode "0"

namespace Token

def listingLine (colored : Bool) (t : Token) : String :=
  let kind := padRight 11 t.kind.label
  padLeft 4 (toString t.position.line) ++ ":" ++ padRight 4 (toString t.position.column) ++ " " ++
    (if colored then highlight t.kind kind else kind) ++ t.text ++ "\n"

def listing (colored : Bool) (tokens : List Token) : String :=
  if tokens.isEmpty then "(no tokens)\n"
  else String.join (tokens.map (listingLine colored))

end Token

end Precedence
