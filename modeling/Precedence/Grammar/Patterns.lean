import Precedence.Grammar.Options
import Precedence.Token

/-!
# Token patterns of a grammar

The patterns by which a grammar splits a text, in the order in which they are tried: blanks and
comments, literals, operators and other fixed words, and what is left to be an identifier.
-/

namespace Precedence.Grammar

def blanks : String := "\\s+"

def comment : String := "//[^\\n]*"

def singleQuoted : String := "'([^'\\\\]*(?:\\\\.[^'\\\\]*)*)'"

def doubleQuoted : String := "\"([^\"\\\\]*(?:\\\\.[^\"\\\\]*)*)\""

def decimal : String := "\\b((?:[0-9]+\\.?[0-9]*|\\.[0-9]+)(?:[eE][-+]?[0-9]+)?)\\b"

def hexadecimal : String := "\\b(0[xX][0-9a-fA-F]+)\\b"

def null : String := "\\b(null)\\b"

def boolean : String := "\\b(true|false)\\b"

def regex : String := "/([^/]+)/([gimuy]*\\b)?"

/-- The alternatives are tried from the left, so longer ones stand in front of their beginnings. -/
def verbatim : String :=
  "(=>|\\.\\.\\.|\\|\\||&&|>>>|>>|<<|<=|>=|\\btypeof\\b|\\binstanceof\\b|\\bin\\b" ++
    "|===|!==|!=|==|\\+\\+|--|\\bNOT\\b|\\bANY\\b|\\bAND\\b|\\bnew\\b" ++
    "|[\x7b\x7d\\[\\]().?:|&=,^%*/<>+\\-~!])"

def identifier : String := "([a-zA-Z_$][a-zA-Z0-9_$]*)"

/-- The patterns in the order in which they are tried. -/
def patterns (options : GrammarOptions) : List (String × TokenKind) :=
  [(blanks, .ignore), (comment, .ignore), (singleQuoted, .string), (doubleQuoted, .string),
    (decimal, .number), (hexadecimal, .number), (null, .null), (boolean, .boolean)] ++
  (if options.regexLiterals then [(regex, .regex)] else []) ++
  [(verbatim, .verbatim), (identifier, .identifier)]

end Precedence.Grammar
