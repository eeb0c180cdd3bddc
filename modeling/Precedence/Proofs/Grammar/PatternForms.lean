import Mathlib
import Precedence.Grammar.Patterns
import Precedence.Regex.Read

/-!
# The token patterns of a grammar, read

What each token pattern of a grammar is once its text is read.
-/

namespace Precedence

namespace Regex

/-- One expression after another. -/
def phrase (rs : List Regex) : Regex :=
  rs.foldr .seq .empty

/-- One expression or another. -/
def oneOf : List Regex → Regex
  | [] => .empty
  | [r] => r
  | r :: rs => .alt r (oneOf rs)

def anyOf (sets : List CharSet) : CharSet :=
  sets.foldl .union .empty

def noneOf (sets : List CharSet) : CharSet :=
  .compl (anyOf sets)

/-- As many characters of a set as there are. -/
def many (set : CharSet) : Regex :=
  .repeated true 0 none (.char set)

def many1 (set : CharSet) : Regex :=
  .repeated true 1 none (.char set)

def maybe (r : Regex) : Regex :=
  .repeated true 0 (some 1) r

def boundary : Regex :=
  .assertion (.wordBoundary Text.Unicode.isWord)

/-- Just this text. -/
def spelled (text : String) : List Regex :=
  text.toList.map fun c => .char (.single c)

end Regex

namespace Grammar

open Regex

def blanksForm : Pattern := ⟨phrase [many1 .space], 0⟩

def commentForm : Pattern := ⟨phrase (spelled "//" ++ [many (noneOf [.single '\n'])]), 0⟩

/-- What can stand between two quotes of one kind. -/
def quotedBody (quote : Char) : Regex :=
  phrase
    [many (noneOf [.single quote, .single '\\']),
      .repeated true 0 none (phrase
        [.char (.single '\\'), .char (.compl (.single '\n')),
          many (noneOf [.single quote, .single '\\'])])]

def quotedForm (quote : Char) : Pattern :=
  ⟨phrase [.char (.single quote), .group 1 (quotedBody quote), .char (.single quote)], 1⟩

def digit : CharSet := anyOf [.range '0' '9']

def hexDigit : CharSet := anyOf [.range '0' '9', .range 'a' 'f', .range 'A' 'F']

/-- An exponent with its mark and perhaps a sign. -/
def exponent : Regex :=
  phrase
    [.char (anyOf [.single 'e', .single 'E']),
      maybe (.char (.union (.union (.single '-') .empty) (.single '+'))), many1 digit]

def decimalForm : Pattern :=
  ⟨phrase
    [boundary,
      .group 1 (phrase
        [oneOf
          [phrase [many1 digit, maybe (.char (.single '.')), many digit],
            phrase [.char (.single '.'), many1 digit]],
          maybe exponent]),
      boundary], 1⟩

def hexadecimalForm : Pattern :=
  ⟨phrase
    [boundary,
      .group 1 (phrase
        [.char (.single '0'), .char (anyOf [.single 'x', .single 'X']), many1 hexDigit]),
      boundary], 1⟩

/-- One of the words, between word boundaries. -/
def wordsForm (words : List String) : Pattern :=
  ⟨phrase [boundary, .group 1 (oneOf (words.map fun word => phrase (spelled word))), boundary], 1⟩

def regexForm : Pattern :=
  ⟨phrase
    [.char (.single '/'), .group 1 (phrase [many1 (noneOf [.single '/'])]), .char (.single '/'),
      maybe (.group 2 (phrase
        [many (anyOf [.single 'g', .single 'i', .single 'm', .single 'u', .single 'y']),
          boundary]))], 2⟩

/-- A word between word boundaries. -/
def word (text : String) : Regex :=
  phrase (boundary :: (spelled text ++ [boundary]))

/-- What a verbatim token can be, in the order in which it is tried. -/
def verbatims : List Regex :=
  (["=>", "...", "||", "&&", ">>>", ">>", "<<", "<=", ">="].map fun s => phrase (spelled s)) ++
    ["typeof", "instanceof", "in"].map word ++
    (["===", "!==", "!=", "==", "++", "--"].map fun s => phrase (spelled s)) ++
    ["NOT", "ANY", "AND", "new"].map word ++
    [phrase [.char (anyOf ("\x7b\x7d[]().?:|&=,^%*/<>+-~!".toList.map .single))]]

def verbatimForm : Pattern :=
  ⟨phrase [.group 1 (oneOf verbatims)], 1⟩

def identifierStart : CharSet :=
  anyOf [.range 'a' 'z', .range 'A' 'Z', .single '_', .single '$']

def identifierPart : CharSet :=
  anyOf [.range 'a' 'z', .range 'A' 'Z', .range '0' '9', .single '_', .single '$']

def identifierForm : Pattern :=
  ⟨phrase [.group 1 (phrase [.char identifierStart, many identifierPart])], 1⟩

set_option maxRecDepth 20000 in
/-- Every pattern can be read, to the expression that stands above under its name. -/
theorem read_patterns :
    Pattern.read blanks.toList = some blanksForm ∧
      Pattern.read comment.toList = some commentForm ∧
      Pattern.read singleQuoted.toList = some (quotedForm '\'') ∧
      Pattern.read doubleQuoted.toList = some (quotedForm '"') ∧
      Pattern.read decimal.toList = some decimalForm ∧
      Pattern.read hexadecimal.toList = some hexadecimalForm ∧
      Pattern.read null.toList = some (wordsForm ["null"]) ∧
      Pattern.read boolean.toList = some (wordsForm ["true", "false"]) ∧
      Pattern.read regex.toList = some regexForm ∧
      Pattern.read verbatim.toList = some verbatimForm ∧
      Pattern.read identifier.toList = some identifierForm := by
  refine ⟨?_, ?_, ?_, ?_, ?_, ?_, ?_, ?_, ?_, ?_, ?_⟩ <;> cbv

end Grammar

end Precedence
