import Precedence.Regex.CharSet

/-!
# Names of character classes in patterns

The names that a pattern can give to a set of characters: properties, general categories and scripts
as in `\p{Lu}`, and the classes of ASCII characters as in `[:alpha:]`.
-/

namespace Precedence.Regex

open Text

/-- A class name without a leading `is` and without case, blanks, hyphens, underscores and
characters that are not ASCII. -/
def normalizeName (name : List Char) : List Char :=
  let plain (cs : List Char) : List Char :=
    (cs.filter fun c => Unicode.isAscii c && c != ' ' && c != '-' && c != '_').map Char.toLower
  match (name.take 2).map Char.toLower with
  | ['i', 's'] =>
    let rest := plain (name.drop 2)
    if rest == ['c'] then ['i', 's', 'c'] else rest
  | _ => plain name

/-- The short name, the long name and the categories of each group of general categories. -/
def categoryNames : List (String × String × List Unicode.Category) :=
  [("lu", "uppercaseletter", [.uppercaseLetter]),
    ("ll", "lowercaseletter", [.lowercaseLetter]),
    ("lt", "titlecaseletter", [.titlecaseLetter]),
    ("lc", "casedletter", [.uppercaseLetter, .lowercaseLetter, .titlecaseLetter]),
    ("lm", "modifierletter", [.modifierLetter]),
    ("lo", "otherletter", [.otherLetter]),
    ("l", "letter",
      [.uppercaseLetter, .lowercaseLetter, .titlecaseLetter, .modifierLetter, .otherLetter]),
    ("mn", "nonspacingmark", [.nonspacingMark]),
    ("mc", "spacingmark", [.spacingMark]),
    ("me", "enclosingmark", [.enclosingMark]),
    ("m", "mark", [.nonspacingMark, .spacingMark, .enclosingMark]),
    ("nd", "decimalnumber", [.decimalNumber]),
    ("nl", "letternumber", [.letterNumber]),
    ("no", "othernumber", [.otherNumber]),
    ("n", "number", [.decimalNumber, .letterNumber, .otherNumber]),
    ("pc", "connectorpunctuation", [.connectorPunctuation]),
    ("pd", "dashpunctuation", [.dashPunctuation]),
    ("ps", "openpunctuation", [.openPunctuation]),
    ("pe", "closepunctuation", [.closePunctuation]),
    ("pi", "initialpunctuation", [.initialPunctuation]),
    ("pf", "finalpunctuation", [.finalPunctuation]),
    ("po", "otherpunctuation", [.otherPunctuation]),
    ("p", "punctuation",
      [.connectorPunctuation, .dashPunctuation, .openPunctuation, .closePunctuation,
        .initialPunctuation, .finalPunctuation, .otherPunctuation]),
    ("sm", "mathsymbol", [.mathSymbol]),
    ("sc", "currencysymbol", [.currencySymbol]),
    ("sk", "modifiersymbol", [.modifierSymbol]),
    ("so", "othersymbol", [.otherSymbol]),
    ("s", "symbol", [.mathSymbol, .currencySymbol, .modifierSymbol, .otherSymbol]),
    ("zs", "spaceseparator", [.spaceSeparator]),
    ("zl", "lineseparator", [.lineSeparator]),
    ("zp", "paragraphseparator", [.paragraphSeparator]),
    ("z", "separator", [.spaceSeparator, .lineSeparator, .paragraphSeparator]),
    ("cc", "control", [.control]),
    ("cf", "format", [.format]),
    ("co", "privateuse", [.privateUse]),
    ("cn", "unassigned", [.unassigned]),
    ("c", "other", [.control, .format, .privateUse, .unassigned])]

def categorySet (categories : List Unicode.Category) : CharSet :=
  .unions (categories.map .category)

/-- The set that a general category names. -/
def categoryClass? (name : List Char) : Option CharSet :=
  (categoryNames.find? fun (short, long, _) => short.toList == name || long.toList == name).map
    fun (_, _, categories) => categorySet categories

/-- The set that a general category names; some names are given to sets that are none. -/
def generalCategoryClass? (name : List Char) : Option CharSet :=
  match String.ofList name with
  | "any" => some .all
  | "ascii" => some .ascii
  | "assigned" => some (.compl (.category .unassigned))
  | "digit" => categoryClass? "nd".toList
  | "punct" => categoryClass? "p".toList
  | "cntrl" => categoryClass? "cc".toList
  | "combiningmark" => categoryClass? "m".toList
  | _ => categoryClass? name

def scriptClass? (name : List Char) : Option CharSet :=
  (Unicode.Script.ofName? (String.ofList name)).map .script

/-- The set that the name in `\p{name}` stands for: a property, a general category or a script. -/
def unicodeClass? (name : List Char) : Option CharSet :=
  let name := normalizeName name
  (Unicode.Property.ofName? (String.ofList name)).map .property <|>
    generalCategoryClass? name <|> scriptClass? name

/-- The set that the property and value in `\p{property=value}` stand for. -/
def propertyClass? (property value : List Char) : Option CharSet :=
  match String.ofList (normalizeName property) with
  | "gc" | "generalcategory" => generalCategoryClass? (normalizeName value)
  | "sc" | "script" => scriptClass? (normalizeName value)
  | _ => none

/-- The set that the name in `[:name:]` stands for. -/
def asciiClass? (name : List Char) : Option CharSet :=
  let lower := CharSet.range 'a' 'z'
  let upper := CharSet.range 'A' 'Z'
  let decimal := CharSet.range '0' '9'
  match String.ofList name with
  | "alnum" => some (.unions [decimal, upper, lower])
  | "alpha" => some (.unions [upper, lower])
  | "ascii" => some .ascii
  | "blank" => some (.ofList ['\t', ' '])
  | "cntrl" => some (.unions [.range (Char.ofNat 0) (Char.ofNat 31), .single (Char.ofNat 127)])
  | "digit" => some decimal
  | "graph" => some (.range '!' '~')
  | "lower" => some lower
  | "print" => some (.range ' ' '~')
  | "punct" =>
    some (.unions [.range '!' '/', .range ':' '@', .range '[' '\x60', .range '\x7b' '~'])
  | "space" => some (.unions [.range '\t' '\r', .single ' '])
  | "upper" => some upper
  | "word" => some (.unions [decimal, upper, lower, .single '_'])
  | "xdigit" => some (.unions [decimal, .range 'A' 'F', .range 'a' 'f'])
  | _ => none

end Precedence.Regex
