import Precedence.Regex.Basic
import Precedence.Regex.Classes
import Precedence.Number.Decimal

/-!
# Reading patterns

`Pattern.read` reads the text of a pattern: alternatives, repetitions, groups, classes, assertions,
escapes and flags. It refuses a text that is not a pattern, look-around and back-references
included.
-/

namespace Precedence.Regex

open Text

/-- The flags in force at a place of a pattern. -/
structure Flags where
  ignoreCase : Bool := false
  multiLine : Bool := false
  dotAll : Bool := false
  swapGreed : Bool := false
  unicode : Bool := true
  crlf : Bool := false
  ignoreSpace : Bool := false

/-- The text of a pattern that is left to read, the number of groups opened so far and the names
given to some of them. -/
structure Source where
  rest : List Char
  groups : Nat
  names : List (List Char)

/-- Reads from a source, or refuses. -/
abbrev Reader (α : Type) := StateT Source Option α

namespace Reader

def refuse {α : Type} : Reader α :=
  failure

def rest : Reader (List Char) :=
  return (← get).rest

def setRest (cs : List Char) : Reader Unit :=
  modify fun s => { s with rest := cs }

/-- The next character, which has to be there. -/
def next : Reader Char := do
  match ← rest with
  | c :: cs => setRest cs; return c
  | [] => refuse

def peek : Reader (Option Char) :=
  return (← rest).head?

/-- Reads the given character if it comes next. -/
def accept (c : Char) : Reader Bool := do
  match ← rest with
  | d :: cs => if c = d then setRest cs; return true else return false
  | [] => return false

def demand (c : Char) : Reader Unit := do
  if ← accept c then return () else refuse

/-- The characters up to the first one without the property. -/
def takeWhile (p : Char → Bool) : Reader (List Char) := do
  let cs ← rest
  setRest (cs.dropWhile p)
  return cs.takeWhile p

/-- The characters in front of the given one, which is read too. -/
def takeUntil (c : Char) : Reader (List Char) := do
  let cs ← takeWhile (· != c)
  demand c
  return cs

/-- White space and comments at the beginning of a text. -/
def dropSpace : Nat → List Char → List Char
  | 0, cs => cs
  | n + 1, cs =>
    match cs.dropWhile Unicode.isSpace with
    | '#' :: comment => dropSpace n (comment.dropWhile (· != '\n'))
    | cs => cs

/-- Skips white space and comments where the flags say that they mean nothing. -/
def skipSpace (flags : Flags) : Reader Unit := do
  if flags.ignoreSpace then
    let cs ← rest
    setRest (dropSpace cs.length cs)

end Reader

open Reader

/-- A set without regard to case, if the flags say so. Unless they admit all characters, only ASCII
characters equal others up to case. -/
def foldSet (flags : Flags) (set : CharSet) : CharSet :=
  if !flags.ignoreCase then set
  else if flags.unicode then .foldCase set
  else .union set (.inter .ascii (.foldCase (.inter set .ascii)))

/-- A set as the flags want it: without regard to case if they say so, and then complemented. -/
def finishSet (flags : Flags) (negated : Bool) (set : CharSet) : Reader CharSet := do
  let set := foldSet flags set
  if negated then
    if flags.unicode then return .compl set else refuse
  else return set

/-- The sets of `\w`, `\d` and `\s`. -/
def perlClass (flags : Flags) (kind : Char) : Reader CharSet :=
  if flags.unicode then
    match kind with
    | 'w' => return .word
    | 'd' => return .digit
    | _ => return .space
  else
    match kind with
    | 'w' => return .unions [.range '0' '9', .range 'A' 'Z', .range 'a' 'z', .single '_']
    | 'd' => return .range '0' '9'
    | _ => return .unions [.range '\t' '\r', .single ' ']

def isAsciiWord (c : Char) : Bool :=
  c.isAlphanum || c == '_'

/-- What an escape or a character of a class stands for. -/
inductive Element where
  | literal (c : Char)
  | set (s : CharSet)
  | assertion (a : Assertion)

/-- The character of a code point, unless it is a surrogate or too large. -/
def scalar (code : Nat) : Reader Element :=
  if h : code.isValidChar then return .literal (Char.ofNatAux code h) else refuse

/-- Hexadecimal digits: in braces, or as many as given. Two digits stand for a byte where the flags
do not admit all characters, and a byte alone is a character only in ASCII. -/
def hexEscape (flags : Flags) (width : Nat) : Reader Element := do
  let braced ← accept '\x7b'
  let digits ←
    if braced then takeUntil '\x7d'
    else
      let cs ← rest
      setRest (cs.drop width)
      if cs.length < width then refuse else pure (cs.take width)
  if digits.isEmpty then refuse
  else
    match Number.hexDigitsValue? digits with
    | some code =>
      if !flags.unicode && !braced && width = 2 && code ≥ 128 then refuse else scalar code
    | none => refuse

/-- Splits at the first place where the mark stands. -/
def splitAtMark? (mark : List Char) : List Char → Option (List Char × List Char)
  | [] => none
  | c :: cs =>
    if mark.isPrefixOf (c :: cs) then some ([], (c :: cs).drop mark.length)
    else (splitAtMark? mark cs).map fun (front, back) => (c :: front, back)

/-- What the name in braces after `\p` stands for, and whether it is complemented. -/
def namedClass? (name : List Char) : Option (Bool × CharSet) :=
  match splitAtMark? ['!', '='] name with
  | some (property, value) => (propertyClass? property value).map fun set => (true, set)
  | none =>
    let set? := match splitAtMark? [':'] name <|> splitAtMark? ['='] name with
      | some (property, value) => propertyClass? property value
      | none => unicodeClass? name
    set?.map fun set => (false, set)

/-- A class after `\p`: one letter, or a name in braces. -/
def unicodeEscape (flags : Flags) (negated : Bool) : Reader Element := do
  if !flags.unicode then refuse
  else
    let name ← if ← accept '\x7b' then takeUntil '\x7d' else pure [← next]
    match namedClass? name with
    | some (complemented, set) => return .set (← finishSet flags (negated != complemented) set)
    | none => refuse

/-- The boundary after `\b`: a plain one, or the kind named in braces. -/
def boundaryEscape (isWord : Char → Bool) : Reader Element := do
  match ← rest with
  | '\x7b' :: cs =>
    let name := cs.takeWhile (· != '\x7d')
    if name.isEmpty || !name.all (fun c => c.isAlpha || c == '-') then
      return .assertion (.wordBoundary isWord)
    else
      setRest cs
      let name ← takeUntil '\x7d'
      match String.ofList name with
      | "start" => return .assertion (.wordStart isWord)
      | "end" => return .assertion (.wordEnd isWord)
      | "start-half" => return .assertion (.wordStartHalf isWord)
      | "end-half" => return .assertion (.wordEndHalf isWord)
      | _ => refuse
  | _ => return .assertion (.wordBoundary isWord)

/-- What follows a backslash. -/
def escape (flags : Flags) : Reader Element := do
  let isWord := if flags.unicode then Unicode.isWord else isAsciiWord
  let c ← next
  match c with
  | 'w' | 'd' | 's' => return .set (← perlClass flags c)
  | 'W' | 'D' | 'S' =>
    let set ← perlClass flags c.toLower
    if flags.unicode then return .set (.compl set) else refuse
  | 'x' => hexEscape flags 2
  | 'u' => hexEscape flags 4
  | 'U' => hexEscape flags 8
  | 'p' => unicodeEscape flags false
  | 'P' => unicodeEscape flags true
  | 'a' => return .literal '\x07'
  | 'f' => return .literal '\x0c'
  | 't' => return .literal '\t'
  | 'n' => return .literal '\n'
  | 'r' => return .literal '\r'
  | 'v' => return .literal '\x0b'
  | 'A' => return .assertion .textStart
  | 'z' => return .assertion .textEnd
  | 'b' => boundaryEscape isWord
  | 'B' => return .assertion (.notWordBoundary isWord)
  | '<' => return .assertion (.wordStart isWord)
  | '>' => return .assertion (.wordEnd isWord)
  | c => if c.toNat < 128 && !c.isAlphanum then return .literal c else refuse

/-- The set of one literal character. -/
def literalSet (flags : Flags) (c : Char) : CharSet :=
  foldSet flags (.single c)

/-- One member of a class: an escape, or a character as it is. -/
def classElement (flags : Flags) : Reader Element := do
  let c ← next
  let element ← if c = '\\' then escape flags else pure (.literal c)
  match element with
  | .literal c => if !flags.unicode && c.toNat ≥ 128 then refuse else return element
  | _ => return element

/-- A member of a class or a range of characters. -/
def classItem (flags : Flags) : Reader CharSet := do
  let first ← classElement flags
  skipSpace flags
  let cs ← rest
  let isRange := match cs with
    | '-' :: after =>
      let after := if flags.ignoreSpace then dropSpace after.length after else after
      after.head? != some ']' && after.head? != some '-'
    | _ => false
  if cs.isEmpty then refuse
  else if isRange then
    setRest cs.tail
    skipSpace flags
    let last ← classElement flags
    match first, last with
    | .literal first, .literal last => if first ≤ last then return .range first last else refuse
    | _, _ => refuse
  else
    match first with
    | .literal c => return .single c
    | .set s => return s
    | .assertion _ => refuse

/-- The class of ASCII characters that begins behind a bracket, such as `:alpha:]`, if there is one,
and whether it is to be complemented. -/
def asciiClassAt : List Char → Option (Bool × CharSet × List Char)
  | ':' :: cs =>
    let (negated, cs) := match cs with
      | '^' :: cs => (true, cs)
      | cs => (false, cs)
    let name := cs.takeWhile (· != ':')
    match cs.dropWhile (· != ':') with
    | ':' :: ']' :: rest =>
      (asciiClass? name).map fun set => (negated, set, rest)
    | _ => none
  | _ => none

/-- The operators between the operands of a class. -/
inductive SetOperator where
  | inter
  | diff
  | symmDiff

def SetOperator.apply : SetOperator → CharSet → CharSet → CharSet
  | inter => CharSet.inter
  | diff => CharSet.diff
  | symmDiff => CharSet.symmDiff

def setOperatorAt : List Char → Option (SetOperator × List Char)
  | '&' :: '&' :: rest => some (.inter, rest)
  | '-' :: '-' :: rest => some (.diff, rest)
  | '~' :: '~' :: rest => some (.symmDiff, rest)
  | _ => none

/-- What stands in front of an operand of a class: the operands so far and the operator. -/
abbrev Pending := Option (CharSet × SetOperator)

def Pending.combine (flags : Flags) (pending : Pending) (set : CharSet) : CharSet :=
  match pending with
  | none => set
  | some (left, op) =>
    op.apply (foldSet flags left) (foldSet flags set)

mutual

/-- A class behind its opening bracket. -/
def classBody : Nat → Flags → Reader CharSet
  | 0, _ => refuse
  | fuel + 1, flags => do
    skipSpace flags
    let negated ← accept '^'
    skipSpace flags
    let hyphens ← takeWhile (· == '-')
    skipSpace flags
    let bracket ← if hyphens.isEmpty then accept ']' else pure false
    let items := (if hyphens.isEmpty then [] else [CharSet.single '-']) ++
      (if bracket then [CharSet.single ']'] else [])
    finishSet flags negated (← classRest fuel flags none (.unions items))

/-- The rest of a class, given what stands in front of the operand that is being read and what of
the operand has been read. -/
def classRest : Nat → Flags → Pending → CharSet → Reader CharSet
  | 0, _, _, _ => refuse
  | fuel + 1, flags, pending, operand => do
    skipSpace flags
    let cs ← rest
    match setOperatorAt cs with
    | some (op, after) =>
      setRest after
      classRest fuel flags (some (pending.combine flags operand, op)) .empty
    | none =>
      match cs with
      | ']' :: after =>
        setRest after
        return pending.combine flags operand
      | '[' :: after =>
        match asciiClassAt after with
        | some (negated, set, after) =>
          setRest after
          let set ← finishSet flags negated set
          classRest fuel flags pending (.union operand set)
        | none =>
          setRest after
          let set ← classBody fuel flags
          classRest fuel flags pending (.union operand set)
      | _ =>
        let set ← classItem flags
        classRest fuel flags pending (.union operand set)

end

/-- The flags that stand behind `(?`, up to a colon or a closing parenthesis. -/
def readFlags (flags : Flags) (negated : Bool) (seen : List Char) : List Char →
    Option (Flags × List Char × Bool)
  | ')' :: rest =>
    if seen.head? == some '-' || seen.isEmpty then none else some (flags, rest, false)
  | ':' :: rest => if seen.head? == some '-' then none else some (flags, rest, true)
  | c :: rest =>
    if seen.contains c then none
    else
      let on := !negated
      match c with
      | '-' => readFlags flags true ('-' :: seen) rest
      | 'i' => readFlags { flags with ignoreCase := on } negated (c :: seen) rest
      | 'm' => readFlags { flags with multiLine := on } negated (c :: seen) rest
      | 's' => readFlags { flags with dotAll := on } negated (c :: seen) rest
      | 'U' => readFlags { flags with swapGreed := on } negated (c :: seen) rest
      | 'u' => readFlags { flags with unicode := on } negated (c :: seen) rest
      | 'R' => readFlags { flags with crlf := on } negated (c :: seen) rest
      | 'x' => readFlags { flags with ignoreSpace := on } negated (c :: seen) rest
      | _ => none
  | [] => none

/-- Opens a group with a number of its own. -/
def openGroup : Reader Nat := do
  let s ← get
  set { s with groups := s.groups + 1 }
  return s.groups + 1

def isNameStart (c : Char) : Bool :=
  c == '_' || Unicode.isLetter c || Unicode.Category.letterNumber.contains c

/-- The name of a group, which no other group may have. -/
def groupName : Reader Unit := do
  let name ← takeUntil '>'
  let s ← get
  match name with
  | c :: cs =>
    if isNameStart c && cs.all (fun c => isNameStart c || Unicode.isDigit c ||
        Unicode.Category.otherNumber.contains c || c == '.' || c == '[' || c == ']') &&
        !s.names.contains name then
      set { s with names := name :: s.names }
    else refuse
  | [] => refuse

/-- The bounds of a counted repetition behind its opening brace. -/
def countBounds (flags : Flags) : Reader (Nat × Option Nat) := do
  let number : Reader (Option Nat) := do
    let _ ← takeWhile Unicode.isSpace
    let digits ← takeWhile Number.isDigit
    let _ ← takeWhile Unicode.isSpace
    if digits.isEmpty then return none
    else
      let value := Number.digitsValue digits
      if value < Number.twoTo 32 then return some value else refuse
  skipSpace flags
  match ← number with
  | none => refuse
  | some least =>
    if ← accept ',' then
      skipSpace flags
      if ← accept '\x7d' then return (least, none)
      else
        match ← number with
        | none => refuse
        | some most =>
          demand '\x7d'
          if least ≤ most then return (least, some most) else refuse
    else
      demand '\x7d'
      return (least, some least)

/-- The repetitions that follow an expression. -/
def repetitions : Nat → Flags → Regex → Reader Regex
  | 0, _, _ => refuse
  | fuel + 1, flags, r => do
    skipSpace flags
    let bounds ← match ← peek with
      | some '?' => let _ ← next; pure (some (0, some 1))
      | some '*' => let _ ← next; pure (some (0, none))
      | some '+' => let _ ← next; pure (some (1, none))
      | some '\x7b' =>
        let _ ← next
        let bounds ← countBounds flags
        skipSpace flags
        pure (some bounds)
      | _ => pure none
    match bounds with
    | none => return r
    | some (least, most) =>
      let lazy ← accept '?'
      repetitions fuel flags (.repeated (lazy == flags.swapGreed) least most r)

/-- The expression of an element that stands alone. -/
def elementRegex (flags : Flags) : Element → Reader Regex
  | .literal c => return .char (literalSet flags c)
  | .set s => return .char s
  | .assertion a => return .assertion a

/-- The dot, which leaves out line ends unless told otherwise. -/
def dotSet (flags : Flags) : Reader CharSet :=
  if !flags.unicode then refuse
  else if flags.dotAll then return .all
  else if flags.crlf then return .compl (.ofList ['\r', '\n'])
  else return .compl (.single '\n')

def startAssertion (flags : Flags) : Assertion :=
  if !flags.multiLine then .textStart else if flags.crlf then .anyLineStart else .lineStart

def endAssertion (flags : Flags) : Assertion :=
  if !flags.multiLine then .textEnd else if flags.crlf then .anyLineEnd else .lineEnd

mutual

/-- Alternatives up to the end of the text or of the group. -/
def alternatives : Nat → Flags → Reader Regex
  | 0, _ => refuse
  | fuel + 1, flags => do
    let (branch, flags) ← sequence fuel flags
    if ← accept '|' then return .alt branch (← alternatives fuel flags) else return branch

/-- One alternative, with the flags in force behind it. -/
def sequence : Nat → Flags → Reader (Regex × Flags)
  | 0, _ => refuse
  | fuel + 1, flags => do
    skipSpace flags
    match ← rest with
    | [] => return (.empty, flags)
    | '|' :: _ => return (.empty, flags)
    | ')' :: _ => return (.empty, flags)
    | '(' :: '?' :: cs =>
      match readFlags flags false [] cs with
      | some (flags, after, false) =>
        setRest after
        skipSpace flags
        match ← peek with
        | some '?' | some '*' | some '+' | some '\x7b' => refuse
        | _ => sequence fuel flags
      | _ => sequenceItem fuel flags
    | _ => sequenceItem fuel flags

/-- A repeated expression and what follows it. -/
def sequenceItem : Nat → Flags → Reader (Regex × Flags)
  | 0, _ => refuse
  | fuel + 1, flags => do
    let r ← atom fuel flags
    let cs ← rest
    let r ← repetitions (cs.length + 1) flags r
    let (others, flags) ← sequence fuel flags
    return (.seq r others, flags)

/-- A group, a class, an escape, or a single character. -/
def atom : Nat → Flags → Reader Regex
  | 0, _ => refuse
  | fuel + 1, flags => do
    let c ← next
    match c with
    | '(' =>
      if ← accept '?' then
        let cs ← rest
        match cs with
        | 'P' :: '<' :: cs =>
          setRest cs
          namedGroup fuel flags
        | '<' :: cs =>
          setRest cs
          namedGroup fuel flags
        | _ =>
          match readFlags flags false [] cs with
          | some (inner, after, true) =>
            setRest after
            let r ← alternatives fuel inner
            demand ')'
            return r
          | _ => refuse
      else
        let index ← openGroup
        let r ← alternatives fuel flags
        demand ')'
        return .group index r
    | '[' => return .char (← classBody fuel flags)
    | '\\' => elementRegex flags (← escape flags)
    | '.' => return .char (← dotSet flags)
    | '^' => return .assertion (startAssertion flags)
    | '$' => return .assertion (endAssertion flags)
    | '*' | '+' | '?' | '\x7b' => refuse
    | c => return .char (literalSet flags c)

/-- A group behind the bracket in front of its name. -/
def namedGroup : Nat → Flags → Reader Regex
  | 0, _ => refuse
  | fuel + 1, flags => do
    let index ← openGroup
    groupName
    let r ← alternatives fuel flags
    demand ')'
    return .group index r

end

end Precedence.Regex

namespace Precedence.Pattern

/-- Reads the whole text of a pattern. Every step of the reader either reads a character or opens
one of at most four nested steps, which bounds their number. -/
def read (text : List Char) : Option Pattern := do
  let (body, source) ← (Regex.alternatives (5 * text.length + 5) {}).run ⟨text, 0, []⟩
  if source.rest.isEmpty then some ⟨body, source.groups⟩ else none

end Precedence.Pattern
