import Precedence.CommandLine.Arguments
import Precedence.Expr.Encode
import Precedence.Expr.Printer
import Precedence.Grammar.Options.Yaml
import Precedence.Grammar.Parse
import Precedence.Json.Write
import Precedence.Pratt.Parse
import Precedence.Token.Listing

/-!
# Commands

There are three: listing the tokens of an expression, parsing it with a grammar, and parsing it with
the Pratt parser. `Command.ofArguments` finds out which one is asked for, `Command.execute` gives
its output, or the failure that it ends in.
-/

namespace Precedence.CommandLine

/-- An expression, given as such or as the file that holds it. -/
inductive Input where
  | text (text : String)
  | file (path : String)
  deriving DecidableEq

/-- Which options a grammar has: those of a file, the extended ones or the standard ones. -/
inductive OptionsChoice where
  | standard
  | extended
  | file (path : String)
  deriving DecidableEq

inductive Scanner where
  | classifier
  | lines
  deriving DecidableEq

inductive OutputFormat where
  | json
  | pretty
  | tree
  deriving DecidableEq

inductive Command where
  | tokens (input : Input) (scanner : Scanner) (choice : OptionsChoice)
  | parse (input : Input) (choice : OptionsChoice) (strategy : Option Strategy)
      (format : OutputFormat)
  | pratt (input : Input) (json : Bool)
  deriving DecidableEq

/-! ### Commands of arguments -/

namespace Given

/-- The input must be given in just one way. -/
def input (g : Given) : Except Refusal Input :=
  match g.value? .expression, g.value? .file with
  | some _, some _ => .error .conflict
  | some text, none => .ok (.text text)
  | none, some path => .ok (.file path)
  | none, none => .error .missingArgument

def choice (g : Given) : Except Refusal OptionsChoice :=
  match g.value? .config, g.has .extended with
  | some _, true => .error .conflict
  | some path, false => .ok (.file path)
  | none, true => .ok .extended
  | none, false => .ok .standard

end Given

namespace Command

def inputParameters : List Parameter :=
  [.expression, .file, .verbose, .help]

def grammarParameters : List Parameter :=
  [.config, .extended]

def ofTokensArguments (args : List String) : Except Refusal Command := do
  let g ← Given.arguments (inputParameters ++ grammarParameters ++ [.scanner]) {} args
  let choice ← g.choice
  let scanner := if g.value? .scanner = some "lines" then Scanner.lines else .classifier
  return .tokens (← g.input) scanner choice

def ofParseArguments (args : List String) : Except Refusal Command := do
  let g ← Given.arguments (inputParameters ++ grammarParameters ++ [.strategy, .format]) {} args
  let choice ← g.choice
  let format := match g.value? .format with
    | some "json" => OutputFormat.json
    | some "tree" => .tree
    | _ => .pretty
  return .parse (← g.input) choice ((g.value? .strategy).bind Strategy.ofLabel?) format

def ofPrattArguments (args : List String) : Except Refusal Command := do
  let g ← Given.arguments (inputParameters ++ [.json]) {} args
  return .pratt (← g.input) (g.has .json)

/-- The names of the commands, and the one that asks for help about them. -/
def names : List String :=
  ["tokens", "parse", "pratt", "help"]

/-- Help is about all commands or one of them. -/
def ofHelpArguments : List String → Refusal
  | [] => .helpRequested
  | [name] => if names.contains name then .helpRequested else .invalidCommand
  | _ => .invalidCommand

/-- What an operand is refused as where a command should stand but two hyphens came before. -/
def refuseOperand : List String → Given → Refusal
  | [], g => if g.values.isEmpty then .nothingGiven else .missingCommand
  | arg :: _, _ => if names.contains arg then .unknownArgument else .invalidCommand

/-- Reads arguments up to the name of a command, and the arguments of that command. -/
def ofArgumentsAfter (g : Given) : List String → Except Refusal Command
  | [] => .error (refuseOperand [] g)
  | "tokens" :: args => ofTokensArguments args
  | "parse" :: args => ofParseArguments args
  | "pratt" :: args => ofPrattArguments args
  | "help" :: args => .error (ofHelpArguments args)
  | "--" :: args => .error (refuseOperand args g)
  | arg :: args =>
    match arg.toList with
    | '-' :: _ :: _ => do
      ofArgumentsAfter (← g.argument [.verbose, .help, .version] arg) args
    | _ => .error .invalidCommand

def ofArguments (args : List String) : Except Refusal Command :=
  ofArgumentsAfter {} args

/-! ### Carrying out commands -/

/-- What is known of files: their texts, as far as they can be read as texts. -/
abbrev Files := String → Option String

/-- The files that a command reads. -/
def paths : Command → List String
  | tokens input _ choice => ofInput input ++ ofChoice choice
  | parse input choice _ _ => ofInput input ++ ofChoice choice
  | pratt input _ => ofInput input
where
  ofInput : Input → List String
    | .text _ => []
    | .file path => [path]
  ofChoice : OptionsChoice → List String
    | .file path => [path]
    | _ => []

def readFile (files : Files) (path : String) : Except Failure String :=
  match files path with
  | some text => .ok text
  | none => .error (.unreadable path)

/-- The name under which failures show the input, and its text. -/
def readInput (files : Files) : Input → Except Failure Source
  | .text text => .ok ⟨"<expr>", text⟩
  | .file path => do return ⟨path, ← readFile files path⟩

/-- The last part of a path, without trailing slashes. -/
def fileName (path : List Char) : List Char :=
  ((path.reverse.dropWhile (· == '/')).takeWhile (· != '/')).reverse

/-- What follows the last point in the name of a file, unless the name begins with that point. -/
def extension? (path : String) : Option String :=
  let name := (fileName path.toList).reverse
  match name.span (· != '.') with
  | (extension, '.' :: _ :: _) => some (String.ofList extension.reverse)
  | _ => none

/-- A file is JSON if its extension says so in whatever case, and YAML otherwise. -/
def readOptions (files : Files) : OptionsChoice → Except Failure GrammarOptions
  | .standard => .ok .standard
  | .extended => .ok .extended
  | .file path => do
    let text ← readFile files path
    if (extension? path).map (String.map Char.toLower) = some "json" then
      GrammarOptions.readJson text
    else GrammarOptions.readYaml text

/-- Shows a failure in its source. -/
def within {α : Type} (source : Source) : Except Failure α → Except Failure α
  | .ok a => .ok a
  | .error e => .error (e.withSource source)

def scan (files : Files) (text : String) (choice : OptionsChoice) :
    Scanner → Except Failure (List Token)
  | .lines => LineScanner.scan text
  | .classifier => do
    let options ← readOptions files choice
    (← Grammar.ofOptions { options with strategy := .backtracking }).tokenize text

/-- An expression in a format, with a line break at its end. -/
def present (e : Expr) : OutputFormat → String
  | .json => e.toJson.pretty ++ "\n"
  | .pretty => e.print ++ "\n"
  | .tree => e.outline

/-- The output of a command. -/
def execute (files : Files) : Command → Except Failure String
  | tokens input scanner choice => do
    let source ← readInput files input
    return Token.listing false (← within source (scan files source.text choice scanner))
  | parse input choice strategy format => do
    let source ← readInput files input
    let options ← readOptions files choice
    let grammar ← Grammar.ofOptions { options with strategy := strategy.getD options.strategy }
    return present (← within source (grammar.parse source.text)) format
  | pratt input json => do
    let source ← readInput files input
    let term ← within source (Pratt.parse .standard source.text)
    return (if json then term.toJson.pretty else term.print) ++ "\n"

end Command

end Precedence.CommandLine
