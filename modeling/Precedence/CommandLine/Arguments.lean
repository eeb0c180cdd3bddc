/-!
# Arguments of a command

A command takes switches, options with a value, and at most one operand. Arguments are read from the
left. The value of an option may stand in the same argument or in the next one; then it is checked
only when the argument behind it is known, and an argument that is not known at all is refused
first. Behind two hyphens every argument is an operand.
-/

namespace Precedence.CommandLine

/-- What an argument can give. -/
inductive Parameter where
  /-- The operand. -/
  | expression
  | file
  | config
  | extended
  | scanner
  | strategy
  | format
  | json
  | verbose
  | help
  | version
  deriving DecidableEq

/-- Why no command is carried out. Asking for help or for the version is no mistake. -/
inductive Refusal where
  | unknownArgument
  | invalidValue
  | conflict
  | tooManyValues
  | missingArgument
  | missingCommand
  | invalidCommand
  | nothingGiven
  | helpRequested
  | versionRequested
  deriving DecidableEq

/-- The status that is returned instead of carrying out a command. -/
def Refusal.exitCode : Refusal → Nat
  | helpRequested => 0
  | versionRequested => 0
  | _ => 2

namespace Parameter

/-- The name behind two hyphens. -/
def long? : Parameter → Option String
  | expression => none
  | file => some "file"
  | config => some "config"
  | extended => some "extended"
  | scanner => some "scanner"
  | strategy => some "strategy"
  | format => some "format"
  | json => some "json"
  | verbose => some "verbose"
  | help => some "help"
  | version => some "version"

/-- The letter behind one hyphen. -/
def short? : Parameter → Option Char
  | file => some 'f'
  | verbose => some 'v'
  | help => some 'h'
  | version => some 'V'
  | _ => none

def takesValue : Parameter → Bool
  | file => true
  | config => true
  | scanner => true
  | strategy => true
  | format => true
  | _ => false

/-- Whether a text can be the value: paths are not empty, and the others are words of a list. -/
def admits (p : Parameter) (value : String) : Bool :=
  match p with
  | file => value != ""
  | config => value != ""
  | scanner => ["classifier", "lines"].contains value
  | strategy => ["backtracking", "packrat"].contains value
  | format => ["json", "pretty", "tree"].contains value
  | _ => true

end Parameter

/-- What the arguments have given so far. The last one may wait to be checked, and may still lack
its value. -/
structure Given where
  values : List (Parameter × String) := []
  pending : Option (Parameter × Option String) := none

namespace Given

def has (g : Given) (p : Parameter) : Bool :=
  g.values.any (·.1 == p)

def value? (g : Given) (p : Parameter) : Option String :=
  g.values.lookup p

/-- The given with one more value; nothing can be given twice. -/
def add (g : Given) (p : Parameter) (value : String) : Except Refusal Given :=
  if g.has p then .error .conflict
  else if !p.admits value then .error .invalidValue
  else .ok { g with values := g.values ++ [(p, value)] }

/-- The given with what waits checked. -/
def settle (g : Given) : Except Refusal Given :=
  match g.pending with
  | none => .ok g
  | some (_, none) => .error .invalidValue
  | some (p, some value) => { g with pending := none }.add p value

/-- The option that lacks its value. -/
def awaiting? (g : Given) : Option Parameter :=
  match g.pending with
  | some (p, none) => some p
  | _ => none

def switch (g : Given) (p : Parameter) : Except Refusal Given := do
  let g ← g.settle
  match p with
  | .help => throw .helpRequested
  | .version => throw .versionRequested
  | p => g.add p ""

/-- An option, with its value or in front of it. -/
def option (g : Given) (p : Parameter) (value? : Option String) : Except Refusal Given := do
  let g ← g.settle
  match value? with
  | some value => g.add p value
  | none => return { g with pending := some (p, none) }

/-- An operand, if the command takes one and has none yet. -/
def operand (parameters : List Parameter) (g : Given) (arg : String) : Except Refusal Given := do
  if !parameters.contains .expression || g.has .expression ||
      g.pending.any (·.1 == .expression) then
    throw .unknownArgument
  let g ← g.settle
  return { g with pending := some (.expression, some arg) }

/-- Splits at the first equals sign. -/
def splitValue (text : List Char) : List Char × Option String :=
  match text.span (· != '=') with
  | (name, _ :: value) => (name, some (String.ofList value))
  | (name, []) => (name, none)

/-- An argument behind two hyphens. -/
def long (parameters : List Parameter) (g : Given) (text : List Char) : Except Refusal Given :=
  let (name, value?) := splitValue text
  match parameters.find? (·.long? == some (String.ofList name)) with
  | none => .error .unknownArgument
  | some p =>
    if p.takesValue then g.option p value?
    else if value?.isSome then .error .tooManyValues
    else g.switch p

/-- Letters behind one hyphen. What follows the letter of an option is its value. -/
def short (parameters : List Parameter) (g : Given) : List Char → Except Refusal Given
  | [] => .ok g
  | c :: rest =>
    match parameters.find? (·.short? == some c) with
    | none => .error .unknownArgument
    | some p =>
      if p.takesValue then
        g.option p <|
          match rest with
          | [] => none
          | '=' :: value => some (String.ofList value)
          | value => some (String.ofList value)
      else do (← g.switch p).short parameters rest

/-- An argument in front of two hyphens that stand alone. -/
def argument (parameters : List Parameter) (g : Given) (arg : String) : Except Refusal Given :=
  match arg.toList with
  | '-' :: '-' :: name => g.long parameters name
  | '-' :: c :: letters => g.short parameters (c :: letters)
  | _ =>
    match g.awaiting? with
    | some p => .ok { g with pending := some (p, some arg) }
    | none => g.operand parameters arg

/-- All arguments of a command. -/
def arguments (parameters : List Parameter) (g : Given) : List String → Except Refusal Given
  | [] => g.settle
  | "--" :: operands => do (← operands.foldlM (operand parameters) g).settle
  | arg :: rest => do (← g.argument parameters arg).arguments parameters rest

end Given

end Precedence.CommandLine
