import Precedence.CommandLine.Command

/-!
# The program

Reads the files that a command names, carries the command out and prints what comes of it.
-/

namespace Precedence

open CommandLine

/-- What is said where no command is carried out. -/
def usage : String :=
  "usage: precedence [-v] (tokens | parse | pratt) (EXPR | --file FILE) [OPTIONS]"

/-- The text of a file, none if it cannot be read. -/
def readText (path : String) : IO (Option String) := do
  try
    return some (← IO.FS.readFile path)
  catch _ => return none

def runCommand (command : Command) : IO UInt32 := do
  let texts ← command.paths.mapM fun path => do return (path, ← readText path)
  match command.execute fun path => (texts.lookup path).join with
  | .ok output =>
    IO.print output
    return 0
  | .error failure =>
    IO.eprintln (failure.category.code ++ ": " ++ failure.message)
    return 1

end Precedence

open Precedence.CommandLine in
def main (args : List String) : IO UInt32 := do
  match Command.ofArguments args with
  | .ok command => Precedence.runCommand command
  | .error refusal =>
    if refusal = .versionRequested then IO.println "precedence 0.1.0"
    else if refusal.exitCode = 0 then IO.println Precedence.usage
    else IO.eprintln Precedence.usage
    return UInt32.ofNat refusal.exitCode
