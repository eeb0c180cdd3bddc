import Precedence.Grammar.Options
import Precedence.Json.Read

/-!
# Options as data

Options are written as a record of five fields, of which any may be missing; a missing one is as in
the standard options. No field may be given twice, and there are no others. What counts as a list,
a word or a truth value depends on the data format.
-/

namespace Precedence

/-- How the values of a data format are understood. -/
structure ValueFormat (α : Type) where
  items? : α → Option (List α)
  word? : α → Option String
  bool? : α → Option Bool

namespace GrammarOptions

def fieldNames : List String :=
  ["precedence", "unary_operators", "regex_literals", "assignments", "strategy"]

variable {α : Type} (format : ValueFormat α)

/-- A list of operators. -/
def operators? {β : Type} (ofSymbol? : String → Option β) (value : α) : Option (List β) := do
  (← format.items? value).mapM fun item => (format.word? item).bind ofSymbol?

/-- The options with one field as given. -/
def setField (options : GrammarOptions) (name : String) (value : α) : Option GrammarOptions :=
  match name with
  | "precedence" => do
    let levels ← format.items? value
    let precedence ← levels.mapM (operators? format BinaryOperator.ofSymbol?)
    return { options with precedence }
  | "unary_operators" => do
    return { options with unaryOperators := ← operators? format UnaryOperator.ofSymbol? value }
  | "regex_literals" => do
    return { options with regexLiterals := ← format.bool? value }
  | "assignments" => do
    return { options with assignments := ← format.bool? value }
  | "strategy" => do
    return { options with strategy := ← (format.word? value).bind Strategy.ofLabel? }
  | _ => none

/-- The options with all fields as given, none of them twice. -/
def setFields (options : GrammarOptions) : List (String × α) → Option GrammarOptions
  | [] => some options
  | (name, value) :: fields => do
    if fields.any fun field => field.1 == name then none
    else setFields (← setField format options name value) fields

/-- A single word, alone or as the name of a field that is null. -/
def jsonWord? : Json → Option String
  | .string word => some word
  | .object [(word, .null)] => some word
  | _ => none

def jsonFormat : ValueFormat Json :=
  ⟨Json.items?, jsonWord?, Json.bool?⟩

/-- Options as an object, or as a list of the first few fields in their order. -/
def ofJson? : Json → Option GrammarOptions
  | .object fields => setFields jsonFormat standard fields
  | .array items =>
    if items.length ≤ fieldNames.length then
      setFields jsonFormat standard (fieldNames.zip items)
    else none
  | _ => none

def toJson (options : GrammarOptions) : Json :=
  .object
    [("precedence",
        .array (options.precedence.map fun level => .array (level.map (.string ·.symbol)))),
      ("unary_operators", .array (options.unaryOperators.map (.string ·.symbol))),
      ("regex_literals", .bool options.regexLiterals),
      ("assignments", .bool options.assignments),
      ("strategy", .string options.strategy.label)]

/-- Options of a JSON text, without faults. -/
def readJson (text : String) : Except Failure GrammarOptions :=
  match (Json.parse? text).bind ofJson? with
  | some options => options.validate
  | none => .error (.options "invalid JSON grammar options" true)

end GrammarOptions

end Precedence
