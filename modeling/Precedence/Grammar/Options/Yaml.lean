import Precedence.Grammar.Options.Format
import Precedence.Yaml.Node

/-!
# Options in YAML

Nothing stands for an empty list and for no fields. A word is a scalar, or a tag with an exclamation
mark on a null. A truth value is a plain scalar, or a literal block that is tagged as one.
-/

namespace Precedence.GrammarOptions

open Yaml

/-- The texts of null. -/
def isNullText (text : List Char) : Bool :=
  ["", "null", "Null", "NULL", "~"].contains (String.ofList text)

/-- The name that a local tag gives. -/
def tagName? : Option (List Char) → Option (List Char)
  | some ['!'] => some ['!']
  | some ('!' :: name) => some name
  | _ => none

def yamlItems? : Node → Option (List Node)
  | .sequence items => some items
  | .scalar _ .plain [] => some []
  | _ => none

def yamlWord? : Node → Option String
  | .scalar tag style text =>
    match tagName? tag with
    | none => some (String.ofList text)
    | some name =>
      if style = .plain && isNullText text then some (String.ofList name) else none
  | _ => none

def yamlBool? : Node → Option Bool
  | .scalar tag style text =>
    if style = .plain || (style = .literal && tag = some "tag:yaml.org,2002:bool".toList) then
      match String.ofList text with
      | "true" | "True" | "TRUE" => some true
      | "false" | "False" | "FALSE" => some false
      | _ => none
    else none
  | _ => none

def yamlFormat : ValueFormat Node :=
  ⟨yamlItems?, yamlWord?, yamlBool?⟩

/-- The fields of a mapping; their names may be scalars of any kind. -/
def yamlFields? : Node → Option (List (String × Node))
  | .mapping pairs =>
    pairs.mapM fun (key, value) =>
      match key with
      | .scalar _ _ name => some (String.ofList name, value)
      | _ => none
  | .scalar _ .plain [] => some []
  | _ => none

/-- Options of a YAML text, without faults. -/
def readYaml (text : String) : Except Failure GrammarOptions :=
  match ((Node.parse? text).bind yamlFields?).bind (setFields yamlFormat standard) with
  | some options => options.validate
  | none => .error (.options "invalid YAML grammar options" true)

end Precedence.GrammarOptions
