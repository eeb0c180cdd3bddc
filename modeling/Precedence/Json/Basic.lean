import Precedence.Number.Binary64

/-!
# JSON values

Naturals and other numbers are told apart, so that counts and offsets stay exact. Objects keep the
order of their fields.
-/

namespace Precedence

inductive Json where
  | null
  | bool (value : Bool)
  | natural (value : Nat)
  | number (value : Number.Binary64)
  | string (value : String)
  | array (items : List Json)
  | object (fields : List (String × Json))
  deriving Inhabited

namespace Json

/-- The value of the first field of that name. -/
def field? (name : String) : Json → Option Json
  | object fields => fields.lookup name
  | _ => none

def string? : Json → Option String
  | string s => some s
  | _ => none

def bool? : Json → Option Bool
  | bool b => some b
  | _ => none

def natural? : Json → Option Nat
  | natural n => some n
  | _ => none

def items? : Json → Option (List Json)
  | array items => some items
  | _ => none

/-- A value that may be missing; `null` stands for a missing one. -/
def ofOption {α : Type} (encode : α → Json) : Option α → Json
  | some a => encode a
  | none => null

end Json

end Precedence
