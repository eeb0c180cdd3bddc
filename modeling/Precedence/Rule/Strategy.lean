import Precedence.Rule.Graph

/-!
# Strategies of recognition

A grammar is recognized by plain backtracking, or so that the outcomes of its nodes are remembered
and none is computed twice at one place.
-/

namespace Precedence

inductive Strategy where
  | backtracking
  | packrat
  deriving DecidableEq, Inhabited

namespace Strategy

variable {ι V : Type} [BEq ι] [Hashable ι]

/-- The word for a strategy. -/
def label : Strategy → String
  | backtracking => "backtracking"
  | packrat => "packrat"

def ofLabel? (label : String) : Option Strategy :=
  [backtracking, packrat].find? (·.label == label)

/-- A node under a key. -/
def node (strategy : Strategy) (key : ι) (r : Rule ι V) (reduce : Reducer V) : Rule ι V :=
  match strategy with
  | backtracking => .node r reduce
  | packrat => .memoized key (.node r reduce)

/-- The state at the beginning of a parse. -/
def start (strategy : Strategy) (tokens : Array Token) : ParseState ι V :=
  match strategy with
  | backtracking => .ofTokens tokens
  | packrat => .memoizing tokens

end Strategy

end Precedence
