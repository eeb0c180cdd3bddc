import Precedence.Token
import Std.Data.HashMap

/-!
# The state of a parse

A parse moves a cursor over its tokens and remembers the furthest failure: how far the cursor stood
and what was expected there. Entering a rule through itself is counted; when the count would pass
`nestingLimit`, that place is remembered and nothing can be entered any more. A state may carry a
table of results that rules had before.
-/

namespace Precedence

/-- How often a parse may enter rules through themselves within one another. -/
def nestingLimit : Nat := 32

/-- The outcome of a rule: its captures and the place behind what it read, or a failure. -/
abbrev Outcome (V : Type) := Option (List V × Nat)

/-- Earlier outcomes, by the key of the rule and the place where it was tried. -/
abbrev MemoTable (ι V : Type) [BEq ι] [Hashable ι] := Std.HashMap (ι × Nat) (Outcome V)

structure ParseState (ι V : Type) [BEq ι] [Hashable ι] where
  tokens : Array Token
  /-- The index of the next token. -/
  position : Nat := 0
  /-- The greatest position at which a failure was recorded. -/
  furthest : Nat := 0
  /-- What was expected there, in the order of the failures. -/
  expected : List String := []
  depth : Nat := 0
  /-- Where entering was first refused. -/
  overflow : Option Nat := none
  memo : Option (MemoTable ι V) := none

namespace ParseState

variable {ι V : Type} [BEq ι] [Hashable ι]

def ofTokens (tokens : Array Token) : ParseState ι V :=
  { tokens }

/-- A state that remembers outcomes. -/
def memoizing (tokens : Array Token) : ParseState ι V :=
  { tokens, memo := some ∅ }

def peek (s : ParseState ι V) : Option Token :=
  s.tokens[s.position]?

def hasNext (s : ParseState ι V) : Bool :=
  s.position < s.tokens.size

def isMemoizing (s : ParseState ι V) : Bool :=
  s.memo.isSome

def restore (s : ParseState ι V) (position : Nat) : ParseState ι V :=
  { s with position }

/-- The next token, and the state behind it. -/
def advance (s : ParseState ι V) : Option Token × ParseState ι V :=
  match s.peek with
  | some token => (some token, s.restore (s.position + 1))
  | none => (none, s)

/-- Notes that `what` was expected at the cursor, unless a failure further on is known. -/
def recordFailure (s : ParseState ι V) (what : String) : ParseState ι V :=
  if s.furthest < s.position then { s with furthest := s.position, expected := [what] }
  else if s.position = s.furthest && !s.expected.contains what then
    { s with expected := s.expected ++ [what] }
  else s

/-- Counts one more level, if none was refused before and the limit admits it. -/
def enterNested (s : ParseState ι V) : Bool × ParseState ι V :=
  if s.overflow.isSome then (false, s)
  else if nestingLimit ≤ s.depth then (false, { s with overflow := some s.position })
  else (true, { s with depth := s.depth + 1 })

def exitNested (s : ParseState ι V) : ParseState ι V :=
  { s with depth := s.depth - 1 }

/-- The remembered outcome at the cursor. -/
def remembered? (s : ParseState ι V) (key : ι) : Option (Outcome V) :=
  s.memo.bind fun table => table[(key, s.position)]?

/-- Remembers an outcome, if the state remembers outcomes. -/
def remember (s : ParseState ι V) (key : ι) (start : Nat) (outcome : Outcome V) :
    ParseState ι V :=
  { s with memo := s.memo.map fun table => table.insert (key, start) outcome }

end ParseState

end Precedence
