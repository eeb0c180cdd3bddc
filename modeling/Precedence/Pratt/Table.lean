import Precedence.Pratt.Symbol

/-!
# Tables of the Pratt parser

A table says what a symbol does at the beginning of an expression, and how tightly it binds two
operands. A symbol has at most one role of each sort; giving it another tells which one it had.
-/

namespace Precedence.Pratt

/-- What a symbol does at the beginning of an expression. -/
inductive Opening where
  | name
  /-- A number or a text. -/
  | literal
  /-- An operator in front of its operand. -/
  | operator
  /-- Opens a group that the other symbol closes. -/
  | group (closing : Symbol)
  deriving DecidableEq

/-- How a symbol binds the operand in front to the one behind. -/
structure Joining where
  precedence : Nat
  rightAssociative : Bool := false
  deriving DecidableEq

/-- The precedence that operators in the right operand must exceed. -/
def Joining.operandPrecedence (j : Joining) : Nat :=
  if j.rightAssociative then j.precedence - 1 else j.precedence

/-- The precedence that operators in the operand of an operator in front must exceed. -/
def frontPrecedence : Nat := 6

structure Table where
  opening? : Symbol → Option Opening
  joining? : Symbol → Option Joining

namespace Table

def empty : Table :=
  ⟨fun _ => none, fun _ => none⟩

/-- Gives a symbol a role at the beginning of expressions; also tells the role it had. -/
def setOpening (table : Table) (symbol : Symbol) (role : Opening) : Option Opening × Table :=
  (table.opening? symbol,
    { table with opening? := fun s => if s = symbol then some role else table.opening? s })

/-- Gives a symbol a role between operands; also tells the role it had. -/
def setJoining (table : Table) (symbol : Symbol) (role : Joining) : Option Joining × Table :=
  (table.joining? symbol,
    { table with joining? := fun s => if s = symbol then some role else table.joining? s })

/-- Names, literals, four operators in front of an operand, two kinds of groups, sums and
products. -/
def standard : Table where
  opening?
    | .name => some .name
    | .number => some .literal
    | .string => some .literal
    | .plus => some .operator
    | .minus => some .operator
    | .tilde => some .operator
    | .bang => some .operator
    | .leftParen => some (.group .rightParen)
    | .leftCurly => some (.group .rightCurly)
    | _ => none
  joining?
    | .plus => some { precedence := 3 }
    | .minus => some { precedence := 3 }
    | .star => some { precedence := 4 }
    | .slash => some { precedence := 4 }
    | _ => none

end Table

end Precedence.Pratt
