import Precedence.Pratt.Parse

/-!
# Trees with groups

A `Tree` is a term in which each token still has its place, so groups are nodes of their own. Erasing
the groups gives the term (`Tree.erase`). What it takes to be bound as a table says is stated on the
tree alone, without a word on how it is found: each expression in it has a level, and its operators
bind more tightly than that, while what stands behind it does not (`Tree.WellBound`).
-/

namespace Precedence.Pratt

/-- A token and the symbol that it is. -/
abbrev Sign := Token × Symbol

/-- The row has the given tokens, each with the symbol that it is. -/
def Classifies (tokens : List Token) (row : List Sign) : Prop :=
  row.map Prod.fst = tokens ∧ ∀ t ∈ row, Symbol.ofToken t.1 = .ok t.2

inductive Tree where
  | name (t : Sign)
  | literal (t : Sign)
  | prefixed (op : Sign) (operand : Tree)
  | group (opener : Sign) (content : Tree) (closer : Sign)
  | operation (left : Tree) (op : Sign) (right : Tree)

/-- The symbol joins two operands, and more tightly than the level. -/
def Table.Exceeds (table : Table) (level : Nat) (s : Symbol) : Prop :=
  ∃ joining, table.joining? s = some joining ∧ level < joining.precedence

/-- The operators of the standard table bind no more tightly than a product. -/
theorem not_exceeds (s : Symbol) {level : Nat} (h : 4 ≤ level) :
    ¬ Table.standard.Exceeds level s := by
  rintro ⟨joining, hjoining, hlt⟩
  cases s <;> cases hjoining <;> simp at hlt <;> omega

theorem not_exceeds_rightParen (level : Nat) : ¬ Table.standard.Exceeds level .rightParen := by
  rintro ⟨joining, hjoining, -⟩
  cases hjoining

namespace Tree

/-- The tokens of a tree from left to right. -/
def signs : Tree → List Sign
  | name t => [t]
  | literal t => [t]
  | prefixed op operand => op :: operand.signs
  | group opener content closer => opener :: (content.signs ++ [closer])
  | operation left op right => left.signs ++ op :: right.signs

/-- The term that is left without the groups. -/
def erase : Tree → Term
  | name t => .name t.1.text
  | literal t =>
    match t.1.value with
    | .number value => .number value t.1.text
    | .text value => .string value
  | prefixed op operand => .prefixed op.2 operand.erase
  | group _ content _ => content.erase
  | operation left op right => .operation left.erase op.2 right.erase

variable (table : Table)

/-- Each token has the role in the table that it has in the tree. -/
def Registered : Tree → Prop
  | name t => table.opening? t.2 = some .name
  | literal t => table.opening? t.2 = some .literal
  | prefixed op operand => table.opening? op.2 = some .operator ∧ operand.Registered
  | group opener content closer =>
    table.opening? opener.2 = some (.group closer.2) ∧ content.Registered
  | operation left op right =>
    (table.joining? op.2).isSome ∧ left.Registered ∧ right.Registered

/-- The operators that are met on the way down to the left, groups apart. -/
def spine : Tree → List Sign
  | operation left op _ => op :: left.spine
  | _ => []

/-- What is asked of an expression of some level in front of `next`: the operators on its spine
exceed the level, and what stands behind it does not. -/
structure Fits (level : Nat) (next : Option Sign) (tree : Tree) : Prop where
  spine : ∀ op ∈ tree.spine, table.Exceeds level op.2
  stops : ∀ t ∈ next, ¬ table.Exceeds level t.2

/-- In a tree in front of `next`, each expression below the whole one fits its level: that of an
operand is set by its operator, and a group starts again from 0. -/
def Settled : Option Sign → Tree → Prop
  | _, name _ => True
  | _, literal _ => True
  | next, prefixed _ operand =>
    operand.Fits table frontPrecedence next ∧ operand.Settled next
  | _, group _ content closer =>
    content.Fits table 0 (some closer) ∧ content.Settled (some closer)
  | next, operation left op right =>
    left.Settled (some op) ∧ right.Settled next ∧
      ∀ joining ∈ table.joining? op.2, right.Fits table joining.operandPrecedence next

/-- The tree of a whole row, bound as the table says. -/
structure WellBound (tree : Tree) : Prop where
  registered : tree.Registered table
  fits : tree.Fits table 0 none
  settled : tree.Settled table none

end Tree

end Precedence.Pratt
