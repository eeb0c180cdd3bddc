import Precedence.Rule.Basic

/-!
# Rules that refer to themselves

A graph gives the rules behind references. A reference is followed at most `nestingLimit` levels
deep, which is as deep as a state lets it be followed, so that every rule comes to an end.
-/

namespace Precedence

/-- The rules behind references; a slot is open as long as it has none. -/
structure RuleGraph (ι V : Type) where
  target : Nat → Option (Rule ι V)

namespace RuleGraph

variable {ι V : Type} [BEq ι] [Hashable ι] [Capture V]

/-- What is behind the references when `levels` more of them can be followed. -/
def follow (g : RuleGraph ι V) : (levels : Nat) → Nat → Option (Recognizer ι V)
  | 0, slot => (g.target slot).map fun _ s => (none, s)
  | levels + 1, slot => (g.target slot).map fun rule => rule.run (g.follow levels)

/-- Tries a rule of the graph at the cursor. -/
def apply (g : RuleGraph ι V) (rule : Rule ι V) : Recognizer ι V :=
  rule.run (g.follow nestingLimit)

/-- The graph in which nothing is behind references. -/
def isOpen : RuleGraph ι V :=
  ⟨fun _ => none⟩

/-- The graph in which a slot is closed with a rule. -/
def close (g : RuleGraph ι V) (slot : Nat) (rule : Rule ι V) : RuleGraph ι V :=
  ⟨fun i => if i = slot then some rule else g.target i⟩

end RuleGraph

end Precedence
