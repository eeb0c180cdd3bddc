import Precedence.Classifier
import Precedence.Rule.Strategy

/-!
# Building rules

Rules are built one from another while the token patterns that they need are registered. Every rule
built gets a number of its own, which is its key where its outcomes are remembered: two uses of one
rule share their outcomes, two rules never do.
-/

namespace Precedence

/-- A rule with its number. -/
structure NumberedRule (V : Type) where
  number : Nat
  rule : Rule Nat V

/-- What is known while rules are built. -/
structure RuleBuilder (V : Type) where
  strategy : Strategy
  classifier : Classifier := .empty
  nextNumber : Nat := 0
  nextSlot : Nat := 0
  graph : RuleGraph Nat V := .isOpen

/-- A step in building rules; registering a token pattern can fail. -/
abbrev Build (V : Type) := StateT (RuleBuilder V) (Except Failure)

namespace Build

variable {V : Type}

/-- A rule under a new number. -/
def number (rule : Rule Nat V) : Build V (NumberedRule V) := do
  let builder ← get
  set { builder with nextNumber := builder.nextNumber + 1 }
  return ⟨builder.nextNumber, rule⟩

def kind (k : TokenKind) : Build V (NumberedRule V) :=
  number (.kind k)

/-- Registers a token pattern; the rule is for any token of the kind. -/
def token (pattern : String) (k : TokenKind) : Build V (NumberedRule V) := do
  let builder ← get
  let classifier ← builder.classifier.register pattern k
  set { builder with classifier }
  kind k

def verbatim (text : String) : Build V (NumberedRule V) :=
  number (.verbatim text)

def all (rules : List (NumberedRule V)) : Build V (NumberedRule V) :=
  number (.all (rules.map (·.rule)))

def any (rules : List (NumberedRule V)) : Build V (NumberedRule V) :=
  number (.any (rules.map (·.rule)))

def plus (r : NumberedRule V) : Build V (NumberedRule V) :=
  number (.plus r.rule)

def optional (r : NumberedRule V) : Build V (NumberedRule V) :=
  number (.optional r.rule)

def star (r : NumberedRule V) : Build V (NumberedRule V) := do
  optional (← plus r)

def memoize (r : NumberedRule V) : Build V (NumberedRule V) :=
  number (.memoized r.number r.rule)

def node (r : NumberedRule V) (reduce : Reducer V) : Build V (NumberedRule V) := do
  let node ← number (.node r.rule reduce)
  match (← get).strategy with
  | .backtracking => return node
  | .packrat => memoize node

/-- The rule that `build` makes of a reference to that rule. -/
def fixedPoint (build : NumberedRule V → Build V (NumberedRule V)) : Build V (NumberedRule V) := do
  let builder ← get
  let slot := builder.nextSlot
  set { builder with nextSlot := slot + 1 }
  let body ← build (← number (.reference slot))
  modify fun builder => { builder with graph := builder.graph.close slot body.rule }
  number body.rule

end Build

end Precedence
