import Mathlib.Logic.Relation
import Precedence.Grammar.Part
import Precedence.Rule.Strategy

/-!
# The trials that a trial makes

To try a rule is to try rules that it is built from, and the rules behind its references, at places
that depend on how the trials before went. `RuleGraph.Tries` tells which trials one makes next; what
it comes to in all, directly or through others, is `RuleGraph.TriesAmong`. The reducers that are asked
in the course of a trial are handed the stretches of `RuleGraph.Hands`.
-/

namespace Precedence

open Relation

variable {ι V : Type} [BEq ι] [Hashable ι]

/-- A rule that is tried in a state, where that many more references can be followed. -/
structure Trial (ι V : Type) [BEq ι] [Hashable ι] where
  levels : Nat
  rule : Rule ι V
  state : ParseState ι V

/-- What comes out as an outcome: captures together with the cursor, or a failure. -/
def outcomeOf (out : Option (List V) × ParseState ι V) : Outcome V :=
  out.1.map fun captures => (captures, out.2.position)

/-- The states in which a repetition tries `r` when it goes on for up to `n` rounds. -/
inductive Recognizer.Rounds (r : Recognizer ι V) : Nat → ParseState ι V → ParseState ι V → Prop
  | here (n : Nat) (s : ParseState ι V) : Rounds r (n + 1) s s
  | next {n : Nat} {s s' s'' : ParseState ι V} {captures : List V}
    (h : r s = (some captures, s')) (hlt : s.position < s'.position) (h' : Rounds r n s' s'') :
    Rounds r (n + 1) s s''

/-- A level is entered where none was refused and the limit is not met. -/
theorem ParseState.enterNested_eq_true {s s' : ParseState ι V}
    (h : s.enterNested = (true, s')) :
    s.overflow = none ∧ s.depth < nestingLimit ∧ s' = { s with depth := s.depth + 1 } := by
  unfold enterNested at h
  by_cases ho : s.overflow.isSome
  · rw [if_pos ho] at h
    simp at h
  · rw [if_neg ho] at h
    by_cases hd : nestingLimit ≤ s.depth
    · rw [if_pos hd] at h
      simp at h
    · rw [if_neg hd] at h
      exact ⟨by simpa using ho, Nat.lt_of_not_le hd, (Prod.mk.inj h).2.symm⟩

variable [Capture V]

/-- What trying comes to. -/
def Trial.run (t : Trial ι V) (g : RuleGraph ι V) : Option (List V) × ParseState ι V :=
  t.rule.run (g.follow t.levels) t.state

/-- The first trial makes the second one itself. -/
inductive RuleGraph.Tries (g : RuleGraph ι V) : Trial ι V → Trial ι V → Prop
  | seqLeft (levels : Nat) (r t : Rule ι V) (s : ParseState ι V) :
    Tries g ⟨levels, .seq r t, s⟩ ⟨levels, r, s⟩
  | seqRight (levels : Nat) (r t : Rule ι V) (s s' : ParseState ι V) (captures : List V)
    (h : r.run (g.follow levels) s = (some captures, s')) :
    Tries g ⟨levels, .seq r t, s⟩ ⟨levels, t, s'⟩
  | choiceLeft (levels : Nat) (r t : Rule ι V) (s : ParseState ι V) :
    Tries g ⟨levels, .choice r t, s⟩ ⟨levels, r, s⟩
  | choiceRight (levels : Nat) (r t : Rule ι V) (s s' : ParseState ι V)
    (h : r.run (g.follow levels) s = (none, s')) :
    Tries g ⟨levels, .choice r t, s⟩ ⟨levels, t, s'.restore s.position⟩
  | plusFirst (levels : Nat) (r : Rule ι V) (s : ParseState ι V) :
    Tries g ⟨levels, .plus r, s⟩ ⟨levels, r, s⟩
  | plusAgain (levels : Nat) (r : Rule ι V) (s s' s'' : ParseState ι V) (captures : List V)
    (h : r.run (g.follow levels) s = (some captures, s'))
    (h' : Recognizer.Rounds (r.run (g.follow levels)) (s'.tokens.size - s'.position + 1) s' s'') :
    Tries g ⟨levels, .plus r, s⟩ ⟨levels, r, s''⟩
  | optional (levels : Nat) (r : Rule ι V) (s : ParseState ι V) :
    Tries g ⟨levels, .optional r, s⟩ ⟨levels, r, s⟩
  | node (levels : Nat) (r : Rule ι V) (reduce : Reducer V) (s : ParseState ι V) :
    Tries g ⟨levels, .node r reduce, s⟩ ⟨levels, r, s⟩
  | memoized (levels : Nat) (key : ι) (r : Rule ι V) (s : ParseState ι V)
    (h : s.isMemoizing → s.remembered? key = none) :
    Tries g ⟨levels, .memoized key r, s⟩ ⟨levels, r, s⟩
  | reference (levels slot : Nat) (r : Rule ι V) (s s' : ParseState ι V)
    (h : g.target slot = some r) (h' : s.enterNested = (true, s')) :
    Tries g ⟨levels + 1, .reference slot, s⟩ ⟨levels, r, s'⟩

/-- In the course of the first trial the second one is made; it may be the first one itself. -/
abbrev RuleGraph.TriesAmong (g : RuleGraph ι V) : Trial ι V → Trial ι V → Prop :=
  ReflTransGen g.Tries

/-- In the course of a trial a reducer is handed the stretch. -/
def RuleGraph.Hands (g : RuleGraph ι V) (t : Trial ι V) (stretch : Stretch) : Prop :=
  ∃ levels r reduce s captures s', g.TriesAmong t ⟨levels, .node r reduce, s⟩ ∧
    r.run (g.follow levels) s = (some captures, s') ∧
    stretch = ⟨s'.tokens, s.position, s'.position⟩

/-! ### A graph that refers to itself -/

open Grammar in
/-- A name, or a group in brackets. -/
def groupForms : Rule Nat Part :=
  .any [.node (.kind .identifier) Part.reduceIdentifier,
    .all [.verbatim "(", .reference 0, .verbatim ")"]]

def group : Rule Nat Grammar.Part := .memoized 0 groupForms

def groups : RuleGraph Nat Grammar.Part := .close .isOpen 0 group

/-- The tokens of `((x)`, where only the inner group is closed. -/
def openGroup : Array Token :=
  #[⟨.verbatim, "(", .text "(", [], ⟨0, 1⟩, ⟨1, 1⟩⟩,
    ⟨.verbatim, "(", .text "(", [], ⟨1, 2⟩, ⟨1, 2⟩⟩,
    ⟨.identifier, "x", .text "x", [], ⟨2, 3⟩, ⟨1, 3⟩⟩,
    ⟨.verbatim, ")", .text ")", [], ⟨3, 4⟩, ⟨1, 4⟩⟩]

end Precedence
