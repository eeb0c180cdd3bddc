import Precedence.Rule.State

/-!
# Rules

A rule says how a row of tokens is recognized and what is captured of it. `Rule.run` tries one at
the cursor of a state: it captures something and moves the cursor behind what it read, or it fails
and leaves the cursor where it was. Alternatives are tried in order, repetitions take as much as
they can, and a node makes one value of what it captured or rejects it. A reference stands for a
rule that is defined elsewhere, possibly around it; `run` is told what is behind the references.
-/

namespace Precedence

/-- Values that are captured from tokens. -/
class Capture (V : Type) where
  ofToken : Token → V

/-- A row of tokens that was recognized, among all tokens of the parse. -/
structure Stretch where
  tokens : Array Token
  start : Nat
  stop : Nat

namespace Stretch

def first? (s : Stretch) : Option Token :=
  if s.start < s.stop then s.tokens[s.start]? else none

def last? (s : Stretch) : Option Token :=
  if s.start < s.stop then s.tokens[s.stop - 1]? else none

/-- The span from the first to the last token. -/
def span? (s : Stretch) : Option Span := do
  return (← s.first?).span.merge (← s.last?).span

end Stretch

/-- Makes one value of the captures, or rejects them. -/
abbrev Reducer (V : Type) := List V → Stretch → Option V

/-- Tries something at the cursor. -/
abbrev Recognizer (ι V : Type) [BEq ι] [Hashable ι] :=
  ParseState ι V → Option (List V) × ParseState ι V

inductive Rule (ι V : Type) where
  /-- One token of a kind, captured. -/
  | kind (k : TokenKind)
  /-- A verbatim token with just this text; captures nothing. -/
  | verbatim (text : String)
  /-- Recognizes nothing, and succeeds. -/
  | nothing
  | never
  | seq (r s : Rule ι V)
  | choice (r s : Rule ι V)
  /-- One or more. -/
  | plus (r : Rule ι V)
  | optional (r : Rule ι V)
  | node (r : Rule ι V) (reduce : Reducer V)
  /-- Outcomes are remembered under the key. -/
  | memoized (key : ι) (r : Rule ι V)
  | reference (slot : Nat)

namespace Recognizer

variable {ι V : Type} [BEq ι] [Hashable ι]

/-- What is expected where the next token is not the one wanted. -/
def expecting (what : String) (wanted : Token → Bool) (capture : Token → List V) :
    Recognizer ι V := fun s =>
  match s.peek with
  | some token =>
    if wanted token then (some (capture token), s.restore (s.position + 1))
    else (none, s.recordFailure what)
  | none => (none, s.recordFailure what)

def seq (r t : Recognizer ι V) : Recognizer ι V := fun s =>
  match r s with
  | (none, s') => (none, s'.restore s.position)
  | (some captures, s') =>
    match t s' with
    | (none, s'') => (none, s''.restore s.position)
    | (some more, s'') => (some (captures ++ more), s'')

def choice (r t : Recognizer ι V) : Recognizer ι V := fun s =>
  match r s with
  | (some captures, s') => (some captures, s')
  | (none, s') =>
    match t (s'.restore s.position) with
    | (some captures, s'') => (some captures, s'')
    | (none, s'') => (none, s''.restore s.position)

/-- Up to `n` more rounds, until one fails or reads nothing. -/
def rounds (r : Recognizer ι V) : Nat → ParseState ι V → List V × ParseState ι V
  | 0, s => ([], s)
  | n + 1, s =>
    match r s with
    | (some captures, s') =>
      if s.position < s'.position then
        let (more, s'') := rounds r n s'
        (captures ++ more, s'')
      else ([], s'.restore s.position)
    | (none, s') => ([], s'.restore s.position)

/-- A first round and as many more as read something; these can be no more than tokens are left. -/
def plus (r : Recognizer ι V) : Recognizer ι V := fun s =>
  match r s with
  | (none, s') => (none, s')
  | (some captures, s') =>
    let (more, s'') := rounds r (s'.tokens.size - s'.position + 1) s'
    (some (captures ++ more), s'')

def optional (r : Recognizer ι V) : Recognizer ι V := fun s =>
  match r s with
  | (some captures, s') => (some captures, s')
  | (none, s') => (some [], s'.restore s.position)

def node (r : Recognizer ι V) (reduce : Reducer V) : Recognizer ι V := fun s =>
  match r s with
  | (none, s') => (none, s')
  | (some captures, s') =>
    match reduce captures ⟨s'.tokens, s.position, s'.position⟩ with
    | some value => (some [value], s')
    | none => (none, s'.restore s.position)

/-- The remembered outcome, or else the one that is found now and remembered. -/
def memoized (key : ι) (r : Recognizer ι V) : Recognizer ι V := fun s =>
  if s.isMemoizing then
    match s.remembered? key with
    | some (some (captures, stop)) => (some captures, s.restore stop)
    | some none => (none, s)
    | none =>
      let (result, s') := r s
      (result, s'.remember key s.position (result.map fun captures => (captures, s'.position)))
  else r s

/-- Tries what is behind a reference, one level deeper; behind an open one there is nothing. -/
def reference (target : Option (Recognizer ι V)) : Recognizer ι V := fun s =>
  match target with
  | none => (none, s)
  | some r =>
    match s.enterNested with
    | (false, s') => (none, s')
    | (true, s') =>
      let (result, s'') := r s'
      (result, s''.exitNested)

end Recognizer

namespace Rule

variable {ι V : Type} [BEq ι] [Hashable ι] [Capture V]

/-- Tries a rule, given what is behind the references. -/
def run (target : Nat → Option (Recognizer ι V)) : Rule ι V → Recognizer ι V
  | kind k, s =>
    Recognizer.expecting k.label (·.kind == k) (fun token => [Capture.ofToken token]) s
  | verbatim text, s =>
    Recognizer.expecting (Token.quote text)
      (fun token => token.kind == .verbatim && token.text == text) (fun _ => []) s
  | nothing, s => (some [], s)
  | never, s => (none, s)
  | seq r t, s => Recognizer.seq (run target r) (run target t) s
  | choice r t, s => Recognizer.choice (run target r) (run target t) s
  | plus r, s => Recognizer.plus (run target r) s
  | optional r, s => Recognizer.optional (run target r) s
  | node r reduce, s => Recognizer.node (run target r) reduce s
  | memoized key r, s => Recognizer.memoized key (run target r) s
  | reference slot, s => Recognizer.reference (target slot) s

/-- All rules, one behind the other. -/
def all {ι V : Type} (rules : List (Rule ι V)) : Rule ι V :=
  rules.foldr seq nothing

/-- The first of the rules that succeeds. -/
def any {ι V : Type} (rules : List (Rule ι V)) : Rule ι V :=
  rules.foldr choice never

/-- Zero or more. -/
def star {ι V : Type} (r : Rule ι V) : Rule ι V :=
  optional (plus r)

end Rule

end Precedence
