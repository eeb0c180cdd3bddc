import Precedence.Rule.Strategy

/-!
# What trying a rule comes to

`Rule.trace` tells, for a row of tokens and a place in it, what trying a rule there comes to, without
a state: the outcome, or the place where one more level was refused; the failures noted on the way;
and each visit of a memoized rule, with the levels that were left there.
-/

namespace Precedence

/-- A memoized rule is tried: its key, the place, and how many more levels can be entered. -/
structure Visit (ι : Type) where
  key : ι
  position : Nat
  levels : Nat

/-- What trying something comes to; the result is the place of the refusal if it was refused to
enter a level. -/
structure Trace (ι α : Type) where
  result : Except Nat α
  failures : List (Nat × String) := []
  visits : List (Visit ι) := []

namespace Trace

variable {ι α β V : Type}

def pure (a : α) : Trace ι α := ⟨.ok a, [], []⟩

/-- One thing and, unless that was refused, another. -/
def bind (t : Trace ι α) (k : α → Trace ι β) : Trace ι β :=
  match t.result with
  | .error i => ⟨.error i, t.failures, t.visits⟩
  | .ok a => ⟨(k a).result, t.failures ++ (k a).failures, t.visits ++ (k a).visits⟩

/-- A failure noted at a place. -/
def failing (position : Nat) (what : String) : Trace ι (Outcome V) :=
  ⟨.ok none, [(position, what)], []⟩

/-- One more level is refused. -/
def refused (position : Nat) : Trace ι α := ⟨.error position, [], []⟩

/-- An outcome behind what was captured before it. -/
def prepend (captures : List V) : Outcome V → Outcome V :=
  Option.map fun (more, stop) => (captures ++ more, stop)

/-- What follows a success, given its captures and where it ended. -/
def andThen (t : Trace ι (Outcome V)) (k : List V → Nat → Trace ι (Outcome V)) :
    Trace ι (Outcome V) :=
  t.bind fun
    | none => pure none
    | some (captures, stop) => k captures stop

/-- What follows a failure. -/
def orElse (t u : Trace ι (Outcome V)) : Trace ι (Outcome V) :=
  t.bind fun
    | none => u
    | some success => pure (some success)

theorem bind_ok {t : Trace ι α} {a : α} (h : t.result = .ok a) (k : α → Trace ι β) :
    t.bind k = ⟨(k a).result, t.failures ++ (k a).failures, t.visits ++ (k a).visits⟩ := by
  simp only [bind, h]

theorem bind_error {t : Trace ι α} {i : Nat} (h : t.result = .error i) (k : α → Trace ι β) :
    t.bind k = ⟨.error i, t.failures, t.visits⟩ := by
  simp only [bind, h]

theorem bind_map (t : Trace ι α) (g : α → β) :
    (t.bind fun a => pure (g a)) = ⟨t.result.map g, t.failures, t.visits⟩ := by
  rcases t with ⟨_ | _, _, _⟩ <;> simp [bind, pure, Except.map]

variable {t : Trace ι α} {k : α → Trace ι β} {v : Visit ι} {a : α}

theorem mem_visits_bind_left (h : v ∈ t.visits) : v ∈ (t.bind k).visits := by
  rcases ht : t.result with i | a
  · rw [bind_error ht]
    exact h
  · rw [bind_ok ht]
    exact List.mem_append_left _ h

theorem mem_visits_bind_right (ht : t.result = .ok a) (h : v ∈ (k a).visits) :
    v ∈ (t.bind k).visits := by
  rw [bind_ok ht]
  exact List.mem_append_right _ h

theorem mem_visits_bind (h : v ∈ (t.bind k).visits) :
    v ∈ t.visits ∨ ∃ a, t.result = .ok a ∧ v ∈ (k a).visits := by
  rcases ht : t.result with i | a
  · rw [bind_error ht] at h
    exact Or.inl h
  · rw [bind_ok ht] at h
    rcases List.mem_append.mp h with h | h
    · exact Or.inl h
    · exact Or.inr ⟨a, rfl, h⟩

end Trace

/-- What trying something comes to, place by place. -/
abbrev Attempt (ι V : Type) := Nat → Trace ι (Outcome V)

namespace Attempt

open Trace

variable {ι V : Type}

def expecting (tokens : Array Token) (what : String) (wanted : Token → Bool)
    (capture : Token → List V) : Attempt ι V := fun p =>
  match tokens[p]? with
  | some token => if wanted token then pure (some (capture token, p + 1)) else failing p what
  | none => failing p what

def seq (r t : Attempt ι V) : Attempt ι V := fun p =>
  (r p).andThen fun captures stop => (t stop).bind fun o => pure (prepend captures o)

def choice (r t : Attempt ι V) : Attempt ι V := fun p =>
  (r p).orElse (t p)

/-- Up to `n` more rounds, until one fails or reads nothing. -/
def rounds (r : Attempt ι V) : Nat → Attempt ι V
  | 0, p => pure (some ([], p))
  | n + 1, p =>
    (r p).bind fun
      | some (captures, stop) =>
        if p < stop then (rounds r n stop).bind fun o => pure (prepend captures o)
        else pure (some ([], p))
      | none => pure (some ([], p))

def plus (tokens : Array Token) (r : Attempt ι V) : Attempt ι V := fun p =>
  (r p).andThen fun captures stop =>
    (rounds r (tokens.size - stop + 1) stop).bind fun o => pure (prepend captures o)

def optional (r : Attempt ι V) : Attempt ι V := fun p =>
  (r p).orElse (pure (some ([], p)))

def node (tokens : Array Token) (r : Attempt ι V) (reduce : Reducer V) : Attempt ι V := fun p =>
  (r p).andThen fun captures stop =>
    pure ((reduce captures ⟨tokens, p, stop⟩).map fun value => ([value], stop))

def memoized (key : ι) (levels : Nat) (r : Attempt ι V) : Attempt ι V := fun p =>
  ⟨(r p).result, (r p).failures, ⟨key, p, levels⟩ :: (r p).visits⟩

/-- Behind an open reference there is nothing. -/
def reference (target : Option (Attempt ι V)) : Attempt ι V := fun p =>
  match target with
  | none => pure none
  | some r => r p

end Attempt

namespace Rule

variable {ι V : Type} [Capture V]

/-- What trying a rule comes to where `levels` more levels can be entered, given what trying what is
behind the references comes to. -/
def trace (tokens : Array Token) (levels : Nat) (target : Nat → Option (Attempt ι V)) :
    Rule ι V → Attempt ι V
  | kind k =>
    Attempt.expecting tokens k.label (·.kind == k) (fun token => [Capture.ofToken token])
  | verbatim text =>
    Attempt.expecting tokens (Token.quote text)
      (fun token => token.kind == .verbatim && token.text == text) (fun _ => [])
  | nothing => fun p => .pure (some ([], p))
  | never => fun _ => .pure none
  | seq r t => Attempt.seq (trace tokens levels target r) (trace tokens levels target t)
  | choice r t => Attempt.choice (trace tokens levels target r) (trace tokens levels target t)
  | plus r => Attempt.plus tokens (trace tokens levels target r)
  | optional r => Attempt.optional (trace tokens levels target r)
  | node r reduce => Attempt.node tokens (trace tokens levels target r) reduce
  | memoized key r => Attempt.memoized key levels (trace tokens levels target r)
  | reference slot => Attempt.reference (target slot)

end Rule

namespace RuleGraph

variable {ι V : Type} [Capture V]

/-- What trying the rule behind a reference comes to when `levels` more levels can be entered. -/
def traceBehind (g : RuleGraph ι V) (tokens : Array Token) :
    (levels : Nat) → Nat → Option (Attempt ι V)
  | 0, slot => (g.target slot).map fun _ => Trace.refused
  | levels + 1, slot =>
    (g.target slot).map fun rule => rule.trace tokens levels (g.traceBehind tokens levels)

/-- What trying a rule of the graph comes to when `levels` more levels can be entered. -/
def trace (g : RuleGraph ι V) (tokens : Array Token) (levels : Nat) (rule : Rule ι V) :
    Attempt ι V :=
  rule.trace tokens levels (g.traceBehind tokens levels)

end RuleGraph

end Precedence
