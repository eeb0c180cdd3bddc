import Precedence.Proofs.Rule.Run

/-!
# What a rule means

`RuleGraph.Evaluates` tells what a rule of a graph recognizes at a place of a row of tokens: nothing
of a state, of a table of outcomes, of failures on record or of a limit. A sequence recognizes one
thing behind the other, an alternative is looked at where those before it fail, a repetition goes on
as long as its rule reads something, a reducer may reject what was read, and a reference means what is
behind it. A rule that refers to itself without reading anything means nothing. No rule means two
things at one place (`RuleGraph.Evaluates.unique`).
-/

namespace Precedence

variable {ι V : Type} [Capture V]

mutual

inductive RuleGraph.Evaluates (g : RuleGraph ι V) (tokens : Array Token) :
    Rule ι V → Nat → Outcome V → Prop
  | kindReads (k : TokenKind) (p : Nat) (t : Token) (ht : tokens[p]? = some t) (hk : t.kind = k) :
    Evaluates g tokens (.kind k) p (some ([Capture.ofToken t], p + 1))
  | kindFails (k : TokenKind) (p : Nat) (h : ∀ t, tokens[p]? = some t → t.kind ≠ k) :
    Evaluates g tokens (.kind k) p none
  | verbatimReads (text : String) (p : Nat) (t : Token) (ht : tokens[p]? = some t)
    (hk : t.kind = .verbatim) (htext : t.text = text) :
    Evaluates g tokens (.verbatim text) p (some ([], p + 1))
  | verbatimFails (text : String) (p : Nat)
    (h : ∀ t, tokens[p]? = some t → ¬ (t.kind = .verbatim ∧ t.text = text)) :
    Evaluates g tokens (.verbatim text) p none
  | nothing (p : Nat) : Evaluates g tokens .nothing p (some ([], p))
  | never (p : Nat) : Evaluates g tokens .never p none
  | seqReads (r t : Rule ι V) (p m q : Nat) (c c' : List V)
    (h : Evaluates g tokens r p (some (c, m))) (h' : Evaluates g tokens t m (some (c', q))) :
    Evaluates g tokens (.seq r t) p (some (c ++ c', q))
  | seqFailsLeft (r t : Rule ι V) (p : Nat) (h : Evaluates g tokens r p none) :
    Evaluates g tokens (.seq r t) p none
  | seqFailsRight (r t : Rule ι V) (p m : Nat) (c : List V)
    (h : Evaluates g tokens r p (some (c, m))) (h' : Evaluates g tokens t m none) :
    Evaluates g tokens (.seq r t) p none
  | choiceLeft (r t : Rule ι V) (p : Nat) (success : List V × Nat)
    (h : Evaluates g tokens r p (some success)) :
    Evaluates g tokens (.choice r t) p (some success)
  | choiceRight (r t : Rule ι V) (p : Nat) (o : Outcome V) (h : Evaluates g tokens r p none)
    (h' : Evaluates g tokens t p o) : Evaluates g tokens (.choice r t) p o
  | plusReads (r : Rule ι V) (p m q : Nat) (c c' : List V)
    (h : Evaluates g tokens r p (some (c, m))) (h' : Repeats g tokens r m c' q) :
    Evaluates g tokens (.plus r) p (some (c ++ c', q))
  | plusFails (r : Rule ι V) (p : Nat) (h : Evaluates g tokens r p none) :
    Evaluates g tokens (.plus r) p none
  | optionalReads (r : Rule ι V) (p : Nat) (success : List V × Nat)
    (h : Evaluates g tokens r p (some success)) :
    Evaluates g tokens (.optional r) p (some success)
  | optionalFails (r : Rule ι V) (p : Nat) (h : Evaluates g tokens r p none) :
    Evaluates g tokens (.optional r) p (some ([], p))
  | nodeReads (r : Rule ι V) (reduce : Reducer V) (p q : Nat) (c : List V) (v : V)
    (h : Evaluates g tokens r p (some (c, q))) (hv : reduce c ⟨tokens, p, q⟩ = some v) :
    Evaluates g tokens (.node r reduce) p (some ([v], q))
  | nodeRejects (r : Rule ι V) (reduce : Reducer V) (p q : Nat) (c : List V)
    (h : Evaluates g tokens r p (some (c, q))) (hv : reduce c ⟨tokens, p, q⟩ = none) :
    Evaluates g tokens (.node r reduce) p none
  | nodeFails (r : Rule ι V) (reduce : Reducer V) (p : Nat) (h : Evaluates g tokens r p none) :
    Evaluates g tokens (.node r reduce) p none
  | memoized (key : ι) (r : Rule ι V) (p : Nat) (o : Outcome V) (h : Evaluates g tokens r p o) :
    Evaluates g tokens (.memoized key r) p o
  | reference (slot : Nat) (r : Rule ι V) (p : Nat) (o : Outcome V) (hr : g.target slot = some r)
    (h : Evaluates g tokens r p o) : Evaluates g tokens (.reference slot) p o
  | openReference (slot p : Nat) (h : g.target slot = none) :
    Evaluates g tokens (.reference slot) p none

/-- What a repetition recognizes in the rounds that go on at a place: a round that fails or reads
nothing is the last, and is dropped. -/
inductive RuleGraph.Repeats (g : RuleGraph ι V) (tokens : Array Token) :
    Rule ι V → Nat → List V → Nat → Prop
  | next (r : Rule ι V) (p m q : Nat) (c c' : List V) (h : Evaluates g tokens r p (some (c, m)))
    (hpm : p < m) (h' : Repeats g tokens r m c' q) : Repeats g tokens r p (c ++ c') q
  | stuck (r : Rule ι V) (p m : Nat) (c : List V) (h : Evaluates g tokens r p (some (c, m)))
    (hpm : ¬ p < m) : Repeats g tokens r p [] p
  | fails (r : Rule ι V) (p : Nat) (h : Evaluates g tokens r p none) : Repeats g tokens r p [] p

end

namespace RuleGraph

variable {g : RuleGraph ι V} {tokens : Array Token}

mutual

/-- A rule means one thing at a place. -/
theorem Evaluates.unique : ∀ {rule : Rule ι V} {p : Nat} {o o' : Outcome V},
    g.Evaluates tokens rule p o → g.Evaluates tokens rule p o' → o = o'
  | _, _, _, _, .kindReads k p t ht hk, h' => by
    cases h' with
    | kindReads _ _ t' ht' =>
      obtain rfl : t = t' := by simpa using ht.symm.trans ht'
      rfl
    | kindFails _ _ h => exact absurd hk (h t ht)
  | _, _, _, _, .kindFails k p h, h' => by
    cases h' with
    | kindReads _ _ t ht hk => exact absurd hk (h t ht)
    | kindFails => rfl
  | _, _, _, _, .verbatimReads text p t ht hk htext, h' => by
    cases h' with
    | verbatimReads => rfl
    | verbatimFails _ _ h => exact absurd ⟨hk, htext⟩ (h t ht)
  | _, _, _, _, .verbatimFails text p h, h' => by
    cases h' with
    | verbatimReads _ _ t ht hk htext => exact absurd ⟨hk, htext⟩ (h t ht)
    | verbatimFails => rfl
  | _, _, _, _, .nothing p, h' => by cases h'; rfl
  | _, _, _, _, .never p, h' => by cases h'; rfl
  | _, _, _, _, .seqReads r t p m q c c' h₁ h₂, h' => by
    cases h' with
    | seqReads _ _ _ m' q' d d' h₁' h₂' =>
      obtain ⟨rfl, rfl⟩ : c = d ∧ m = m' := by simpa using h₁.unique h₁'
      obtain ⟨rfl, rfl⟩ : c' = d' ∧ q = q' := by simpa using h₂.unique h₂'
      rfl
    | seqFailsLeft _ _ _ h₁' => exact absurd (h₁.unique h₁') (by simp)
    | seqFailsRight _ _ _ m' d h₁' h₂' =>
      obtain ⟨rfl, rfl⟩ : c = d ∧ m = m' := by simpa using h₁.unique h₁'
      exact absurd (h₂.unique h₂') (by simp)
  | _, _, _, _, .seqFailsLeft r t p h₁, h' => by
    cases h' with
    | seqReads _ _ _ _ _ _ _ h₁' => exact absurd (h₁.unique h₁') (by simp)
    | seqFailsLeft => rfl
    | seqFailsRight => rfl
  | _, _, _, _, .seqFailsRight r t p m c h₁ h₂, h' => by
    cases h' with
    | seqReads _ _ _ m' q' d d' h₁' h₂' =>
      obtain ⟨rfl, rfl⟩ : c = d ∧ m = m' := by simpa using h₁.unique h₁'
      exact absurd (h₂.unique h₂') (by simp)
    | seqFailsLeft => rfl
    | seqFailsRight => rfl
  | _, _, _, _, .choiceLeft r t p success h₁, h' => by
    cases h' with
    | choiceLeft _ _ _ success' h₁' => exact h₁.unique h₁'
    | choiceRight _ _ _ _ h₁' => exact absurd (h₁.unique h₁') (by simp)
  | _, _, _, _, .choiceRight r t p o h₁ h₂, h' => by
    cases h' with
    | choiceLeft _ _ _ success' h₁' => exact absurd (h₁.unique h₁') (by simp)
    | choiceRight _ _ _ _ _ h₂' => exact h₂.unique h₂'
  | _, _, _, _, .plusReads r p m q c c' h₁ h₂, h' => by
    cases h' with
    | plusReads _ _ m' q' d d' h₁' h₂' =>
      obtain ⟨rfl, rfl⟩ : c = d ∧ m = m' := by simpa using h₁.unique h₁'
      obtain ⟨rfl, rfl⟩ := h₂.unique h₂'
      rfl
    | plusFails _ _ h₁' => exact absurd (h₁.unique h₁') (by simp)
  | _, _, _, _, .plusFails r p h₁, h' => by
    cases h' with
    | plusReads _ _ _ _ _ _ h₁' => exact absurd (h₁.unique h₁') (by simp)
    | plusFails => rfl
  | _, _, _, _, .optionalReads r p success h₁, h' => by
    cases h' with
    | optionalReads _ _ success' h₁' => exact h₁.unique h₁'
    | optionalFails _ _ h₁' => exact absurd (h₁.unique h₁') (by simp)
  | _, _, _, _, .optionalFails r p h₁, h' => by
    cases h' with
    | optionalReads _ _ success' h₁' => exact absurd (h₁.unique h₁') (by simp)
    | optionalFails => rfl
  | _, _, _, _, .nodeReads r reduce p q c v h₁ hv, h' => by
    cases h' with
    | nodeReads _ _ _ q' d v' h₁' hv' =>
      obtain ⟨rfl, rfl⟩ : c = d ∧ q = q' := by simpa using h₁.unique h₁'
      obtain rfl : v = v' := by simpa using hv.symm.trans hv'
      rfl
    | nodeRejects _ _ _ q' d h₁' hv' =>
      obtain ⟨rfl, rfl⟩ : c = d ∧ q = q' := by simpa using h₁.unique h₁'
      exact absurd (hv.symm.trans hv') (by simp)
    | nodeFails _ _ _ h₁' => exact absurd (h₁.unique h₁') (by simp)
  | _, _, _, _, .nodeRejects r reduce p q c h₁ hv, h' => by
    cases h' with
    | nodeReads _ _ _ q' d v' h₁' hv' =>
      obtain ⟨rfl, rfl⟩ : c = d ∧ q = q' := by simpa using h₁.unique h₁'
      exact absurd (hv.symm.trans hv') (by simp)
    | nodeRejects => rfl
    | nodeFails => rfl
  | _, _, _, _, .nodeFails r reduce p h₁, h' => by
    cases h' with
    | nodeReads _ _ _ q' d v' h₁' => exact absurd (h₁.unique h₁') (by simp)
    | nodeRejects => rfl
    | nodeFails => rfl
  | _, _, _, _, .memoized key r p o h₁, h' => by
    cases h' with
    | memoized _ _ _ _ h₁' => exact h₁.unique h₁'
  | _, _, _, _, .reference slot r p o hr h₁, h' => by
    cases h' with
    | reference _ r' _ _ hr' h₁' =>
      obtain rfl : r = r' := by simpa using hr.symm.trans hr'
      exact h₁.unique h₁'
    | openReference _ _ hr' => exact absurd (hr.symm.trans hr') (by simp)
  | _, _, _, _, .openReference slot p hr, h' => by
    cases h' with
    | reference _ r' _ _ hr' => exact absurd (hr.symm.trans hr') (by simp)
    | openReference => rfl

theorem Repeats.unique : ∀ {rule : Rule ι V} {p q q' : Nat} {c c' : List V},
    g.Repeats tokens rule p c q → g.Repeats tokens rule p c' q' → c = c' ∧ q = q'
  | _, _, _, _, _, _, .next r p m q c c' h₁ hpm h₂, h' => by
    cases h' with
    | next _ _ m' q' d d' h₁' hpm' h₂' =>
      obtain ⟨rfl, rfl⟩ : c = d ∧ m = m' := by simpa using h₁.unique h₁'
      obtain ⟨rfl, rfl⟩ := h₂.unique h₂'
      exact ⟨rfl, rfl⟩
    | stuck _ _ m' d h₁' hpm' =>
      obtain ⟨rfl, rfl⟩ : c = d ∧ m = m' := by simpa using h₁.unique h₁'
      exact absurd hpm hpm'
    | fails _ _ h₁' => exact absurd (h₁.unique h₁') (by simp)
  | _, _, _, _, _, _, .stuck r p m c h₁ hpm, h' => by
    cases h' with
    | next _ _ m' q' d d' h₁' hpm' h₂' =>
      obtain ⟨rfl, rfl⟩ : c = d ∧ m = m' := by simpa using h₁.unique h₁'
      exact absurd hpm' hpm
    | stuck => exact ⟨rfl, rfl⟩
    | fails => exact ⟨rfl, rfl⟩
  | _, _, _, _, _, _, .fails r p h₁, h' => by
    cases h' with
    | next _ _ m' q' d d' h₁' => exact absurd (h₁.unique h₁') (by simp)
    | stuck => exact ⟨rfl, rfl⟩
    | fails => exact ⟨rfl, rfl⟩

end

mutual

/-- What is recognized goes on from its place, and does not leave the tokens. -/
theorem Evaluates.forward : ∀ {rule : Rule ι V} {p : Nat} {o : Outcome V},
    g.Evaluates tokens rule p o → ∀ c q, o = some (c, q) → p ≤ q ∧ (p < q → q ≤ tokens.size)
  | _, _, _, .kindReads k p t ht hk, _, _, ho => by
    obtain ⟨-, rfl⟩ := Prod.mk.inj (Option.some.inj ho)
    exact ⟨Nat.le_succ p, fun _ => (Array.getElem?_eq_some_iff.mp ht).1⟩
  | _, _, _, .verbatimReads text p t ht hk htext, _, _, ho => by
    obtain ⟨-, rfl⟩ := Prod.mk.inj (Option.some.inj ho)
    exact ⟨Nat.le_succ p, fun _ => (Array.getElem?_eq_some_iff.mp ht).1⟩
  | _, _, _, .nothing p, _, _, ho => by
    obtain ⟨-, rfl⟩ := Prod.mk.inj (Option.some.inj ho)
    omega
  | _, _, _, .seqReads r t p m q c c' h h', _, _, ho => by
    obtain ⟨-, rfl⟩ := Prod.mk.inj (Option.some.inj ho)
    have := h.forward c m rfl
    have := h'.forward c' q rfl
    omega
  | _, _, _, .choiceLeft r t p success h, c, q, ho => h.forward c q ho
  | _, _, _, .choiceRight r t p o h h', c, q, ho => h'.forward c q ho
  | _, _, _, .plusReads r p m q c c' h h', _, _, ho => by
    obtain ⟨-, rfl⟩ := Prod.mk.inj (Option.some.inj ho)
    have := h.forward c m rfl
    have := h'.forward
    omega
  | _, _, _, .optionalReads r p success h, c, q, ho => h.forward c q ho
  | _, _, _, .optionalFails r p h, _, _, ho => by
    obtain ⟨-, rfl⟩ := Prod.mk.inj (Option.some.inj ho)
    omega
  | _, _, _, .nodeReads r reduce p q c v h hv, _, _, ho => by
    obtain ⟨-, rfl⟩ := Prod.mk.inj (Option.some.inj ho)
    exact h.forward c q rfl
  | _, _, _, .memoized key r p o h, c, q, ho => h.forward c q ho
  | _, _, _, .reference slot r p o hr h, c, q, ho => h.forward c q ho

theorem Repeats.forward : ∀ {rule : Rule ι V} {p q : Nat} {c : List V},
    g.Repeats tokens rule p c q → p ≤ q ∧ (p < q → q ≤ tokens.size)
  | _, _, _, _, .next r p m q c c' h hpm h' => by
    have := h.forward c m rfl
    have := h'.forward
    omega
  | _, _, _, _, .stuck r p m c h hpm => ⟨Nat.le_refl p, fun h => absurd h (Nat.lt_irrefl p)⟩
  | _, _, _, _, .fails r p h => ⟨Nat.le_refl p, fun h => absurd h (Nat.lt_irrefl p)⟩

end

end RuleGraph

end Precedence
