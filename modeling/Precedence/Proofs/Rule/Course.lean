import Precedence.Proofs.Rule.Trial

/-!
# The course of a trial

`RuleGraph.Proceeds` tells, step by step and without any bound, how trying a rule goes on and what
comes out: a repetition tries its rule until it fails or reads nothing, and behind a reference the
rule there is tried whenever the state admits it. The events on the way are what bears on how long
that takes. As a course is built from the courses of its parts, one that exists is finite; and a
trial has at most one (`RuleGraph.Proceeds.unique`).
-/

namespace Precedence

/-- What happens in the course of a trial. -/
inductive Event where
  /-- A reference is followed; until `left` its rule is active. -/
  | entered
  | left
  /-- A reference fails at once, since no more may be followed. -/
  | refused
  /-- A repetition that began at `start` is over, and has tried its rule that often. -/
  | repeated (start applications : Nat)
  deriving DecidableEq

variable {ι V : Type} [BEq ι] [Hashable ι]

namespace RuleGraph

section Unique

variable {s s' s'' : ParseState ι V} {l l' : List Event} {c c' : List V}

/-- What came out of two courses is compared part by part. -/
theorem eq_of_reads (h : l = l' ∧ (some c, s') = (some c', s'')) : l = l' ∧ c = c' ∧ s' = s'' := by
  simpa using h

theorem eq_of_fails (h : l = l' ∧ ((none : Option (List V)), s') = (none, s'')) :
    l = l' ∧ s' = s'' := by
  simpa using h

theorem not_reads_and_fails {P : Prop} (h : l = l' ∧ (some c, s') = (none, s'')) : P := by
  simp at h

theorem not_fails_and_reads {P : Prop} (h : l = l' ∧ (none, s') = (some c, s'')) : P := by
  simp at h

end Unique

end RuleGraph

variable [Capture V]

open Recognizer

mutual

inductive RuleGraph.Proceeds (g : RuleGraph ι V) : Rule ι V → ParseState ι V → List Event →
    Option (List V) × ParseState ι V → Prop
  | kind (k : TokenKind) (s : ParseState ι V) :
    Proceeds g (.kind k) s []
      (expecting k.label (·.kind == k) (fun token => [Capture.ofToken token]) s)
  | verbatim (text : String) (s : ParseState ι V) :
    Proceeds g (.verbatim text) s []
      (expecting (Token.quote text) (fun token => token.kind == .verbatim && token.text == text)
        (fun _ => []) s)
  | nothing (s : ParseState ι V) : Proceeds g .nothing s [] (some [], s)
  | never (s : ParseState ι V) : Proceeds g .never s [] (none, s)
  | seqFailsLeft {r : Rule ι V} (t : Rule ι V) {s s' : ParseState ι V} {l : List Event}
    (h : Proceeds g r s l (none, s')) :
    Proceeds g (.seq r t) s l (none, s'.restore s.position)
  | seqFailsRight {r t : Rule ι V} {s s' s'' : ParseState ι V} {l l' : List Event} {c : List V}
    (h : Proceeds g r s l (some c, s')) (h' : Proceeds g t s' l' (none, s'')) :
    Proceeds g (.seq r t) s (l ++ l') (none, s''.restore s.position)
  | seqReads {r t : Rule ι V} {s s' s'' : ParseState ι V} {l l' : List Event} {c c' : List V}
    (h : Proceeds g r s l (some c, s')) (h' : Proceeds g t s' l' (some c', s'')) :
    Proceeds g (.seq r t) s (l ++ l') (some (c ++ c'), s'')
  | choiceLeft {r : Rule ι V} (t : Rule ι V) {s s' : ParseState ι V} {l : List Event} {c : List V}
    (h : Proceeds g r s l (some c, s')) :
    Proceeds g (.choice r t) s l (some c, s')
  | choiceRight {r t : Rule ι V} {s s' s'' : ParseState ι V} {l l' : List Event} {c : List V}
    (h : Proceeds g r s l (none, s')) (h' : Proceeds g t (s'.restore s.position) l' (some c, s'')) :
    Proceeds g (.choice r t) s (l ++ l') (some c, s'')
  | choiceFails {r t : Rule ι V} {s s' s'' : ParseState ι V} {l l' : List Event}
    (h : Proceeds g r s l (none, s')) (h' : Proceeds g t (s'.restore s.position) l' (none, s'')) :
    Proceeds g (.choice r t) s (l ++ l') (none, s''.restore s.position)
  | plusFails {r : Rule ι V} {s s' : ParseState ι V} {l : List Event}
    (h : Proceeds g r s l (none, s')) :
    Proceeds g (.plus r) s (l ++ [.repeated s.position 1]) (none, s')
  | plusReads {r : Rule ι V} {s s' s'' : ParseState ι V} {l l' : List Event} {n : Nat}
    {c c' : List V} (h : Proceeds g r s l (some c, s')) (h' : Continues g r s' l' n c' s'') :
    Proceeds g (.plus r) s (l ++ (l' ++ [.repeated s.position (n + 1)])) (some (c ++ c'), s'')
  | optionalReads {r : Rule ι V} {s s' : ParseState ι V} {l : List Event} {c : List V}
    (h : Proceeds g r s l (some c, s')) :
    Proceeds g (.optional r) s l (some c, s')
  | optionalFails {r : Rule ι V} {s s' : ParseState ι V} {l : List Event}
    (h : Proceeds g r s l (none, s')) :
    Proceeds g (.optional r) s l (some [], s'.restore s.position)
  | nodeReads {r : Rule ι V} {reduce : Reducer V} {s s' : ParseState ι V} {l : List Event}
    {c : List V} {v : V} (h : Proceeds g r s l (some c, s'))
    (hv : reduce c ⟨s'.tokens, s.position, s'.position⟩ = some v) :
    Proceeds g (.node r reduce) s l (some [v], s')
  | nodeRejects {r : Rule ι V} {reduce : Reducer V} {s s' : ParseState ι V} {l : List Event}
    {c : List V} (h : Proceeds g r s l (some c, s'))
    (hv : reduce c ⟨s'.tokens, s.position, s'.position⟩ = none) :
    Proceeds g (.node r reduce) s l (none, s'.restore s.position)
  | nodeFails {r : Rule ι V} (reduce : Reducer V) {s s' : ParseState ι V} {l : List Event}
    (h : Proceeds g r s l (none, s')) :
    Proceeds g (.node r reduce) s l (none, s')
  | unmemoized {key : ι} {r : Rule ι V} {s : ParseState ι V} {l : List Event}
    {out : Option (List V) × ParseState ι V} (hm : ¬ s.isMemoizing) (h : Proceeds g r s l out) :
    Proceeds g (.memoized key r) s l out
  | rememberedRead {key : ι} (r : Rule ι V) {s : ParseState ι V} {c : List V} {stop : Nat}
    (hm : s.isMemoizing) (h : s.remembered? key = some (some (c, stop))) :
    Proceeds g (.memoized key r) s [] (some c, s.restore stop)
  | rememberedFailure {key : ι} (r : Rule ι V) {s : ParseState ι V}
    (hm : s.isMemoizing) (h : s.remembered? key = some none) :
    Proceeds g (.memoized key r) s [] (none, s)
  | memoized {key : ι} {r : Rule ι V} {s s' : ParseState ι V} {l : List Event}
    {result : Option (List V)} (hm : s.isMemoizing) (h : s.remembered? key = none)
    (h' : Proceeds g r s l (result, s')) :
    Proceeds g (.memoized key r) s l
      (result, s'.remember key s.position (result.map fun c => (c, s'.position)))
  | openReference {slot : Nat} (s : ParseState ι V) (h : g.target slot = none) :
    Proceeds g (.reference slot) s [] (none, s)
  | refusedReference {slot : Nat} {r : Rule ι V} {s s' : ParseState ι V}
    (h : g.target slot = some r) (h' : s.enterNested = (false, s')) :
    Proceeds g (.reference slot) s [.refused] (none, s')
  | reference {slot : Nat} {r : Rule ι V} {s s' s'' : ParseState ι V} {l : List Event}
    {result : Option (List V)} (h : g.target slot = some r) (h' : s.enterNested = (true, s'))
    (h'' : Proceeds g r s' l (result, s'')) :
    Proceeds g (.reference slot) s (.entered :: (l ++ [.left])) (result, s''.exitNested)

/-- How a repetition goes on from a state, trying its rule so many times: a round that fails or
reads nothing is the last, and is dropped. -/
inductive RuleGraph.Continues (g : RuleGraph ι V) : Rule ι V → ParseState ι V → List Event → Nat →
    List V → ParseState ι V → Prop
  | next {r : Rule ι V} {s s' s'' : ParseState ι V} {l l' : List Event} {n : Nat} {c c' : List V}
    (h : Proceeds g r s l (some c, s')) (hlt : s.position < s'.position)
    (h' : Continues g r s' l' n c' s'') :
    Continues g r s (l ++ l') (n + 1) (c ++ c') s''
  | still {r : Rule ι V} {s s' : ParseState ι V} {l : List Event} {c : List V}
    (h : Proceeds g r s l (some c, s')) (hlt : ¬ s.position < s'.position) :
    Continues g r s l 1 [] (s'.restore s.position)
  | fails {r : Rule ι V} {s s' : ParseState ι V} {l : List Event}
    (h : Proceeds g r s l (none, s')) :
    Continues g r s l 1 [] (s'.restore s.position)

end

namespace RuleGraph

variable {g : RuleGraph ι V}

mutual

/-- A trial has one course, and one thing comes out. -/
theorem Proceeds.unique : ∀ {rule : Rule ι V} {s : ParseState ι V} {l l' : List Event}
    {out out' : Option (List V) × ParseState ι V},
    g.Proceeds rule s l out → g.Proceeds rule s l' out' → l = l' ∧ out = out'
  | _, _, _, _, _, _, .kind k s, h' => by cases h'; exact ⟨rfl, rfl⟩
  | _, _, _, _, _, _, .verbatim text s, h' => by cases h'; exact ⟨rfl, rfl⟩
  | _, _, _, _, _, _, .nothing s, h' => by cases h'; exact ⟨rfl, rfl⟩
  | _, _, _, _, _, _, .never s, h' => by cases h'; exact ⟨rfl, rfl⟩
  | _, _, _, _, _, _, .seqFailsLeft t h, h' => by
    cases h' with
    | seqFailsLeft _ h₁ =>
      obtain ⟨rfl, rfl⟩ := eq_of_fails (h.unique h₁)
      exact ⟨rfl, rfl⟩
    | seqFailsRight h₁ h₂ => exact not_fails_and_reads (h.unique h₁)
    | seqReads h₁ h₂ => exact not_fails_and_reads (h.unique h₁)
  | _, _, _, _, _, _, .seqFailsRight h₁ h₂, h' => by
    cases h' with
    | seqFailsLeft _ h₁' => exact not_reads_and_fails (h₁.unique h₁')
    | seqFailsRight h₁' h₂' =>
      obtain ⟨rfl, rfl, rfl⟩ := eq_of_reads (h₁.unique h₁')
      obtain ⟨rfl, rfl⟩ := eq_of_fails (h₂.unique h₂')
      exact ⟨rfl, rfl⟩
    | seqReads h₁' h₂' =>
      obtain ⟨rfl, rfl, rfl⟩ := eq_of_reads (h₁.unique h₁')
      exact not_fails_and_reads (h₂.unique h₂')
  | _, _, _, _, _, _, .seqReads h₁ h₂, h' => by
    cases h' with
    | seqFailsLeft _ h₁' => exact not_reads_and_fails (h₁.unique h₁')
    | seqFailsRight h₁' h₂' =>
      obtain ⟨rfl, rfl, rfl⟩ := eq_of_reads (h₁.unique h₁')
      exact not_reads_and_fails (h₂.unique h₂')
    | seqReads h₁' h₂' =>
      obtain ⟨rfl, rfl, rfl⟩ := eq_of_reads (h₁.unique h₁')
      obtain ⟨rfl, rfl, rfl⟩ := eq_of_reads (h₂.unique h₂')
      exact ⟨rfl, rfl⟩
  | _, _, _, _, _, _, .choiceLeft t h, h' => by
    cases h' with
    | choiceLeft _ h₁ => exact h.unique h₁
    | choiceRight h₁ h₂ => exact not_reads_and_fails (h.unique h₁)
    | choiceFails h₁ h₂ => exact not_reads_and_fails (h.unique h₁)
  | _, _, _, _, _, _, .choiceRight h₁ h₂, h' => by
    cases h' with
    | choiceLeft _ h₁' => exact not_fails_and_reads (h₁.unique h₁')
    | choiceRight h₁' h₂' =>
      obtain ⟨rfl, rfl⟩ := eq_of_fails (h₁.unique h₁')
      obtain ⟨rfl, rfl, rfl⟩ := eq_of_reads (h₂.unique h₂')
      exact ⟨rfl, rfl⟩
    | choiceFails h₁' h₂' =>
      obtain ⟨rfl, rfl⟩ := eq_of_fails (h₁.unique h₁')
      exact not_reads_and_fails (h₂.unique h₂')
  | _, _, _, _, _, _, .choiceFails h₁ h₂, h' => by
    cases h' with
    | choiceLeft _ h₁' => exact not_fails_and_reads (h₁.unique h₁')
    | choiceRight h₁' h₂' =>
      obtain ⟨rfl, rfl⟩ := eq_of_fails (h₁.unique h₁')
      exact not_fails_and_reads (h₂.unique h₂')
    | choiceFails h₁' h₂' =>
      obtain ⟨rfl, rfl⟩ := eq_of_fails (h₁.unique h₁')
      obtain ⟨rfl, rfl⟩ := eq_of_fails (h₂.unique h₂')
      exact ⟨rfl, rfl⟩
  | _, _, _, _, _, _, .plusFails h, h' => by
    cases h' with
    | plusFails h₁ =>
      obtain ⟨rfl, rfl⟩ := eq_of_fails (h.unique h₁)
      exact ⟨rfl, rfl⟩
    | plusReads h₁ h₂ => exact not_fails_and_reads (h.unique h₁)
  | _, _, _, _, _, _, .plusReads h₁ h₂, h' => by
    cases h' with
    | plusFails h₁' => exact not_reads_and_fails (h₁.unique h₁')
    | plusReads h₁' h₂' =>
      obtain ⟨rfl, rfl, rfl⟩ := eq_of_reads (h₁.unique h₁')
      obtain ⟨rfl, rfl, rfl, rfl⟩ := h₂.unique h₂'
      exact ⟨rfl, rfl⟩
  | _, _, _, _, _, _, .optionalReads h, h' => by
    cases h' with
    | optionalReads h₁ => exact h.unique h₁
    | optionalFails h₁ => exact not_reads_and_fails (h.unique h₁)
  | _, _, _, _, _, _, .optionalFails h, h' => by
    cases h' with
    | optionalReads h₁ => exact not_fails_and_reads (h.unique h₁)
    | optionalFails h₁ =>
      obtain ⟨rfl, rfl⟩ := eq_of_fails (h.unique h₁)
      exact ⟨rfl, rfl⟩
  | _, _, _, _, _, _, .nodeReads h hv, h' => by
    cases h' with
    | nodeReads h₁ hv₁ =>
      obtain ⟨rfl, rfl, rfl⟩ := eq_of_reads (h.unique h₁)
      obtain rfl := Option.some.inj (hv.symm.trans hv₁)
      exact ⟨rfl, rfl⟩
    | nodeRejects h₁ hv₁ =>
      obtain ⟨rfl, rfl, rfl⟩ := eq_of_reads (h.unique h₁)
      exact absurd (hv.symm.trans hv₁) (by simp)
    | nodeFails _ h₁ => exact not_reads_and_fails (h.unique h₁)
  | _, _, _, _, _, _, .nodeRejects h hv, h' => by
    cases h' with
    | nodeReads h₁ hv₁ =>
      obtain ⟨rfl, rfl, rfl⟩ := eq_of_reads (h.unique h₁)
      exact absurd (hv.symm.trans hv₁) (by simp)
    | nodeRejects h₁ hv₁ =>
      obtain ⟨rfl, rfl, rfl⟩ := eq_of_reads (h.unique h₁)
      exact ⟨rfl, rfl⟩
    | nodeFails _ h₁ => exact not_reads_and_fails (h.unique h₁)
  | _, _, _, _, _, _, .nodeFails _ h, h' => by
    cases h' with
    | nodeReads h₁ hv₁ => exact not_fails_and_reads (h.unique h₁)
    | nodeRejects h₁ hv₁ => exact not_fails_and_reads (h.unique h₁)
    | nodeFails _ h₁ => exact h.unique h₁
  | _, _, _, _, _, _, .unmemoized hm h, h' => by
    cases h' with
    | unmemoized _ h₁ => exact h.unique h₁
    | rememberedRead _ hm' => exact absurd hm' hm
    | rememberedFailure _ hm' => exact absurd hm' hm
    | memoized hm' => exact absurd hm' hm
  | _, _, _, _, _, _, .rememberedRead _ hm h, h' => by
    cases h' with
    | unmemoized hm' => exact absurd hm hm'
    | rememberedRead _ _ h₁ =>
      obtain ⟨rfl, rfl⟩ : _ ∧ _ := by simpa using h.symm.trans h₁
      exact ⟨rfl, rfl⟩
    | rememberedFailure _ _ h₁ => exact absurd (h.symm.trans h₁) (by simp)
    | memoized _ h₁ => exact absurd (h.symm.trans h₁) (by simp)
  | _, _, _, _, _, _, .rememberedFailure _ hm h, h' => by
    cases h' with
    | unmemoized hm' => exact absurd hm hm'
    | rememberedRead _ _ h₁ => exact absurd (h.symm.trans h₁) (by simp)
    | rememberedFailure => exact ⟨rfl, rfl⟩
    | memoized _ h₁ => exact absurd (h.symm.trans h₁) (by simp)
  | _, _, _, _, _, _, .memoized hm h h₁, h' => by
    cases h' with
    | unmemoized hm' => exact absurd hm hm'
    | rememberedRead _ _ h' => exact absurd (h.symm.trans h') (by simp)
    | rememberedFailure _ _ h' => exact absurd (h.symm.trans h') (by simp)
    | memoized _ _ h₁' =>
      obtain ⟨rfl, hout⟩ := h₁.unique h₁'
      obtain ⟨rfl, rfl⟩ := Prod.mk.inj hout
      exact ⟨rfl, rfl⟩
  | _, _, _, _, _, _, .openReference s h, h' => by
    cases h' with
    | openReference => exact ⟨rfl, rfl⟩
    | refusedReference h₁ => exact absurd (h.symm.trans h₁) (by simp)
    | reference h₁ => exact absurd (h.symm.trans h₁) (by simp)
  | _, _, _, _, _, _, .refusedReference h hs, h' => by
    cases h' with
    | openReference _ h₁ => exact absurd (h.symm.trans h₁) (by simp)
    | refusedReference _ hs' =>
      obtain ⟨-, rfl⟩ := Prod.mk.inj (hs.symm.trans hs')
      exact ⟨rfl, rfl⟩
    | reference _ hs' => exact absurd (hs.symm.trans hs') (by simp)
  | _, _, _, _, _, _, .reference h hs h₁, h' => by
    cases h' with
    | openReference _ h₂ => exact absurd (h.symm.trans h₂) (by simp)
    | refusedReference _ hs' => exact absurd (hs.symm.trans hs') (by simp)
    | reference h₂ hs' h₁' =>
      obtain rfl := Option.some.inj (h.symm.trans h₂)
      obtain ⟨-, rfl⟩ := Prod.mk.inj (hs.symm.trans hs')
      obtain ⟨rfl, hout⟩ := h₁.unique h₁'
      obtain ⟨rfl, rfl⟩ := Prod.mk.inj hout
      exact ⟨rfl, rfl⟩

theorem Continues.unique : ∀ {r : Rule ι V} {s s' s'' : ParseState ι V} {l l' : List Event}
    {n n' : Nat} {c c' : List V}, g.Continues r s l n c s' → g.Continues r s l' n' c' s'' →
      l = l' ∧ n = n' ∧ c = c' ∧ s' = s''
  | _, _, _, _, _, _, _, _, _, _, .next h₁ hlt h₂, h' => by
    cases h' with
    | next h₁' _ h₂' =>
      obtain ⟨rfl, rfl, rfl⟩ := eq_of_reads (h₁.unique h₁')
      obtain ⟨rfl, rfl, rfl, rfl⟩ := h₂.unique h₂'
      exact ⟨rfl, rfl, rfl, rfl⟩
    | still h₁' hlt' =>
      obtain ⟨rfl, rfl, rfl⟩ := eq_of_reads (h₁.unique h₁')
      exact absurd hlt hlt'
    | fails h₁' => exact not_reads_and_fails (h₁.unique h₁')
  | _, _, _, _, _, _, _, _, _, _, .still h hlt, h' => by
    cases h' with
    | next h₁ hlt' _ =>
      obtain ⟨rfl, rfl, rfl⟩ := eq_of_reads (h.unique h₁)
      exact absurd hlt' hlt
    | still h₁ _ =>
      obtain ⟨rfl, rfl, rfl⟩ := eq_of_reads (h.unique h₁)
      exact ⟨rfl, rfl, rfl, rfl⟩
    | fails h₁ => exact not_reads_and_fails (h.unique h₁)
  | _, _, _, _, _, _, _, _, _, _, .fails h, h' => by
    cases h' with
    | next h₁ _ _ => exact not_fails_and_reads (h.unique h₁)
    | still h₁ _ => exact not_fails_and_reads (h.unique h₁)
    | fails h₁ =>
      obtain ⟨rfl, rfl⟩ := eq_of_fails (h.unique h₁)
      exact ⟨rfl, rfl, rfl, rfl⟩

end

end RuleGraph

end Precedence
