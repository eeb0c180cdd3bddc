import Precedence.Proofs.Classifier.Segments
import Precedence.Proofs.Regex.Shapes

/-!
# Patterns between word boundaries

The numerals and the words stand between word boundaries (`Grammar.framed`). What stands in front of
an expression in print and behind it goes on with no word (`Grammar.Opening.not_word`,
`Grammar.Closing.not_word`).
-/

namespace Precedence

open Regex

namespace Grammar

open Text TokenPattern

/-! ### Words and what is around them -/

theorem not_any_of_forall {α : Type} {p : α → Bool} {o : Option α} (h : ∀ a ∈ o, p a = false) :
    o.any p = false := by
  rcases o with _ | a
  · rfl
  · exact h a rfl

section Edges

variable {before : Option Char} {w rest : List Char}

theorem edge_of_word (hbefore : before.any Unicode.isWord = false)
    (hw : w.head?.any Unicode.isWord = true) : Edge before (w ++ rest) := by
  rcases w with _ | ⟨c, w⟩
  · exact absurd hw (by decide)
  · have hc : Unicode.isWord c = true := hw
    simp [Edge, hbefore, hc]

theorem edge_of_last_word (hrest : rest.head?.any Unicode.isWord = false)
    (hw : w.getLast?.any Unicode.isWord = true) : Edge w.getLast? rest := by
  simp [Edge, hrest, hw]

/-- There is a word boundary in front of a word only if none goes on there. -/
theorem not_word_of_edge (h : Edge before (w ++ rest)) (hw : w.head?.any Unicode.isWord = true) :
    before.any Unicode.isWord = false := by
  rcases w with _ | ⟨c, w⟩
  · exact absurd hw (by decide)
  · have hc : Unicode.isWord c = true := hw
    simpa [Edge, hc] using h

theorem not_word_of_last_edge (h : Edge w.getLast? rest)
    (hw : w.getLast?.any Unicode.isWord = true) : rest.head?.any Unicode.isWord = false := by
  simpa [Edge, hw] using h

end Edges

/-! ### Patterns between word boundaries -/

/-- An expression between word boundaries, as the only group. -/
def framed (r : Regex) : Pattern :=
  ⟨phrase [boundary, .group 1 r, boundary], 1⟩

section Framed

variable {kind : TokenKind} {source : String} {r : Regex} {before : Option Char}

theorem framed_sound {text : List Char} {s : Segment} {L : List Char → Prop}
    (hr : ∀ s t, Reads r s t →
      ∃ w rest, s.rest = w ++ rest ∧ L w ∧ t = s.past w rest)
    (h : TokenPattern.segment? ⟨kind, source, framed r⟩ before text = some s) :
    ∃ w rest, text = w ++ rest ∧ L w ∧ w ≠ [] ∧ Edge before text ∧ Edge w.getLast? rest ∧
      s = ⟨kind, w, [some w], rest⟩ := by
  obtain ⟨t, hfind, hused, -⟩ := segment?_eq_some_iff.mp h
  obtain ⟨t', hread, ht⟩ := find_sound _ _ _ _ hfind
  obtain rfl := Option.some.inj ht
  obtain ⟨m₁, ⟨hfront, rfl⟩, m₂, ⟨m, hm, rfl⟩, m₃, ⟨hback, rfl⟩, rfl⟩ := hread
  obtain ⟨w, rest, htext, hw, rfl⟩ := hr _ _ hm
  obtain rfl : text = w ++ rest := htext
  have hne : w ≠ [] := fun h0 => hused (by rw [h0]; rfl)
  refine ⟨w, rest, rfl, hw, hne, hfront, ?_, Option.some.inj (h.symm.trans ?_)⟩
  · rw [← getLast?_or hne before]
    exact hback
  · rw [segment?_of_find hne hfind (by simp [spot, Spot.past, Spot.close])]
    simp [framed, capturesOf, spot, Spot.past, Spot.close]

theorem framed_complete {w rest : List Char} (hne : w ≠ [])
    (hr : ∀ k : Spot → Option Spot, (k ((spot before (w ++ rest)).past w rest)).isSome →
      find r k (spot before (w ++ rest)) = k ((spot before (w ++ rest)).past w rest))
    (hfront : Edge before (w ++ rest)) (hback : Edge w.getLast? rest) :
    TokenPattern.segment? ⟨kind, source, framed r⟩ before (w ++ rest) =
      some ⟨kind, w, [some w], rest⟩ := by
  have hclose : ∀ t : Spot, t.before = w.getLast?.or before → t.rest = rest →
      find (phrase [boundary]) some t = some t := by
    intro t hbefore hrest
    rw [find_phrase_cons, find_boundary (by rwa [hbefore, getLast?_or hne, hrest]), find_phrase_nil]
  have hfind : (framed r).body.find some (spot before (w ++ rest)) =
      some (((spot before (w ++ rest)).past w rest).close 1 0) := by
    show find (phrase _) _ _ = _
    rw [find_phrase_cons, find_boundary hfront, find_phrase_cons, find_group,
      hr _ (by rw [hclose _ rfl rfl]; rfl), hclose _ rfl rfl]
    rfl
  rw [segment?_of_find hne hfind (by simp [spot, Spot.past, Spot.close])]
  simp [framed, capturesOf, spot, Spot.past, Spot.close]

end Framed

/-! ### What stands around a token in print -/

/-- What can stand in front of an expression in print. -/
def Opening (before : Option Char) : Prop :=
  ∀ c ∈ before, c = ' ' ∨ c = '('

/-- What can stand behind an expression in print. -/
def Closing (rest : List Char) : Prop :=
  ∀ c ∈ rest.head?, c = ' ' ∨ c = ')' ∨ c = ','

theorem opening_none : Opening none :=
  fun _ hc => nomatch hc

theorem opening_blank : Opening (some ' ') :=
  fun _ hc => Or.inl (Option.some.inj hc).symm

theorem opening_bracket : Opening (some '(') :=
  fun _ hc => Or.inr (Option.some.inj hc).symm

theorem closing_nil : Closing [] :=
  fun _ hc => nomatch hc

theorem closing_blank (rest : List Char) : Closing (' ' :: rest) :=
  fun _ hc => Or.inl (Option.some.inj hc).symm

theorem closing_bracket (rest : List Char) : Closing (')' :: rest) :=
  fun _ hc => Or.inr (Or.inl (Option.some.inj hc).symm)

theorem closing_comma (rest : List Char) : Closing (',' :: rest) :=
  fun _ hc => Or.inr (Or.inr (Option.some.inj hc).symm)

theorem Opening.not_word {before : Option Char} (h : Opening before) :
    before.any Unicode.isWord = false := by
  rcases before with _ | c
  · rfl
  · rcases h c rfl with rfl | rfl <;> rfl

theorem Closing.not_mem {rest : List Char} (h : Closing rest) {p : Char → Bool}
    (hp : (p ' ' || p ')' || p ',') = false) : ∀ c ∈ rest.head?, p c = false := by
  intro c hc
  simp only [Bool.or_eq_false_iff] at hp
  rcases h c hc with rfl | rfl | rfl
  · exact hp.1.1
  · exact hp.1.2
  · exact hp.2

theorem Closing.not_word {rest : List Char} (h : Closing rest) :
    rest.head?.any Unicode.isWord = false :=
  not_any_of_forall (h.not_mem (by decide))

end Grammar

end Precedence
