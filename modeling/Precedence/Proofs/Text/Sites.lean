import Precedence.Failure
import Precedence.Proofs.Text.Positions

/-!
# Sites in a text

A site marks a piece of a text if its span is that of the piece (`Site.Marks`), and it is located
there if its position is that of the beginning of the piece too (`Site.Located`). A token that
stands in a text is located by its own span and position. The place behind it is told from these
alone, by adding up characters (`endSite`): it is the right one exactly if no line ends within the
token (`Token.Stands.endSite_position_iff`).
-/

namespace Precedence

open Text

/-- The span of the site is that of the piece `w` of the text, between `front` and `behind`. -/
structure Site.Marks (site : Site) (text front w behind : List Char) : Prop where
  whole : text = front ++ (w ++ behind)
  span : site.span = some ⟨byteLength front, byteLength (front ++ w)⟩

/-- The site marks a piece of the text, and its position is that of the beginning of the piece. -/
def Site.Located (site : Site) (text : List Char) : Prop :=
  ∃ front w behind, site.Marks text front w behind ∧
    site.position = positionBetween front (w ++ behind)

/-- The span of a site that marks a piece of a text lies in the text. -/
theorem Site.Marks.in_bounds {site : Site} {text front w behind : List Char}
    (h : site.Marks text front w behind) :
    ∃ span, site.span = some span ∧ span.start ≤ span.stop ∧ span.stop ≤ byteLength text := by
  refine ⟨_, h.span, ?_, ?_⟩
  · rw [byteLength_append]
    exact Nat.le_add_right _ _
  · rw [h.whole, ← List.append_assoc, byteLength_append (front ++ w)]
    exact Nat.le_add_right _ _

/-- The position and the span that are given when something fails. -/
def placeOf? {α : Type} (result : Except Failure α) : Option (Position × Option Span) :=
  match result with
  | .error failure => failure.site?.map fun site => (site.position, site.span)
  | .ok _ => none

theorem exists_of_placeOf? {α : Type} {result : Except Failure α} {place : Position × Option Span}
    (h : placeOf? result = some place) :
    ∃ failure site, result = .error failure ∧ failure.site? = some site ∧
      site.position = place.1 ∧ site.span = place.2 := by
  rcases result with failure | a
  · obtain ⟨site, hsite, rfl⟩ := Option.map_eq_some_iff.mp h
    exact ⟨failure, site, rfl, hsite, rfl, rfl⟩
  · simp [placeOf?] at h

/-- Where a token is. -/
def Token.site (t : Token) : Site :=
  { position := t.position, span := some t.span }

theorem Token.StandsIn.located {t : Token} {text : List Char} (h : t.StandsIn [] text) :
    t.site.Located text := by
  obtain ⟨front, behind, rfl, hstands⟩ := h
  exact ⟨front, t.text.toList, behind, ⟨rfl, congrArg some hstands.span⟩, hstands.position⟩

/-! ### Behind the last token -/

/-- The place behind the last token, told by that token. -/
def endSite (tokens : List Token) : Site :=
  match tokens.getLast? with
  | some last =>
    { position := ⟨last.position.line, last.position.column + last.text.length⟩
      span := some (.point last.span.stop) }
  | none => { position := ⟨1, 1⟩, span := some (.point 0) }

/-- No line begins in a piece of a text if it has no part of a line break; it must not end between
a carriage return and a line feed. -/
theorem lineStartsIn_eq_nil_iff (offset : Nat) {w : List Char} (behind : List Char)
    (hlast : ∀ c ∈ w.getLast?, InLine c) :
    lineStartsIn offset w behind = [] ↔ ∀ c ∈ w, InLine c := by
  induction w generalizing offset with
  | nil => simp [lineStartsIn]
  | cons c w ih =>
    have hlast' : ∀ d ∈ w.getLast?, InLine d := by
      intro d hd
      exact hlast d (by rw [List.getLast?_cons, Option.mem_def.mp hd]; rfl)
    rw [lineStartsIn, List.forall_mem_cons]
    by_cases hends : endsLine c (w ++ behind) = true
    · rw [if_pos hends]
      refine ⟨fun h => absurd h (List.cons_ne_nil _ _), fun h => ?_⟩
      rw [h.1.endsLine] at hends
      exact Bool.noConfusion hends
    rw [if_neg hends, ih _ hlast']
    refine ⟨fun hw => ⟨?_, hw⟩, And.right⟩
    -- a carriage return that ends no line is followed by a line feed, within the piece
    rcases w with _ | ⟨d, w⟩
    · exact hlast c rfl
    · have hd := hw d List.mem_cons_self
      simp only [endsLine, List.cons_append, List.head?_cons, Bool.or_eq_true, Bool.and_eq_true,
        beq_iff_eq, bne_iff_ne, not_or, not_and, ne_eq, Option.some.injEq,
        Decidable.not_not] at hends
      exact ⟨hends.1, fun hc => hd.1 (hends.2 hc)⟩

/-- Behind a piece that begins at `p` the position is told by counting its characters exactly if no
line ends in it. -/
theorem Position.past_eq_iff {p : Position} {w behind : List Char}
    (hlast : ∀ c ∈ w.getLast?, InLine c) :
    (⟨p.line, p.column + w.length⟩ : Position) = p.past w behind ↔ ∀ c ∈ w, InLine c := by
  refine ⟨fun h => ?_, fun h => (Position.past_of_inLine h p behind).symm⟩
  rw [← lineStartsIn_eq_nil_iff 0 behind hlast]
  rcases past_eq_or 0 p w behind with ⟨hnone, -⟩ | ⟨a, b, -, hbegun, hp⟩
  · exact hnone
  · rw [hp] at h
    have hline := congrArg Position.line h
    exact List.length_eq_zero_iff.mp (by simpa using hline)

section EndSite

variable {t : Token} {tokens : List Token} {text front behind : List Char}

theorem Token.Stands.endSite_marks (h : t.Stands front behind)
    (hlast : tokens.getLast? = some t) :
    (endSite tokens).Marks (front ++ (t.text.toList ++ behind)) (front ++ t.text.toList) []
      behind := by
  refine ⟨by simp, ?_⟩
  rw [endSite, hlast, List.append_nil]
  show some (Span.point t.span.stop) = _
  rw [h.span]
  rfl

theorem Token.Stands.endSite_position_iff (h : t.Stands front behind)
    (hlast : tokens.getLast? = some t) (hends : ∀ c ∈ t.text.toList.getLast?, InLine c) :
    (endSite tokens).position = positionBetween (front ++ t.text.toList) behind ↔
      ∀ c ∈ t.text.toList, InLine c := by
  rw [endSite, hlast, positionBetween_append, ← h.position, ← Position.past_eq_iff hends,
    String.length_toList]

theorem endSite_nil_located (text : List Char) : (endSite []).Located text :=
  ⟨[], [], text, ⟨rfl, rfl⟩, rfl⟩

/-- The end is located if the last token lies in one line. -/
theorem endSite_located (hstands : ∀ t ∈ tokens, t.StandsIn [] text)
    (hline : ∀ t ∈ tokens, ∀ c ∈ t.text.toList, InLine c) : (endSite tokens).Located text := by
  rcases hlast : tokens.getLast? with _ | t
  · obtain rfl := List.getLast?_eq_none_iff.mp hlast
    exact endSite_nil_located text
  · have ht := List.mem_of_getLast? hlast
    obtain ⟨front, behind, rfl, hstand⟩ := hstands t ht
    refine ⟨_, _, _, hstand.endSite_marks hlast, ?_⟩
    exact (hstand.endSite_position_iff hlast fun c hc =>
      hline t ht c (List.mem_of_getLast? hc)).mpr (hline t ht)

end EndSite

end Precedence
