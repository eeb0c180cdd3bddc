import Precedence.Proofs.Grammar.Segments

/-!
# Segments between quotes

A pattern for quoted texts takes a segment exactly where a quote is followed by what can stand
between quotes and by another quote of the kind (`quoted_segment_iff`), whatever stands around it.
-/

namespace Precedence

namespace Grammar

open Regex TokenPattern

variable {before : Option Char} {text : List Char} {s : Segment}

/-- What needs no backslash in front between quotes of this kind. -/
def unescaped (quote : Char) : CharSet :=
  noneOf [.single quote, .single '\\']

theorem contains_unescaped {quote c : Char} :
    (unescaped quote).contains c = true ↔ c ≠ quote ∧ c ≠ '\\' := by
  simp only [unescaped, contains_noneOf, List.any_cons, List.any_nil, CharSet.contains_single,
    Bool.or_false, Bool.not_eq_true', Bool.or_eq_false_iff, beq_eq_false_iff_ne]
  exact ⟨fun h => ⟨h.1.symm, h.2.symm⟩, fun h => ⟨h.1.symm, h.2.symm⟩⟩

/-- Characters with a backslash in front, each with a stretch that needs none. -/
inductive Escapes (quote : Char) : List Char → Prop
  | nil : Escapes quote []
  | cons (c : Char) (hc : c ≠ '\n') (w : List Char)
    (hw : ∀ d ∈ w, (unescaped quote).contains d = true) (rest : List Char)
    (h : Escapes quote rest) :
    Escapes quote ('\\' :: c :: (w ++ rest))

/-- What can stand between two quotes of this kind. -/
def IsQuoted (quote : Char) (body : List Char) : Prop :=
  ∃ w escapes, body = w ++ escapes ∧ (∀ c ∈ w, (unescaped quote).contains c = true) ∧
    Escapes quote escapes

theorem IsQuoted.nil {quote : Char} : IsQuoted quote [] :=
  ⟨[], [], rfl, by simp, .nil⟩

theorem IsQuoted.cons {quote c : Char} {body : List Char} (hc : c ≠ quote ∧ c ≠ '\\')
    (h : IsQuoted quote body) : IsQuoted quote (c :: body) := by
  obtain ⟨w, escapes, rfl, hw, he⟩ := h
  refine ⟨c :: w, escapes, rfl, fun d hd => ?_, he⟩
  rcases List.mem_cons.mp hd with rfl | hd
  · exact contains_unescaped.mpr hc
  · exact hw d hd

theorem IsQuoted.append {quote : Char} {body : List Char} (h : IsQuoted quote body) :
    ∀ {w : List Char}, (∀ c ∈ w, c ≠ quote ∧ c ≠ '\\') → IsQuoted quote (w ++ body)
  | [], _ => h
  | c :: _, hw => (h.append fun d hd => hw d (List.mem_cons_of_mem c hd)).cons
    (hw c List.mem_cons_self)

theorem IsQuoted.escape {quote c : Char} {body : List Char} (hc : c ≠ '\n')
    (h : IsQuoted quote body) : IsQuoted quote ('\\' :: c :: body) := by
  obtain ⟨w, escapes, rfl, hw, he⟩ := h
  exact ⟨[], _, rfl, by simp, .cons c hc w hw escapes he⟩

/-- One character with a backslash in front, and the stretch behind it. -/
def escapeForm (quote : Char) : Regex :=
  phrase [.char (.single '\\'), .char (.compl (.single '\n')), many (unescaped quote)]

theorem reads_escapeForm {quote : Char} {s t : Spot} (h : Reads (escapeForm quote) s t) :
    ∃ c w rest, s.rest = '\\' :: c :: (w ++ rest) ∧ c ≠ '\n' ∧
      (∀ d ∈ w, (unescaped quote).contains d = true) ∧ t = s.past ('\\' :: c :: w) rest := by
  obtain ⟨m₁, h₁, m₂, h₂, m₃, h₃, ht⟩ := h
  obtain rfl : t = m₃ := ht
  obtain ⟨b, rest₁, hs, hb, rfl⟩ := reads_char h₁
  obtain ⟨c, rest₂, hm₁, hc, rfl⟩ := reads_char h₂
  obtain ⟨w, rest, hm₂, hw, rfl⟩ := reads_many h₃
  obtain rfl : rest₁ = c :: rest₂ := hm₁
  obtain rfl : rest₂ = w ++ rest := hm₂
  obtain rfl : '\\' = b := by simpa using hb
  refine ⟨c, w, rest, hs, ?_, hw, by rw [Spot.past_past, Spot.past_past]; rfl⟩
  rintro rfl
  simp [CharSet.contains] at hc

theorem rounds_escapeForm {quote : Char} : ∀ {n : Nat} {s t : Spot},
    Rounds (Reads (escapeForm quote)) n s t →
      ∃ w rest, s.rest = w ++ rest ∧ Escapes quote w ∧ t = s.past w rest
  | 0, s, _, rfl => ⟨[], s.rest, rfl, .nil, s.past_nil.symm⟩
  | n + 1, s, t, ⟨m, hm, h⟩ => by
    obtain ⟨c, w, rest, hs, hc, hw, rfl⟩ := reads_escapeForm hm
    obtain ⟨v, rest', hrest, hv, rfl⟩ := rounds_escapeForm h
    obtain rfl : rest = v ++ rest' := hrest
    refine ⟨'\\' :: c :: (w ++ v), rest', by simp [hs], .cons c hc w hw v hv, ?_⟩
    rw [Spot.past_past]
    rfl

theorem reads_quotedBody {quote : Char} {s t : Spot} (h : Reads (quotedBody quote) s t) :
    ∃ body rest, s.rest = body ++ rest ∧ IsQuoted quote body ∧ t = s.past body rest := by
  obtain ⟨m₁, h₁, m₂, ⟨n, -, -, h₂⟩, ht⟩ := h
  obtain rfl : t = m₂ := ht
  obtain ⟨w, rest₁, hs, hw, rfl⟩ := reads_many h₁
  obtain ⟨v, rest, hrest, hv, rfl⟩ := rounds_escapeForm h₂
  obtain rfl : rest₁ = v ++ rest := hrest
  exact ⟨w ++ v, rest, by simp [hs], ⟨w, v, rfl, hw, hv⟩, Spot.past_past s w v _ _⟩

section Found

variable {α : Type} {k : Spot → Option α} {quote : Char}

/-- Behind a stretch comes a backslash or the closing quote. -/
theorem Escapes.head {e : List Char} (h : Escapes quote e) (rest : List Char) :
    ∀ c ∈ (e ++ quote :: rest).head?, (unescaped quote).contains c = false := by
  intro c hc
  rw [Bool.eq_false_iff]
  intro hu
  rw [contains_unescaped] at hu
  cases h with
  | nil => exact hu.1 (Option.some.inj hc).symm
  | cons => exact hu.2 (Option.some.inj hc).symm

theorem find_escapeForm {s : Spot} {c : Char} {w rest : List Char}
    (hs : s.rest = '\\' :: c :: (w ++ rest)) (hc : c ≠ '\n')
    (hw : ∀ d ∈ w, (unescaped quote).contains d = true)
    (hrest : ∀ d ∈ rest.head?, (unescaped quote).contains d = false)
    (hk : (k (s.past ('\\' :: c :: w) rest)).isSome) :
    find (escapeForm quote) k s = k (s.past ('\\' :: c :: w) rest) := by
  have hbehind : ((s.past ['\\'] (c :: (w ++ rest))).past [c] (w ++ rest)).past w rest =
      s.past ('\\' :: c :: w) rest := by
    rw [Spot.past_past, Spot.past_past]
    rfl
  have hc' : (CharSet.compl (.single '\n')).contains c = true := by
    simpa [CharSet.contains] using fun h => hc h.symm
  rw [escapeForm, find_phrase_cons, find_char hs (by simp), find_phrase_cons, find_char rfl hc',
    find_phrase_cons]
  rw [← hbehind] at hk ⊢
  exact find_many rfl hw hrest hk

theorem find_escapeForm_none {s : Spot} {rest : List Char} (hs : s.rest = quote :: rest)
    (hq : quote ≠ '\\') : find (escapeForm quote) k s = none := by
  refine find_char_none fun c hc => ?_
  rw [hs] at hc
  obtain rfl := Option.some.inj hc
  simpa using hq.symm

section Rounds

variable {body : Search α} {s m : Spot}

theorem many_succ_eq {n : Nat} (hbody : ∀ k : Spot → Option α, (k m).isSome → body k s = k m)
    (hm : s.used < m.used) (hk : (Search.many true body k n m).isSome) :
    Search.many true body k (n + 1) s = Search.many true body k n m := by
  obtain ⟨x, hx⟩ := Option.isSome_iff_exists.mp hk
  have hround := hbody (fun t => if s.used < t.used then Search.many true body k n t else none)
    (by rw [if_pos hm]; exact hk)
  rw [Search.many, Search.prefer, if_pos rfl, hround, if_pos hm, hx]
  rfl

theorem plus_eq (hbody : ∀ k : Spot → Option α, (k m).isSome → body k s = k m)
    (hm : s.used < m.used) (hk : (Search.many true body k m.rest.length m).isSome) :
    Search.plus true body k s = Search.many true body k m.rest.length m := by
  have hround := hbody
    (fun t => if s.used < t.used then Search.many true body k t.rest.length t else k t)
    (by rw [if_pos hm]; exact hk)
  rw [Search.plus, hround, if_pos hm]

end Rounds

variable {e rest : List Char}

/-- All the characters with a backslash in front, up to the closing quote. -/
theorem many_escapeForm (he : Escapes quote e) (hq : quote ≠ '\\') :
    ∀ {n : Nat} {s : Spot}, e.length ≤ n → s.rest = e ++ quote :: rest →
      (k (s.past e (quote :: rest))).isSome →
      Search.many true (find (escapeForm quote)) k n s = k (s.past e (quote :: rest)) := by
  induction he with
  | nil =>
    intro n s _ hs hk
    have hs' : s.past [] (quote :: rest) = s := by
      rw [show quote :: rest = s.rest from hs.symm, s.past_nil]
    rw [hs']
    rcases n with _ | n
    · rfl
    · rw [Search.many, Search.prefer, if_pos rfl, find_escapeForm_none hs hq]
      rfl
  | cons c hc w hw e he ih =>
    intro n s hn hs hk
    rcases n with _ | n
    · exact absurd hn (by simp)
    have hs' : s.rest = '\\' :: c :: (w ++ (e ++ quote :: rest)) := by simpa using hs
    have hbehind : (s.past ('\\' :: c :: w) (e ++ quote :: rest)).past e (quote :: rest) =
        s.past ('\\' :: c :: (w ++ e)) (quote :: rest) := Spot.past_past ..
    rw [← hbehind] at hk ⊢
    have hmany := ih (n := n) (by simp at hn; omega) rfl hk
    rw [← hmany] at hk
    rw [many_succ_eq (fun k hk => find_escapeForm hs' hc hw (he.head rest) hk)
      (by simp [Spot.past]) hk, hmany]

/-- The same, where there need not be any. -/
theorem find_escapes {s : Spot} (he : Escapes quote e) (hq : quote ≠ '\\')
    (hs : s.rest = e ++ quote :: rest) (hk : (k (s.past e (quote :: rest))).isSome) :
    find (.repeated true 0 none (escapeForm quote)) k s = k (s.past e (quote :: rest)) := by
  rw [find_repeated_zero (fun _ => Regex.noConfusion), Search.prefer, if_pos rfl]
  cases he with
  | nil =>
    rw [Search.plus, find_escapeForm_none hs hq, show quote :: rest = s.rest from hs.symm,
      s.past_nil]
    rfl
  | cons c hc w hw e he =>
    have hs' : s.rest = '\\' :: c :: (w ++ (e ++ quote :: rest)) := by simpa using hs
    have hbehind : (s.past ('\\' :: c :: w) (e ++ quote :: rest)).past e (quote :: rest) =
        s.past ('\\' :: c :: (w ++ e)) (quote :: rest) := Spot.past_past ..
    rw [← hbehind] at hk ⊢
    have hmany := many_escapeForm he hq (n := (e ++ quote :: rest).length) (by simp) rfl hk
    rw [← hmany] at hk
    rw [plus_eq (fun k hk => find_escapeForm hs' hc hw (he.head rest) hk)
      (by simp [Spot.past]) hk]
    obtain ⟨x, hx⟩ := Option.isSome_iff_exists.mp hk
    rw [← hmany]
    exact (congrArg (· <|> k s) hx).trans hx.symm

/-- All that can stand between two quotes, up to the closing one. -/
theorem find_quotedBody {s : Spot} {body : List Char} (hbody : IsQuoted quote body)
    (hq : quote ≠ '\\') (hs : s.rest = body ++ quote :: rest)
    (hk : (k (s.past body (quote :: rest))).isSome) :
    find (quotedBody quote) k s = k (s.past body (quote :: rest)) := by
  obtain ⟨w, e, rfl, hw, he⟩ := hbody
  have hbehind : (s.past w (e ++ quote :: rest)).past e (quote :: rest) =
      s.past (w ++ e) (quote :: rest) := Spot.past_past ..
  rw [← hbehind] at hk ⊢
  have hescapes := find_escapes he hq rfl hk
  rw [← hescapes] at hk ⊢
  exact find_many (by simp [hs]) hw (he.head rest) hk

end Found

/-- A segment between two quotes of this kind. -/
theorem quoted_segment_iff {quote : Char} {source : String} (hq : quote ≠ '\\') :
    TokenPattern.segment? ⟨.string, source, quotedForm quote⟩ before text = some s ↔
      ∃ body rest, text = quote :: (body ++ quote :: rest) ∧ IsQuoted quote body ∧
        s = ⟨.string, quote :: (body ++ [quote]), [some body], rest⟩ := by
  have hgives : ∀ {body rest t}, text = quote :: (body ++ quote :: rest) →
      (quotedForm quote).body.find some (spot before text) = some t →
      t.used = body.length + 2 → t.groups = [(1, 1, 1 + body.length)] →
      TokenPattern.segment? ⟨.string, source, quotedForm quote⟩ before text =
        some ⟨.string, quote :: (body ++ [quote]), [some body], rest⟩ := by
    intro body rest t htext hfind hused hgroups
    have htext' : text = quote :: (body ++ [quote]) ++ rest := by simp [htext]
    subst htext'
    rw [segment?_of_find (List.cons_ne_nil _ _) hfind (by simp [hused])]
    simp [quotedForm, capturesOf, hgroups, Nat.add_comm 1]
  constructor
  · intro h
    obtain ⟨t, hfind, -, -⟩ := segment?_eq_some_iff.mp h
    obtain ⟨t', hread, ht⟩ := find_sound _ _ _ _ hfind
    obtain rfl := Option.some.inj ht
    obtain ⟨m₁, h₁, m₂, ⟨m, hm, h₂⟩, m₃, h₃, ht⟩ := hread
    obtain rfl : t' = m₃ := ht
    obtain ⟨b, rest₁, htext, hb, rfl⟩ := reads_char h₁
    obtain ⟨body, rest₂, hrest₁, hbody, rfl⟩ := reads_quotedBody hm
    obtain rfl : rest₁ = body ++ rest₂ := hrest₁
    subst h₂
    obtain ⟨c, rest, hrest₂, hc, rfl⟩ := reads_char h₃
    obtain rfl : rest₂ = c :: rest := hrest₂
    obtain rfl : quote = b := by simpa using hb
    obtain rfl : quote = c := by simpa using hc
    refine ⟨body, rest, htext, hbody, Option.some.inj (h.symm.trans ?_)⟩
    exact hgives htext hfind (by simp [spot, Spot.past, Spot.close]; omega) rfl
  · rintro ⟨body, rest, htext, hbody, rfl⟩
    have hq' : (CharSet.single quote).contains quote = true := by simp
    have hlast : ∀ m : Spot, m.rest = quote :: rest →
        find (phrase [char (.single quote)]) some m = some (m.past [quote] rest) := by
      intro m hm
      rw [find_phrase_cons, find_char hm hq', find_phrase_nil]
    have hfind : (quotedForm quote).body.find some (spot before text) =
        some (((((spot before text).past [quote] (body ++ quote :: rest)).past body
          (quote :: rest)).close 1 1).past [quote] rest) := by
      show find (phrase _) _ _ = _
      rw [find_phrase_cons, find_char htext hq', find_phrase_cons, find_group,
        find_quotedBody hbody hq rfl (by rw [hlast _ rfl]; rfl), hlast _ rfl]
      rfl
    exact hgives htext hfind (by simp [spot, Spot.past, Spot.close]; omega) rfl

end Grammar

end Precedence
