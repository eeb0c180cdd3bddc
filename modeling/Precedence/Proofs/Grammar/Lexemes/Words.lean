import Precedence.Proofs.Grammar.Segments

/-!
# Segments of words and signs

A word stands between word boundaries. A verbatim segment is such a word, or a sign without a word
character at its end (`verbatim_segment`). An identifier goes on as far as it can
(`identifier_segment_iff`).
-/

namespace Precedence

namespace Grammar

open Regex TokenPattern

variable {before : Option Char} {text : List Char} {s : Segment}

/-! ### Words that stand for literals -/

def wordBody (words : List String) : Regex :=
  oneOf (words.map fun word => phrase (spelled word))

theorem reads_phrase_spelled {word : String} {s t : Spot} :
    Reads (phrase (spelled word)) s t ↔
      ∃ rest, s.rest = word.toList ++ rest ∧ t = s.past word.toList rest := by
  have h := reads_spelled word.toList [] (s := s) (t := t)
  rwa [List.append_nil] at h

theorem reads_wordBody {words : List String} (hne : words ≠ []) {s t : Spot} :
    Reads (wordBody words) s t ↔ ∃ word ∈ words, ∃ rest, s.rest = word.toList ++ rest ∧
      t = s.past word.toList rest := by
  rw [wordBody, reads_oneOf (by simpa using hne)]
  constructor
  · rintro ⟨r, hr, h⟩
    obtain ⟨word, hword, rfl⟩ := List.mem_map.mp hr
    exact ⟨word, hword, reads_phrase_spelled.mp h⟩
  · rintro ⟨word, hword, h⟩
    exact ⟨_, List.mem_map_of_mem hword, reads_phrase_spelled.mpr h⟩

theorem word_segment {words : List String} {kind : TokenKind} {source : String} (hne : words ≠ [])
    (h : TokenPattern.segment? ⟨kind, source, wordsForm words⟩ before text = some s) :
    ∃ word ∈ words, ∃ rest, text = word.toList ++ rest ∧ Edge before text ∧
      Edge word.toList.getLast? rest ∧ s = ⟨kind, word.toList, [some word.toList], rest⟩ := by
  obtain ⟨w, rest, htext, ⟨word, hword, rfl⟩, -, hfront, hback, rfl⟩ :=
    framed_sound (r := wordBody words) (L := fun w => ∃ word ∈ words, w = word.toList)
      (fun s t h => by
        obtain ⟨word, hword, rest, hs, ht⟩ := (reads_wordBody hne).mp h
        exact ⟨word.toList, rest, hs, ⟨word, hword, rfl⟩, ht⟩) h
  exact ⟨word, hword, rest, htext, hfront, hback, rfl⟩

/-- Between word boundaries a word is taken, if no two words begin with the same character. -/
theorem word_segment_of_edges {words : List String} {kind : TokenKind} {source word : String}
    {rest : List Char} (hplain : (wordBody words).plain = true)
    (hne : ∀ w ∈ words, w.toList ≠ [])
    (hdistinct : ∀ v ∈ words, ∀ w ∈ words, v.toList.head? = w.toList.head? → v = w)
    (hword : word ∈ words) (hfront : Edge before (word.toList ++ rest))
    (hback : Edge word.toList.getLast? rest) :
    TokenPattern.segment? ⟨kind, source, wordsForm words⟩ before (word.toList ++ rest) =
      some ⟨kind, word.toList, [some word.toList], rest⟩ := by
  have hwords := List.ne_nil_of_mem hword
  refine framed_complete (r := wordBody words) (hne word hword) (fun k hk => ?_) hfront hback
  have hsome := find_complete (wordBody words) k _ _ hplain
    ((reads_wordBody hwords).mpr ⟨word, hword, rest, rfl, rfl⟩) hk
  obtain ⟨x, hx⟩ := Option.isSome_iff_exists.mp hsome
  obtain ⟨t, hread, ht⟩ := find_sound _ _ _ _ hx
  obtain ⟨w, hw, rest', htext, rfl⟩ := (reads_wordBody hwords).mp hread
  have hhead : ∀ w ∈ words, ∀ rest, (w.toList ++ rest).head? = w.toList.head? := by
    intro w hw rest
    rw [List.head?_append, List.head?_eq_some_head (hne w hw)]
    rfl
  obtain rfl := hdistinct w hw word hword ((hhead w hw rest').symm.trans
    ((congrArg List.head? htext).symm.trans (hhead word hword rest)))
  obtain rfl : rest = rest' := List.append_cancel_left htext
  rw [hx, ht]

/-! ### Verbatim tokens -/

/-- The signs of more than one character. -/
def longSigns : List String :=
  ["=>", "...", "||", "&&", ">>>", ">>", "<<", "<=", ">="] ++
    ["===", "!==", "!=", "==", "++", "--"]

/-- The characters that are signs by themselves. -/
def singleSigns : CharSet :=
  anyOf ("\x7b\x7d[]().?:|&=,^%*/<>+-~!".toList.map .single)

/-- The words among the verbatim tokens. -/
def verbatimWords : List String :=
  ["typeof", "instanceof", "in"] ++ ["NOT", "ANY", "AND", "new"]

/-- What is tried before the signs of one character. -/
def longForms : List Regex :=
  (["=>", "...", "||", "&&", ">>>", ">>", "<<", "<=", ">="].map fun s => phrase (spelled s)) ++
    ["typeof", "instanceof", "in"].map word ++
    (["===", "!==", "!=", "==", "++", "--"].map fun s => phrase (spelled s)) ++
    ["NOT", "ANY", "AND", "new"].map word

def singleForm : Regex :=
  phrase [.char singleSigns]

theorem verbatims_eq : verbatims = longForms ++ [singleForm] :=
  rfl

theorem mem_longForms {r : Regex} : r ∈ longForms ↔
    (∃ text ∈ longSigns, phrase (spelled text) = r) ∨ ∃ text ∈ verbatimWords, word text = r := by
  simp only [longForms, longSigns, verbatimWords, List.mem_append, List.mem_map]
  constructor
  · rintro (((⟨w, hw, h⟩ | ⟨w, hw, h⟩) | ⟨w, hw, h⟩) | ⟨w, hw, h⟩)
    · exact Or.inl ⟨w, Or.inl hw, h⟩
    · exact Or.inr ⟨w, Or.inl hw, h⟩
    · exact Or.inl ⟨w, Or.inr hw, h⟩
    · exact Or.inr ⟨w, Or.inr hw, h⟩
  · rintro (⟨w, hw | hw, h⟩ | ⟨w, hw | hw, h⟩)
    · exact Or.inl (Or.inl (Or.inl ⟨w, hw, h⟩))
    · exact Or.inl (Or.inr ⟨w, hw, h⟩)
    · exact Or.inl (Or.inl (Or.inr ⟨w, hw, h⟩))
    · exact Or.inr ⟨w, hw, h⟩

theorem mem_verbatims {r : Regex} : r ∈ verbatims ↔
    (∃ text ∈ longSigns, phrase (spelled text) = r) ∨ (∃ text ∈ verbatimWords, word text = r) ∨
      singleForm = r := by
  rw [verbatims_eq, List.mem_append, mem_longForms, List.mem_singleton, or_assoc, eq_comm (a := r)]

theorem singleForm_not_mem : singleForm ∉ longForms := by
  rw [mem_longForms]
  rintro (⟨sign, hsign, heq⟩ | ⟨v, -, heq⟩)
  · have hlength : ∀ sign ∈ longSigns, 2 ≤ sign.toList.length := by decide
    have hlong := hlength sign hsign
    rcases hs : sign.toList with _ | ⟨c, _ | ⟨d, cs⟩⟩
    · exact absurd hlong (by simp [hs])
    · exact absurd hlong (by simp [hs])
    · rw [spelled, hs] at heq
      exact Regex.noConfusion (Regex.seq.inj heq).2
  · exact Regex.noConfusion (Regex.seq.inj heq).1

/-- In front of the signs of one character stands all the rest. -/
theorem front_of_singleForm {front back : List Regex}
    (h : verbatims = front ++ singleForm :: back) : front = longForms := by
  rw [verbatims_eq] at h
  rcases List.append_eq_append_iff.mp h with ⟨a, rfl, ha⟩ | ⟨a, hlong, ha⟩
  · rcases a with _ | ⟨r, a⟩
    · rw [List.append_nil]
    · exact absurd (congrArg List.length ha) (by simp)
  · rcases a with _ | ⟨r, a⟩
    · rw [hlong, List.append_nil]
    · obtain ⟨rfl, -⟩ := List.cons.inj ha
      exact absurd (by rw [hlong]; simp) singleForm_not_mem

theorem reads_word {text : String} {s t : Spot} :
    Reads (word text) s t ↔ Edge s.before s.rest ∧ ∃ rest, s.rest = text.toList ++ rest ∧
      Edge (text.toList.getLast?.or s.before) rest ∧ t = s.past text.toList rest := by
  constructor
  · rintro ⟨m, ⟨hfront, rfl⟩, h⟩
    obtain ⟨rest, hs, m', ⟨hback, rfl⟩, rfl⟩ := (reads_spelled text.toList [boundary]).mp h
    exact ⟨hfront, rest, hs, hback, rfl⟩
  · rintro ⟨hfront, rest, hs, hback, rfl⟩
    exact ⟨s, ⟨hfront, rfl⟩,
      (reads_spelled text.toList [boundary]).mpr ⟨rest, hs, _, ⟨hback, rfl⟩, rfl⟩⟩

/-- What an alternative of the pattern for verbatim tokens reads. -/
theorem reads_verbatim {r : Regex} (hr : r ∈ verbatims) {s t : Spot} (h : Reads r s t) :
    ∃ w rest, s.rest = w ++ rest ∧ t = s.past w rest ∧
      ((∃ sign ∈ longSigns, phrase (spelled sign) = r ∧ w = sign.toList) ∨
        (∃ v ∈ verbatimWords, word v = r ∧ w = v.toList ∧ Edge s.before s.rest ∧
          Edge (w.getLast?.or s.before) rest) ∨
        singleForm = r ∧ ∃ c, w = [c] ∧ singleSigns.contains c = true) := by
  rcases mem_verbatims.mp hr with ⟨sign, hsign, rfl⟩ | ⟨v, hv, rfl⟩ | rfl
  · obtain ⟨rest, hs, ht⟩ := reads_phrase_spelled.mp h
    exact ⟨_, rest, hs, ht, Or.inl ⟨sign, hsign, rfl, rfl⟩⟩
  · obtain ⟨hfront, rest, hs, hback, ht⟩ := reads_word.mp h
    exact ⟨_, rest, hs, ht, Or.inr (Or.inl ⟨v, hv, rfl, rfl, hfront, hback⟩)⟩
  · obtain ⟨m, hchar, rfl⟩ := h
    obtain ⟨c, rest, hs, hc, ht⟩ := reads_char hchar
    exact ⟨[c], rest, hs, ht, Or.inr (Or.inr ⟨rfl, c, rfl, hc⟩)⟩

/-- An alternative reads a place in one way at most. -/
theorem reads_verbatim_unique {r : Regex} (hr : r ∈ verbatims) {s t t' : Spot} (h : Reads r s t)
    (h' : Reads r s t') : t = t' := by
  rcases mem_verbatims.mp hr with ⟨sign, hsign, rfl⟩ | ⟨v, hv, rfl⟩ | rfl
  · obtain ⟨rest, hs, rfl⟩ := reads_phrase_spelled.mp h
    obtain ⟨rest', hs', rfl⟩ := reads_phrase_spelled.mp h'
    rw [List.append_cancel_left (hs.symm.trans hs')]
  · obtain ⟨-, rest, hs, -, rfl⟩ := reads_word.mp h
    obtain ⟨-, rest', hs', -, rfl⟩ := reads_word.mp h'
    rw [List.append_cancel_left (hs.symm.trans hs')]
  · obtain ⟨m, hchar, rfl⟩ := h
    obtain ⟨m', hchar', rfl⟩ := h'
    obtain ⟨c, rest, hs, -, rfl⟩ := reads_char hchar
    obtain ⟨c', rest', hs', -, rfl⟩ := reads_char hchar'
    obtain ⟨rfl, rfl⟩ := List.cons.inj (hs.symm.trans hs')
    rfl

/-- A verbatim segment is what the first alternative reads that reads anything. -/
theorem verbatim_segment_iff {source : String} :
    TokenPattern.segment? ⟨.verbatim, source, verbatimForm⟩ before text = some s ↔
      ∃ front r back w rest, verbatims = front ++ r :: back ∧ text = w ++ rest ∧ w ≠ [] ∧
        (∀ q ∈ front, ∀ t, ¬ Reads q (spot before text) t) ∧
        Reads r (spot before text) ((spot before text).past w rest) ∧
        s = ⟨.verbatim, w, [some w], rest⟩ := by
  have hbody : verbatimForm.body.find some (spot before text) =
      verbatims.findSome? fun r => find r (fun t => some (t.close 1 0)) (spot before text) := by
    rw [← find_oneOf (by simp [verbatims])]
    rfl
  have hgives : ∀ {w rest}, text = w ++ rest → w ≠ [] →
      verbatimForm.body.find some (spot before text) =
        some (((spot before text).past w rest).close 1 0) →
      TokenPattern.segment? ⟨.verbatim, source, verbatimForm⟩ before text =
        some ⟨.verbatim, w, [some w], rest⟩ := by
    rintro w rest rfl hne hfind
    rw [segment?_of_find hne hfind (by simp [spot, Spot.past, Spot.close])]
    simp [verbatimForm, capturesOf, spot, Spot.past, Spot.close]
  have hplain : ∀ q ∈ verbatims, q.plain = true := List.all_eq_true.mp rfl
  constructor
  · intro h
    obtain ⟨t, hfind, hused, -⟩ := segment?_eq_some_iff.mp h
    have hfirst := hbody.symm.trans hfind
    obtain ⟨front, r, back, hforms, hr, hfront⟩ := List.findSome?_eq_some_iff.mp hfirst
    have hmem : r ∈ verbatims := by rw [hforms]; simp
    obtain ⟨t', hread, ht⟩ := find_sound _ _ _ _ hr
    obtain rfl := Option.some.inj ht
    obtain ⟨w, rest, htext, rfl, -⟩ := reads_verbatim hmem hread
    have hne : w ≠ [] := fun h0 => hused (by rw [h0]; rfl)
    refine ⟨front, r, back, w, rest, hforms, htext, hne, fun q hq t hread => ?_, hread,
      Option.some.inj (h.symm.trans (hgives htext hne hfind))⟩
    have hsome := find_complete q (fun t => some (t.close 1 0)) _ _
      (hplain q (by rw [hforms]; simp [hq])) hread rfl
    rw [hfront q hq] at hsome
    exact Bool.noConfusion hsome
  · rintro ⟨front, r, back, w, rest, hforms, htext, hne, hfront, hread, rfl⟩
    have hmem : r ∈ verbatims := by rw [hforms]; simp
    refine hgives htext hne (hbody.trans (List.findSome?_eq_some_iff.mpr
      ⟨front, r, back, hforms, ?_, fun q hq => ?_⟩))
    · obtain ⟨x, hx⟩ := Option.isSome_iff_exists.mp
        (find_complete r (fun t => some (t.close 1 0)) _ _ (hplain r hmem) hread rfl)
      obtain ⟨t, hread', ht⟩ := find_sound _ _ _ _ hx
      rw [hx, ← ht, reads_verbatim_unique hmem hread hread']
    · rcases hq' : find q (fun t => some (t.close 1 0)) (spot before text) with _ | x
      · rfl
      · obtain ⟨t, hread', -⟩ := find_sound _ _ _ _ hq'
        exact absurd hread' (hfront q hq t)

/-- What an alternative has read once it has read `w`. -/
theorem reads_verbatim_past {r : Regex} (hr : r ∈ verbatims) {w rest : List Char} (hne : w ≠ [])
    (h : Reads r (spot before (w ++ rest)) ((spot before (w ++ rest)).past w rest)) :
    (∃ sign ∈ longSigns, phrase (spelled sign) = r ∧ w = sign.toList) ∨
      (∃ v ∈ verbatimWords, word v = r ∧ w = v.toList ∧ Edge before (w ++ rest) ∧
        Edge w.getLast? rest) ∨
      singleForm = r ∧ ∃ c, w = [c] ∧ singleSigns.contains c = true := by
  obtain ⟨w', rest', htext, hpast, hw⟩ := reads_verbatim hr h
  have hlength : w.length = w'.length := by
    simpa [spot, Spot.past] using congrArg Spot.used hpast
  obtain ⟨rfl, rfl⟩ := List.append_inj htext hlength
  rwa [getLast?_or hne] at hw

/-- A verbatim segment is a sign or a word between word boundaries. -/
theorem verbatim_segment {source : String}
    (h : TokenPattern.segment? ⟨.verbatim, source, verbatimForm⟩ before text = some s) :
    ∃ w rest, text = w ++ rest ∧ s = ⟨.verbatim, w, [some w], rest⟩ ∧
      ((∃ sign ∈ longSigns, w = sign.toList) ∨
        (∃ word ∈ verbatimWords, w = word.toList ∧ Edge before text ∧ Edge w.getLast? rest) ∨
        ∃ c, w = [c] ∧ singleSigns.contains c = true) := by
  obtain ⟨front, r, back, w, rest, hforms, rfl, hne, -, hread, rfl⟩ := verbatim_segment_iff.mp h
  refine ⟨w, rest, rfl, rfl, ?_⟩
  rcases reads_verbatim_past (by rw [hforms]; simp) hne hread with ⟨sign, hsign, -, hw⟩ |
    ⟨v, hv, -, hw⟩ | ⟨-, hw⟩
  · exact Or.inl ⟨sign, hsign, hw⟩
  · exact Or.inr (Or.inl ⟨v, hv, hw⟩)
  · exact Or.inr (Or.inr hw)

/-- A word is taken where it stands between word boundaries, or a sign in front of it. -/
theorem verbatim_isSome_of_word {source word : String} {rest : List Char}
    (hword : word ∈ verbatimWords) (hne : word.toList ≠ [])
    (hfront : Edge before (word.toList ++ rest)) (hback : Edge word.toList.getLast? rest) :
    (TokenPattern.segment? ⟨.verbatim, source, verbatimForm⟩ before
      (word.toList ++ rest)).isSome := by
  have hread : Reads (oneOf verbatims) (spot before (word.toList ++ rest))
      ((spot before (word.toList ++ rest)).past word.toList rest) := by
    refine (reads_oneOf (by simp [verbatims])).mpr
      ⟨_, mem_verbatims.mpr (Or.inr (Or.inl ⟨word, hword, rfl⟩)), ?_⟩
    refine reads_word.mpr ⟨hfront, rest, rfl, ?_, rfl⟩
    rwa [getLast?_or hne]
  exact isSome_of_reads rfl rfl ⟨_, ⟨_, hread, rfl⟩, rfl⟩

/-- A character that is a sign by itself is taken, whatever stands around it. -/
theorem verbatim_isSome_of_sign {source : String} {c : Char} {rest : List Char}
    (hc : singleSigns.contains c = true) :
    (TokenPattern.segment? ⟨.verbatim, source, verbatimForm⟩ before (c :: rest)).isSome := by
  have hread : Reads (oneOf verbatims) (spot before (c :: rest))
      ((spot before (c :: rest)).past [c] rest) :=
    (reads_oneOf (by simp [verbatims])).mpr ⟨_, mem_verbatims.mpr (Or.inr (Or.inr rfl)),
      _, ⟨c, rest, rfl, hc, rfl⟩, rfl⟩
  exact isSome_of_reads rfl rfl ⟨_, ⟨_, hread, rfl⟩, rfl⟩

/-! ### Identifiers -/

theorem identifier_segment_iff {source : String} :
    TokenPattern.segment? ⟨.identifier, source, identifierForm⟩ before text = some s ↔
      ∃ c w rest, text = c :: (w ++ rest) ∧ identifierStart.contains c = true ∧
        (∀ d ∈ w, identifierPart.contains d = true) ∧
        (∀ d ∈ rest.head?, identifierPart.contains d = false) ∧
        s = ⟨.identifier, c :: w, [some (c :: w)], rest⟩ := by
  have htake : ∀ {c w rest}, identifierStart.contains c = true →
      (∀ d ∈ w, identifierPart.contains d = true) →
      (∀ d ∈ rest.head?, identifierPart.contains d = false) →
      TokenPattern.segment? ⟨.identifier, source, identifierForm⟩ before (c :: (w ++ rest)) =
        some ⟨.identifier, c :: w, [some (c :: w)], rest⟩ := by
    intro c w rest hc hw hrest
    have hfind : identifierForm.body.find some (spot before (c :: w ++ rest)) =
        some (((spot before (c :: w ++ rest)).past (c :: w) rest).close 1 0) := by
      show find (phrase _) _ _ = _
      rw [find_phrase_cons, find_group, find_phrase_cons, find_char rfl hc, find_phrase_cons]
      refine (find_many rfl hw hrest rfl).trans ?_
      rw [find_phrase_nil, find_phrase_nil, Spot.past_past]
      rfl
    refine (segment?_of_find (List.cons_ne_nil c w) hfind ?_).trans ?_
    · simp [spot, Spot.past, Spot.close]
    · simp [identifierForm, capturesOf, spot, Spot.past, Spot.close]
  constructor
  · intro h
    obtain ⟨t, hfind, -, -⟩ := segment?_eq_some_iff.mp h
    obtain ⟨t', ⟨m, ⟨m', ⟨m₁, h₁, -⟩, -⟩, -⟩, -⟩ := find_sound _ _ _ _ hfind
    obtain ⟨c, cs, htext, hc, -⟩ := reads_char h₁
    obtain rfl : text = c :: cs := htext
    have hcs : cs = cs.takeWhile identifierPart.contains ++ cs.dropWhile identifierPart.contains :=
      (List.takeWhile_append_dropWhile ..).symm
    have hw : ∀ d ∈ cs.takeWhile identifierPart.contains, identifierPart.contains d = true :=
      fun d hd => List.all_eq_true.mp List.all_takeWhile d hd
    have hrest : ∀ d ∈ (cs.dropWhile identifierPart.contains).head?,
        identifierPart.contains d = false := fun d hd => CharSet.not_of_mem_head? hd
    refine ⟨c, _, _, congrArg (c :: ·) hcs, hc, hw, hrest, Option.some.inj (h.symm.trans ?_)⟩
    have htaken := htake hc hw hrest
    rwa [← hcs] at htaken
  · rintro ⟨c, w, rest, rfl, hc, hw, hrest, rfl⟩
    exact htake hc hw hrest

end Grammar

end Precedence
