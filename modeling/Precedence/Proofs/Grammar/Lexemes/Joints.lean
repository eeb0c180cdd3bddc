import Precedence.Proofs.Grammar.Exists
import Precedence.Proofs.Grammar.Lexemes.Numerals
import Precedence.Proofs.Grammar.Lexemes.Quoted
import Precedence.Proofs.Grammar.Lexemes.RegexLiterals
import Precedence.Proofs.Grammar.Lexemes.Words

/-!
# Where segments meet

No segment of a grammar ends within a word of ASCII characters (`joined_of_segment`), and each
begins with an ASCII character or white space (`continues_of_segment`).
-/

namespace Precedence

namespace Grammar

open Regex TokenPattern Text

variable {options : GrammarOptions} {before : Option Char} {text : List Char} {s : Segment}

/-- What splits a text into tokens for a grammar with these options. -/
def lexer (options : GrammarOptions) : Classifier :=
  ⟨patternForms options⟩

/-- All the patterns there are, under whatever options. -/
theorem mem_standardForms {p : TokenPattern} (h : p ∈ patternForms options) :
    p ∈ patternForms .standard := by
  show p ∈ patternForms { options with regexLiterals := true }
  unfold patternForms at h ⊢
  rw [List.mem_append, List.mem_append] at h ⊢
  refine h.imp_left (Or.imp_right fun h => ?_)
  split at h
  · exact h
  · exact absurd h List.not_mem_nil

theorem mem_patternForms {p : TokenPattern} (h : p ∈ patternForms options) :
    p = ⟨.ignore, blanks, blanksForm⟩ ∨ p = ⟨.ignore, comment, commentForm⟩ ∨
      p = ⟨.string, singleQuoted, quotedForm '\''⟩ ∨ p = ⟨.string, doubleQuoted, quotedForm '"'⟩ ∨
      p = ⟨.number, decimal, decimalForm⟩ ∨ p = ⟨.number, hexadecimal, hexadecimalForm⟩ ∨
      p = ⟨.null, null, wordsForm ["null"]⟩ ∨
      p = ⟨.boolean, boolean, wordsForm ["true", "false"]⟩ ∨ p = ⟨.regex, regex, regexForm⟩ ∨
      p = ⟨.verbatim, verbatim, verbatimForm⟩ ∨ p = ⟨.identifier, identifier, identifierForm⟩ := by
  simpa [patternForms, GrammarOptions.standard] using mem_standardForms h

/-- A word of ASCII characters does not go on from one side of a place to the other. -/
def Joined (before : Option Char) (text : List Char) : Prop :=
  ∀ c ∈ text.head?, Unicode.isAscii c = true → Unicode.isWord c = true →
    before.any Unicode.isWord = false

theorem Joined.of_edge (h : Edge before text) : Joined before text := by
  intro c hc _ hword
  rw [Edge, Option.mem_def.mp hc] at h
  simpa [hword] using h

theorem Joined.of_before (h : before.any Unicode.isWord = false) : Joined before text :=
  fun _ _ _ _ => h

theorem Joined.of_last {w : List Char} {c : Char} (hc : Unicode.isWord c = false) :
    Joined (w ++ [c]).getLast? text :=
  Joined.of_before (by rw [List.getLast?_concat]; exact hc)

/-- Among ASCII characters, what cannot go on with an identifier is no word character. -/
theorem isWord_of_not_identifierPart {c : Char} (hascii : Unicode.isAscii c = true)
    (h : identifierPart.contains c = false) : Unicode.isWord c = false := by
  have hall := Unicode.forall_ascii
    (p := fun c => !Unicode.isWord c || identifierPart.contains c) (by decide +kernel) hascii
  simpa [h] using hall

/-! ### Segments that are left out -/

theorem blanks_segment {source : String}
    (h : TokenPattern.segment? ⟨.ignore, source, blanksForm⟩ before text = some s) :
    ∃ w rest, text = w ++ rest ∧ w ≠ [] ∧ (∀ c ∈ w, Unicode.isSpace c = true) ∧
      s = ⟨.ignore, w, [], rest⟩ := by
  obtain ⟨t, hfind, -, rfl⟩ := segment?_eq_some_iff.mp h
  obtain ⟨t', ⟨m, hread, rfl⟩, ht⟩ := find_sound _ _ _ _ hfind
  obtain rfl := Option.some.inj ht
  obtain ⟨w, rest, hne, htext, hw, rfl⟩ := reads_many1 hread
  obtain rfl : text = w ++ rest := htext
  refine ⟨w, rest, rfl, hne, hw, ?_⟩
  show Segment.mk _ ((w ++ rest).take (0 + w.length)) _ ((w ++ rest).drop (0 + w.length)) = _
  rw [Nat.zero_add, List.take_left, List.drop_left]
  rfl

theorem commentForm_body : commentForm.body =
    phrase [.char (.single '/'), .char (.single '/'), many (noneOf [.single '\n'])] :=
  rfl

theorem contains_commentBody {c : Char} : (noneOf [.single '\n']).contains c = true ↔ c ≠ '\n' := by
  simp only [contains_noneOf, List.any_cons, List.any_nil, CharSet.contains_single, Bool.or_false,
    Bool.not_eq_true', beq_eq_false_iff_ne]
  exact ⟨Ne.symm, Ne.symm⟩

/-- A text up to the end of its first line. -/
theorem exists_line (text : List Char) :
    ∃ w rest, text = w ++ rest ∧ '\n' ∉ w ∧ ∀ c ∈ rest.head?, c = '\n' := by
  refine ⟨text.takeWhile (noneOf [.single '\n']).contains,
    text.dropWhile (noneOf [.single '\n']).contains, (List.takeWhile_append_dropWhile ..).symm,
    fun hmem => ?_, fun c hc => ?_⟩
  · have hbody := List.all_eq_true.mp List.all_takeWhile _ hmem
    exact contains_commentBody.mp hbody rfl
  · by_contra hne
    have hout := CharSet.not_of_mem_head? hc
    rw [contains_commentBody.mpr hne] at hout
    exact Bool.noConfusion hout

/-- A comment goes on up to the end of its line. -/
theorem comment_segment_iff {source : String} :
    TokenPattern.segment? ⟨.ignore, source, commentForm⟩ before text = some s ↔
      ∃ w rest, text = '/' :: '/' :: (w ++ rest) ∧ '\n' ∉ w ∧ (∀ c ∈ rest.head?, c = '\n') ∧
        s = ⟨.ignore, '/' :: '/' :: w, [], rest⟩ := by
  have htake : ∀ {w rest}, '\n' ∉ w → (∀ c ∈ rest.head?, c = '\n') →
      TokenPattern.segment? ⟨.ignore, source, commentForm⟩ before ('/' :: '/' :: (w ++ rest)) =
        some ⟨.ignore, '/' :: '/' :: w, [], rest⟩ := by
    intro w rest hw hrest
    have hbody : ∀ c ∈ w, (noneOf [.single '\n']).contains c = true :=
      fun c hc => contains_commentBody.mpr fun h0 => hw (h0 ▸ hc)
    have hstop : ∀ c ∈ rest.head?, (noneOf [.single '\n']).contains c = false := by
      intro c hc
      rw [hrest c hc]
      decide
    have hfind : commentForm.body.find some (spot before ('/' :: '/' :: w ++ rest)) =
        some ((spot before ('/' :: '/' :: w ++ rest)).past ('/' :: '/' :: w) rest) := by
      rw [commentForm_body, find_phrase_cons, find_char rfl (by decide), find_phrase_cons,
        find_char rfl (by decide), find_phrase_cons]
      refine (find_many rfl hbody hstop rfl).trans ?_
      rw [find_phrase_nil, Spot.past_past, Spot.past_past]
      rfl
    exact (segment?_of_find (p := ⟨.ignore, source, commentForm⟩) (List.cons_ne_nil _ _) hfind
      (Nat.zero_add _) :)
  constructor
  · intro h
    obtain ⟨t, hfind, -, -⟩ := segment?_eq_some_iff.mp h
    rw [commentForm_body] at hfind
    obtain ⟨t', ⟨m₁, h₁, m₂, h₂, -⟩, -⟩ := find_sound _ _ _ _ hfind
    obtain ⟨slash, rest₁, htext, hslash, rfl⟩ := reads_char h₁
    obtain ⟨slash', rest, hrest₁, hslash', rfl⟩ := reads_char h₂
    obtain rfl : '/' = slash := by simpa using hslash
    obtain rfl : '/' = slash' := by simpa using hslash'
    obtain rfl : rest₁ = '/' :: rest := hrest₁
    obtain rfl : text = '/' :: '/' :: rest := htext
    obtain ⟨w, tail, rfl, hw, hstop⟩ := exists_line rest
    exact ⟨w, tail, rfl, hw, hstop, Option.some.inj (h.symm.trans (htake hw hstop))⟩
  · rintro ⟨w, rest, rfl, hw, hrest, rfl⟩
    exact htake hw hrest

theorem comment_none {source : String} {c : Char} {cs : List Char} (hc : c ≠ '/') :
    TokenPattern.segment? ⟨.ignore, source, commentForm⟩ before ('/' :: c :: cs) = none := by
  rcases h : TokenPattern.segment? ⟨.ignore, source, commentForm⟩ before ('/' :: c :: cs) with _ | s
  · rfl
  obtain ⟨w, rest, htext, -⟩ := comment_segment_iff.mp h
  exact absurd (List.cons.inj (List.cons.inj htext).2).1 hc

theorem joined_of_segment (h : (lexer options).segment? before text = some s) :
    Joined s.text.getLast? s.rest := by
  obtain ⟨p, hp, h⟩ := Classifier.exists_pattern h
  rcases mem_patternForms hp with rfl | rfl | rfl | rfl | rfl | rfl | rfl | rfl | rfl | rfl | rfl
  · obtain ⟨w, rest, -, hne, hw, rfl⟩ := blanks_segment h
    refine Joined.of_before ?_
    rw [List.getLast?_eq_some_getLast hne]
    exact Unicode.isWord_of_isSpace (hw _ (List.getLast_mem hne))
  · obtain ⟨w, rest, -, -, hrest, rfl⟩ := comment_segment_iff.mp h
    intro c hc _ hword
    obtain rfl := hrest c hc
    exact absurd hword (by decide)
  · obtain ⟨body, rest, -, -, rfl⟩ := (quoted_segment_iff (by decide)).mp h
    exact Joined.of_last (w := '\'' :: body) (by decide)
  · obtain ⟨body, rest, -, -, rfl⟩ := (quoted_segment_iff (by decide)).mp h
    exact Joined.of_last (w := '"' :: body) (by decide)
  · obtain ⟨w, rest, -, -, -, -, hback, rfl⟩ := decimal_segment h
    exact Joined.of_edge hback
  · obtain ⟨w, rest, -, -, -, -, hback, rfl⟩ := hexadecimal_segment h
    exact Joined.of_edge hback
  · obtain ⟨w, -, rest, -, -, hback, rfl⟩ := word_segment (by decide) h
    exact Joined.of_edge hback
  · obtain ⟨w, -, rest, -, -, hback, rfl⟩ := word_segment (by decide) h
    exact Joined.of_edge hback
  · obtain ⟨body, flags, rest, -, -, -, -, ⟨rfl, rfl⟩ | ⟨hedge, rfl⟩⟩ := regex_segment h
    · exact Joined.of_last (w := '/' :: body) (by decide)
    · refine Joined.of_edge ?_
      have hlast : ('/' :: (body ++ '/' :: flags)).getLast? = flags.getLast?.or (some '/') := by
        rw [show '/' :: (body ++ '/' :: flags) = '/' :: body ++ ['/'] ++ flags by simp,
          List.getLast?_append, List.getLast?_concat]
      rwa [hlast]
  · obtain ⟨w, rest, -, rfl, ⟨sign, hsign, rfl⟩ | ⟨word, -, -, -, hback⟩ | ⟨c, rfl, hc⟩⟩ :=
      verbatim_segment h
    · have hall : ∀ sign ∈ longSigns, sign.toList.getLast?.any Unicode.isWord = false := by decide
      exact Joined.of_before (hall sign hsign)
    · exact Joined.of_edge hback
    · refine Joined.of_before ?_
      have hall := CharSet.forall_mem (p := fun c => !Unicode.isWord c) rfl (by decide +kernel) hc
      simpa using hall
  · obtain ⟨c, w, rest, -, -, -, hrest, rfl⟩ := identifier_segment_iff.mp h
    intro d hd hascii hword
    rw [isWord_of_not_identifierPart hascii (hrest d hd)] at hword
    exact Bool.noConfusion hword

theorem continues_of_segment {c : Char} {cs : List Char}
    (h : (lexer options).segment? before (c :: cs) = some s) :
    Unicode.isAscii c = true ∨ Unicode.isSpace c = true := by
  obtain ⟨p, hp, h⟩ := Classifier.exists_pattern h
  obtain ⟨d, -, rest, htext, -, hc⟩ := begins_of_segment h
  obtain ⟨rfl, -⟩ := List.cons.inj htext
  rcases mem_patternForms hp with rfl | rfl | rfl | rfl | rfl | rfl | rfl | rfl | rfl | rfl | rfl
  · exact Or.inr hc
  all_goals exact Or.inl (CharSet.isAscii_of_contains rfl hc)

end Grammar

end Precedence
