import Precedence.Proofs.Classifier.Segmentation
import Precedence.Proofs.Grammar.Gaps
import Precedence.Proofs.Grammar.Lexemes.Contexts
import Precedence.Proofs.Grammar.Location
import Precedence.Proofs.Text.Sites

/-!
# Where the failures of a parse point

A text that is not split into tokens fails at a place that is located by the line index, and a row
of tokens that is no program fails at one of its tokens or behind the last one. So every failure of
a parse marks a piece of the text, and its position is that of the beginning of the piece, unless it
points behind a token with a line break in it (`failures_sited`): behind the last token the position
is told by counting its characters, as if they all stood in one line.
-/

namespace Precedence

open Text

namespace Classifier

variable {classifier : Classifier} {index : LineIndex} {offset : Nat} {before : Option Char}
  {failure : Failure}

/-- Where a text is not split, nothing matches at its beginning, or the token there is refused, or
what is behind it is not split. -/
theorem tokensFrom_cons_error {c : Char} {cs : List Char}
    (h : classifier.tokensFrom index offset before (c :: cs) = .error failure) :
    (classifier.segment? before (c :: cs) = none ∧ failure = noMatch index offset (c :: cs)) ∨
      ∃ s, classifier.segment? before (c :: cs) = some s ∧
        (token index offset s = .error failure ∨
          classifier.tokensFrom index (offset + byteLength s.text) s.text.getLast? s.rest =
            .error failure) := by
  rcases hs : classifier.segment? before (c :: cs) with _ | s
  · rw [tokensFrom] at h
    split at h
    · exact Or.inl ⟨rfl, (Except.error.inj h).symm⟩
    · next s hs' =>
      rw [hs] at hs'
      simp at hs'
  · refine Or.inr ⟨s, rfl, ?_⟩
    rw [tokensFrom_of_segment hs] at h
    by_cases hkind : s.kind = .ignore
    · rw [if_pos hkind] at h
      exact Or.inr h
    · rw [if_neg hkind] at h
      rcases Failure.bind_eq_error_iff.mp h with h | ⟨t, -, h⟩
      · exact Or.inl h
      rcases Failure.bind_eq_error_iff.mp h with h | ⟨ts, -, h⟩
      · exact Or.inr h
      · simp [pure, Except.pure] at h

theorem noMatch_located (front : List Char) (c : Char) (cs : List Char) :
    ∃ site, (noMatch (.ofText (front ++ c :: cs)) (byteLength front) (c :: cs)).site? = some site ∧
      site.Located (front ++ c :: cs) := by
  refine ⟨_, rfl, front, [c], cs, ⟨rfl, ?_⟩, LineIndex.position_between front (c :: cs)⟩
  rw [byteLength_append]
  rfl

theorem token_error_located {front : List Char} {s : Segment}
    (h : token (.ofText (front ++ (s.text ++ s.rest))) (byteLength front) s = .error failure) :
    ∃ site, failure.site? = some site ∧ site.Located (front ++ (s.text ++ s.rest)) := by
  obtain ⟨-, -, rfl⟩ := token_eq_error_iff.mp h
  refine ⟨_, rfl, front, s.text, s.rest, ⟨rfl, ?_⟩,
    LineIndex.position_between front (s.text ++ s.rest)⟩
  rw [byteLength_append]

/-- Whatever the patterns are, a failure to split a text points into it. -/
theorem located_of_tokensFrom {front text : List Char}
    (h : classifier.tokensFrom (.ofText (front ++ text)) (byteLength front) before text =
      .error failure) :
    ∃ site, failure.site? = some site ∧ site.Located (front ++ text) := by
  -- each segment leaves a shorter text
  induction hn : text.length using Nat.strongRecOn generalizing front before text with
  | ind n ih =>
  rcases text with _ | ⟨c, cs⟩
  · simp [Classifier.tokensFrom] at h
  rcases tokensFrom_cons_error h with ⟨-, rfl⟩ | ⟨s, hs, hcases⟩
  · exact noMatch_located front c cs
  have hless := hn ▸ length_rest_lt hs
  rw [whole_of_segment hs] at hcases ⊢
  rcases hcases with htoken | hrest
  · exact token_error_located htoken
  · rw [← List.append_assoc, ← byteLength_append] at hrest
    rw [← List.append_assoc]
    exact ih _ hless hrest rfl

theorem located_of_tokenize {text : String} (h : classifier.tokenize text = .error failure) :
    ∃ site, failure.site? = some site ∧ site.Located text.toList := by
  have htokens : classifier.tokensFrom (.ofText ([] ++ text.toList)) (byteLength []) none
      text.toList = .error failure := h
  exact located_of_tokensFrom htokens

end Classifier

namespace Grammar

open Regex TokenPattern

variable {options : GrammarOptions} {tokens : List Token} {failure : Failure}

/-! ### The tokens that failures point at -/

/-- The failure points at what stands at an index. -/
structure PointsAt (tokens : List Token) (i : Nat) (failure : Failure) : Prop where
  index : failure.tokenIndex? = some i
  site : ∃ help, failure.site? = some { (locate tokens.toArray i).2 with help }

theorem locate_of_getElem? {i : Nat} {t : Token} (h : tokens[i]? = some t) :
    (locate tokens.toArray i).2 = t.site := by
  rw [locate, List.getElem?_toArray, h]
  rfl

theorem locate_of_end {i : Nat} (h : tokens.length ≤ i) :
    (locate tokens.toArray i).2 = endSite tokens := by
  have hnone := List.getElem?_eq_none h
  rcases hlast : tokens.getLast? with _ | last
  · simp only [locate, List.getElem?_toArray, hnone, endSite, List.back?_toArray, hlast]
  · simp only [locate, List.getElem?_toArray, hnone, endSite, List.back?_toArray, hlast]

/-- Every failure of a finished parse points at a place among its tokens, or behind them. -/
theorem pointsAt_of_verdict {result : Option (List Part)} {s : ParseState Production Part}
    (hs : s.tokens = tokens.toArray) (h : verdict result s = .error failure) :
    ∃ i, PointsAt tokens i failure := by
  have hfurthest : ∃ i, PointsAt tokens i (unexpected s.tokens s.expected s.furthest) :=
    ⟨_, rfl, _, by rw [hs]; rfl⟩
  unfold verdict at h
  split at h
  · obtain rfl := Except.error.inj h
    exact ⟨_, rfl, _, by rw [hs]; rfl⟩
  split at h
  · exact Except.error.inj h ▸ hfurthest
  split at h
  · split at h
    · exact Except.error.inj h ▸ hfurthest
    · obtain rfl := Except.error.inj h
      exact ⟨_, rfl, _, by rw [hs]; rfl⟩
  · split at h
    · simp at h
    · exact Except.error.inj h ▸ hfurthest

theorem pointsAt_of_parseTokens {grammar : Grammar}
    (h : grammar.parseTokens tokens = .error failure) : ∃ i, PointsAt tokens i failure := by
  rw [parseTokens_eq, verdictOf] at h
  split at h
  · obtain rfl := Except.error.inj h
    exact ⟨_, rfl, _, rfl⟩
  · exact pointsAt_of_verdict rfl h

/-! ### The last character of a token -/

theorem inLine_of_not_space {c : Char} (h : Unicode.isSpace c = false) : InLine c := by
  constructor
  · rintro rfl
    exact absurd h (by decide)
  · rintro rfl
    exact absurd h (by decide)

theorem last_of_concat {w : List Char} {c : Char} (hc : Unicode.isSpace c = false) :
    ∀ d ∈ (w ++ [c]).getLast?, Unicode.isSpace d = false := by
  intro d hd
  rw [List.getLast?_concat] at hd
  exact Option.some.inj hd ▸ hc

theorem not_space_of_keyword {words : List String}
    (hwords : words ⊆ ["null"] ++ ["true", "false"] ++ verbatimWords) {word : String}
    (hword : word ∈ words) {c : Char} (hc : c ∈ word.toList) : Unicode.isSpace c = false :=
  Unicode.isSpace_of_isWord ((keywords word (hwords hword)).2 c hc).2

/-- No token ends with white space. -/
theorem not_space_of_last {before : Option Char} {text : List Char} {s : Segment}
    (h : (lexer options).segment? before text = some s) (hk : s.kind ≠ .ignore) :
    ∀ c ∈ s.text.getLast?, Unicode.isSpace c = false := by
  obtain ⟨p, hp, h⟩ := Classifier.exists_pattern h
  have hkind := kind_of_segment h
  have hnumeral : IsDecimal s.text ∨ IsHexadecimal s.text →
      ∀ c ∈ s.text.getLast?, Unicode.isSpace c = false := by
    intro hw c hc
    obtain ⟨-, d, hd, hlast⟩ := ends_of_numeral hw
    obtain rfl := Option.some.inj (hd.symm.trans hc)
    rcases hlast with hword | rfl
    · exact Unicode.isSpace_of_isWord hword
    · decide
  rcases mem_patternForms hp with rfl | rfl | rfl | rfl | rfl | rfl | rfl | rfl | rfl | rfl | rfl
  · exact absurd hkind hk
  · exact absurd hkind hk
  · obtain ⟨body, rest, -, -, rfl⟩ := (quoted_segment_iff (by decide)).mp h
    exact last_of_concat (w := '\'' :: body) (by decide)
  · obtain ⟨body, rest, -, -, rfl⟩ := (quoted_segment_iff (by decide)).mp h
    exact last_of_concat (w := '"' :: body) (by decide)
  · obtain ⟨w, rest, -, hw, -, -, -, rfl⟩ := decimal_segment h
    exact hnumeral (Or.inl hw)
  · obtain ⟨w, rest, -, hw, -, -, -, rfl⟩ := hexadecimal_segment h
    exact hnumeral (Or.inr hw)
  · obtain ⟨word, hword, rest, -, -, -, rfl⟩ := word_segment (by decide) h
    exact fun c hc => not_space_of_keyword (by simp) hword (List.mem_of_getLast? hc)
  · obtain ⟨word, hword, rest, -, -, -, rfl⟩ := word_segment (by decide) h
    exact fun c hc => not_space_of_keyword (by simp) hword (List.mem_of_getLast? hc)
  · obtain ⟨body, flags, rest, -, -, -, hflags, hs⟩ := regex_segment h
    have htext : s.text = '/' :: body ++ ['/'] ++ flags := by
      rcases hs with ⟨rfl, rfl⟩ | ⟨-, rfl⟩ <;> simp
    intro c hc
    rw [htext, List.getLast?_append, List.getLast?_concat] at hc
    rcases hlast : flags.getLast? with _ | d
    · obtain rfl : '/' = c := by simpa [hlast] using hc
      decide
    · obtain rfl : d = c := by simpa [hlast] using hc
      exact Unicode.isSpace_of_isWord
        (isWord_of_regexFlags (hflags d (List.mem_of_getLast? hlast)))
  · obtain ⟨w, rest, -, rfl, ⟨sign, hsign, rfl⟩ | ⟨word, hword, rfl, -⟩ | ⟨c, rfl, hc⟩⟩ :=
      verbatim_segment h
    · exact fun c hc => not_space_of_sign hsign (List.mem_of_getLast? hc)
    · exact fun c hc => not_space_of_keyword (List.subset_append_right _ _) hword
        (List.mem_of_getLast? hc)
    · have hall := CharSet.forall_mem (p := fun c => !Unicode.isSpace c) rfl (by decide +kernel) hc
      exact last_of_concat (w := []) (by simpa using hall)
  · obtain ⟨c, w, rest, -, hc, hw, -, rfl⟩ := identifier_segment_iff.mp h
    intro d hd
    rcases List.mem_cons.mp (List.mem_of_getLast? hd) with rfl | hd
    · simpa using CharSet.forall_mem (p := fun c => !Unicode.isSpace c) rfl (by decide +kernel) hc
    · simpa using
        CharSet.forall_mem (p := fun c => !Unicode.isSpace c) rfl (by decide +kernel) (hw d hd)

theorem last_of_tokenize {text : String}
    (h : tokenize ⟨options, lexer options⟩ text = .ok tokens) :
    ∀ t ∈ tokens, ∀ c ∈ t.text.toList.getLast?, InLine c := by
  intro t ht
  obtain ⟨before, rest, hcut⟩ := isCut_of_tokenize h t ht
  obtain ⟨index, offset, s, hs, -, hk, htoken⟩ := hcut.segment
  rw [(Classifier.isTokenOf_of_token htoken).text, String.toList_ofList]
  exact fun c hc => inLine_of_not_space (not_space_of_last hs hk c hc)

/-! ### The failures of a parse -/

/-- The failure points behind the last token, and that has part of a line break in it. -/
def PointsBehindBreak (tokens : List Token) (failure : Failure) : Prop :=
  (∃ i ∈ failure.tokenIndex?, tokens.length ≤ i) ∧
    ∃ last ∈ tokens.getLast?, ¬ ∀ c ∈ last.text.toList, InLine c

/-- A failure at a token is located by the token, and so is one behind the last token unless that
has part of a line break in it. -/
theorem PointsAt.marks {text : List Char} {i : Nat} (h : PointsAt tokens i failure)
    (hstands : ∀ t ∈ tokens, t.StandsIn [] text)
    (hends : ∀ t ∈ tokens, ∀ c ∈ t.text.toList.getLast?, InLine c) :
    ∃ site front w behind, failure.site? = some site ∧ site.Marks text front w behind ∧
      (site.position = positionBetween front (w ++ behind) ↔
        ¬ PointsBehindBreak tokens failure) := by
  obtain ⟨hindex, help, hsite⟩ := h
  rcases ht : tokens[i]? with _ | t
  · have hi : tokens.length ≤ i := List.getElem?_eq_none_iff.mp ht
    rw [locate_of_end hi] at hsite
    rcases hlast : tokens.getLast? with _ | last
    · obtain rfl := List.getLast?_eq_none_iff.mp hlast
      obtain ⟨front, w, behind, hmarks, hposition⟩ := endSite_nil_located text
      refine ⟨_, front, w, behind, hsite, ⟨hmarks.whole, hmarks.span⟩, iff_of_true hposition ?_⟩
      rintro ⟨-, last, hlast, -⟩
      exact absurd hlast (Option.not_mem_none _)
    · have hmem := List.mem_of_getLast? hlast
      obtain ⟨front, behind, rfl, hstand⟩ := hstands last hmem
      have hmarks := hstand.endSite_marks hlast
      refine ⟨_, _, _, _, hsite, ⟨hmarks.whole, hmarks.span⟩,
        (hstand.endSite_position_iff hlast (hends last hmem)).trans ⟨?_, fun hnot => ?_⟩⟩
      · rintro hline ⟨-, last', hlast', hbreak⟩
        obtain rfl := Option.some.inj (hlast.symm.trans hlast')
        exact hbreak hline
      · by_contra hbreak
        exact hnot ⟨⟨i, hindex, hi⟩, last, hlast, hbreak⟩
  · rw [locate_of_getElem? ht] at hsite
    obtain ⟨front, w, behind, hmarks, hposition⟩ :=
      (hstands t (List.mem_of_getElem? ht)).located
    refine ⟨_, front, w, behind, hsite, ⟨hmarks.whole, hmarks.span⟩, iff_of_true hposition ?_⟩
    rintro ⟨⟨j, hj, hle⟩, -⟩
    obtain rfl := Option.some.inj (hindex.symm.trans hj)
    rw [List.getElem?_eq_none hle] at ht
    simp at ht

/-- For options without a fault: a failure of a parse, whatever its cause, has a span in the text,
that of the piece between two places between characters. Its position is that of the beginning of
the piece, except for a failure behind a last token with a line break in it. -/
theorem failures_sited (h : options.validate = .ok options) :
    ∃ grammar, ofOptions options = .ok grammar ∧
      ∀ text failure, grammar.parse text = .error failure →
        ∃ site span front w behind, failure.site? = some site ∧ site.span = some span ∧
          span.start ≤ span.stop ∧ span.stop ≤ byteLength text.toList ∧
          site.Marks text.toList front w behind ∧
          (site.position = positionBetween front (w ++ behind) ↔
            ¬ ∃ tokens, grammar.tokenize text = .ok tokens ∧ PointsBehindBreak tokens failure) := by
  refine ⟨_, ofOptions_eq (GrammarOptions.fault?_of_validate h).1, fun text failure hparse => ?_⟩
  rcases Failure.bind_eq_error_iff.mp hparse with htokens | ⟨tokens, htokens, hparse⟩
  · obtain ⟨site, hsite, front, w, behind, hmarks, hposition⟩ :=
      Classifier.located_of_tokenize htokens
    obtain ⟨span, hspan, hordered, hinside⟩ := hmarks.in_bounds
    refine ⟨site, span, front, w, behind, hsite, hspan, hordered, hinside, hmarks,
      iff_of_true hposition ?_⟩
    rintro ⟨tokens, htokens', -⟩
    exact absurd (htokens.symm.trans htokens') (by simp)
  · obtain ⟨i, hpoints⟩ := pointsAt_of_parseTokens hparse
    obtain ⟨site, front, w, behind, hsite, hmarks, hiff⟩ :=
      hpoints.marks (Classifier.standsIn_of_tokenize htokens).1 (last_of_tokenize htokens)
    obtain ⟨span, hspan, hordered, hinside⟩ := hmarks.in_bounds
    refine ⟨site, span, front, w, behind, hsite, hspan, hordered, hinside, hmarks,
      hiff.trans (not_congr ⟨fun hbreak => ⟨tokens, htokens, hbreak⟩, ?_⟩)⟩
    rintro ⟨tokens', htokens', hbreak⟩
    obtain rfl := Except.ok.inj (htokens.symm.trans htokens')
    exact hbreak

/-- The end of the second line, behind a character of two bytes in the first. -/
theorem open_sum_sited : GrammarOptions.standard.validate = .ok .standard ∧
    ∃ grammar failure site front w behind, ofOptions .standard = .ok grammar ∧
      grammar.parse "'é'\r\n+" = .error failure ∧ failure.site? = some site ∧
      site.span = some ⟨7, 7⟩ ∧ 7 ≤ byteLength "'é'\r\n+".toList ∧
      site.Marks "'é'\r\n+".toList front w behind ∧
      site.position = positionBetween front (w ++ behind) := by
  have hvalid : GrammarOptions.standard.validate = .ok .standard := rfl
  obtain ⟨grammar, hgrammar, hsited⟩ := failures_sited hvalid
  obtain rfl : ⟨.standard, lexer .standard⟩ = grammar :=
    Except.ok.inj ((ofOptions_eq rfl).symm.trans hgrammar)
  have hplace : placeOf? (parse ⟨.standard, lexer .standard⟩ "'é'\r\n+") =
      some (⟨2, 2⟩, some ⟨7, 7⟩) := by decide +kernel
  have hlast : (tokenize ⟨.standard, lexer .standard⟩ "'é'\r\n+").toOption.any
      (fun tokens => tokens.getLast?.all fun t => t.text.toList.all (InLine ·)) = true := by
    decide +kernel
  obtain ⟨failure, site, hparse, hsite, -, hspan⟩ := exists_of_placeOf? hplace
  obtain ⟨site', span, front, w, behind, hsite', hspan', -, hinside, hmarks, hiff⟩ :=
    hsited _ _ hparse
  obtain rfl := Option.some.inj (hsite.symm.trans hsite')
  obtain rfl := Option.some.inj (hspan.symm.trans hspan')
  refine ⟨hvalid, _, failure, site, front, w, behind, hgrammar, hparse, hsite, hspan, hinside,
    hmarks, hiff.mpr ?_⟩
  rintro ⟨tokens, htokens, -, last, hmem, hbreak⟩
  rw [htokens] at hlast
  have hline : (tokens.getLast?.all fun t => t.text.toList.all (InLine ·)) = true := hlast
  rw [Option.mem_def.mp hmem] at hline
  exact hbreak (by simpa using hline)

/-- Behind a text between quotes with a line break in it, the position is one of the first line. -/
theorem broken_string_misplaced : GrammarOptions.standard.validate = .ok .standard ∧
    ∃ grammar failure site, ofOptions .standard = .ok grammar ∧
      grammar.parse "('a\nb'" = .error failure ∧ failure.site? = some site ∧
      site.position = ⟨1, 7⟩ ∧ site.span = some ⟨6, 6⟩ ∧
      positionBetween "('a\nb'".toList [] = ⟨2, 3⟩ ∧ ¬ site.Located "('a\nb'".toList := by
  have hplace : placeOf? (parse ⟨.standard, lexer .standard⟩ "('a\nb'") =
      some (⟨1, 7⟩, some ⟨6, 6⟩) := by decide +kernel
  obtain ⟨failure, site, hparse, hsite, hposition, hspan⟩ := exists_of_placeOf? hplace
  refine ⟨rfl, _, failure, site, ofOptions_eq rfl, hparse, hsite, hposition, hspan, rfl, ?_⟩
  rintro ⟨front, w, behind, hmarks, hlocated⟩
  have hlength : byteLength front = 6 :=
    (congrArg Span.start (Option.some.inj (hspan.symm.trans hmarks.span))).symm
  have hfront : front = "('a\nb'".toList := by
    rw [← takeBytes_byteLength front (w ++ behind), ← hmarks.whole, hlength]
    rfl
  have hrest := hmarks.whole
  rw [hfront, List.self_eq_append_right] at hrest
  rw [hposition, hfront, hrest] at hlocated
  exact absurd (congrArg Position.line hlocated) (by decide)

end Grammar

end Precedence
