import Precedence.Proofs.Grammar.Adjacency
import Precedence.Proofs.Grammar.Lexemes.ReadBack

/-!
# Points without a word next to them

A decimal numeral that begins or ends with a point stands between word boundaries only if there is a
word character next to the point. If there is none, the point is split off by itself
(`leading_point_lost`, `trailing_point_lost`), and as no program has such a token, the text is
refused (`not_derived_of_point`).
-/

namespace Precedence

namespace Grammar

open Regex TokenPattern Text

variable {options : GrammarOptions} {index : LineIndex} {offset : Nat} {before : Option Char}
  {rest : List Char} {tokens : List Token} {s : Segment}

/-! ### Numerals with a point at one of their ends -/

theorem not_digit_point : digit.contains '.' = false := by
  decide

theorem IsDecimal.of_leading_point {w : List Char} (h : IsDecimal ('.' :: w)) :
    ∃ d ds, w = d :: ds ∧ digit.contains d = true := by
  obtain ⟨whole, point, fraction, exponent, hw, hwhole, hfraction, -, hshape⟩ := h.shape
  rcases hshape with ⟨hne, -⟩ | ⟨rfl, rfl, hne⟩
  · obtain ⟨c, cs, rfl⟩ := List.exists_cons_of_ne_nil hne
    obtain ⟨rfl, -⟩ := List.cons.inj hw
    exact absurd (hwhole '.' List.mem_cons_self) (by simp [not_digit_point])
  · obtain ⟨d, ds, rfl⟩ := List.exists_cons_of_ne_nil hne
    exact ⟨d, ds ++ exponent, (List.cons.inj hw).2, hfraction d List.mem_cons_self⟩

theorem IsDecimal.of_trailing_point {w : List Char} (h : IsDecimal w)
    (hlast : w.getLast? = some '.') :
    ∃ whole, w = whole ++ ['.'] ∧ whole ≠ [] ∧ ∀ c ∈ whole, digit.contains c = true := by
  have hend : ∀ {v : List Char}, (∀ c ∈ v, digit.contains c = true) → v.getLast? ≠ some '.' := by
    intro v hv hpoint
    have hmem := hv '.' (List.mem_of_getLast? hpoint)
    simp [not_digit_point] at hmem
  obtain ⟨whole, point, fraction, exponent, rfl, hwhole, hfraction, hexponent, hshape⟩ := h.shape
  rcases hexponent.getLast? with rfl | ⟨c, hc, hd⟩
  · by_cases hf : fraction = []
    · subst hf
      obtain ⟨hne, ⟨rfl, -⟩ | rfl⟩ | ⟨-, -, hne⟩ := hshape
      · exact absurd hlast (by simpa using hend hwhole)
      · exact ⟨whole, by simp, hne, hwhole⟩
      · exact absurd rfl hne
    · have hpoint : fraction.getLast? = some '.' := by
        rwa [List.append_nil, ← List.append_assoc, List.getLast?_append_of_ne_nil _ hf] at hlast
      exact absurd hpoint (hend hfraction)
  · rw [← List.append_assoc, ← List.append_assoc, List.getLast?_append, hc] at hlast
    obtain rfl : c = '.' := Option.some.inj hlast
    simp [not_digit_point] at hd

theorem not_point_of_ends {w : List Char} {c d : Char} (hhead : w.head? = some c)
    (hlast : w.getLast? = some d) (hne : c ≠ '.' ∧ d ≠ '.') :
    ¬ (w.head? = some '.' ∨ w.getLast? = some '.') := by
  rw [hhead, hlast]
  rintro (hc | hd)
  · exact hne.1 (Option.some.inj hc)
  · exact hne.2 (Option.some.inj hd)

theorem not_point_of_regex {body flags : List Char}
    (hflags : ∀ c ∈ flags, regexFlags.contains c = true) :
    ¬ (('/' :: (body ++ '/' :: flags)).head? = some '.' ∨
      ('/' :: (body ++ '/' :: flags)).getLast? = some '.') := by
  rcases List.eq_nil_or_concat flags with rfl | ⟨front, c, rfl⟩
  · exact not_point_of_ends rfl (List.getLast?_concat (l := '/' :: body)) (by decide)
  · rw [show '/' :: (body ++ '/' :: front.concat c) = '/' :: (body ++ '/' :: front) ++ [c] by simp]
    refine not_point_of_ends rfl List.getLast?_concat ⟨by decide, ?_⟩
    rintro rfl
    exact absurd (hflags '.' (by simp)) (by decide)

/-- Only decimal numerals have a point at one of their ends, among the tokens of a program. -/
theorem decimal_of_point {text : List Char} (h : (lexer options).segment? before text = some s)
    (hk : s.kind ≠ .ignore)
    (hverbatim : s.kind = .verbatim → String.ofList s.text ∈ verbatimTexts options)
    (hpoint : s.text.head? = some '.' ∨ s.text.getLast? = some '.') : IsDecimal s.text := by
  obtain ⟨p, hp, h⟩ := Classifier.exists_pattern h
  have hkind := kind_of_segment h
  rcases mem_patternForms hp with rfl | rfl | rfl | rfl | rfl | rfl | rfl | rfl | rfl | rfl | rfl
  · exact absurd hkind hk
  · exact absurd hkind hk
  · obtain ⟨body, rest, -, -, rfl⟩ := (quoted_segment_iff (by decide)).mp h
    exact absurd hpoint
      (not_point_of_ends rfl (List.getLast?_concat (l := '\'' :: body)) (by decide))
  · obtain ⟨body, rest, -, -, rfl⟩ := (quoted_segment_iff (by decide)).mp h
    exact absurd hpoint
      (not_point_of_ends rfl (List.getLast?_concat (l := '"' :: body)) (by decide))
  · obtain ⟨w, rest, -, hw, -, -, -, rfl⟩ := decimal_segment h
    exact hw
  · obtain ⟨w, rest, -, hw, -, -, -, rfl⟩ := hexadecimal_segment h
    obtain ⟨c, hc, hword⟩ := hw.last
    obtain ⟨mark, digits, rfl, -⟩ := hw
    refine absurd hpoint (not_point_of_ends rfl hc ⟨by decide, ?_⟩)
    rintro rfl
    exact absurd hword (by decide)
  · obtain ⟨word, hword, rest, -, -, -, rfl⟩ := word_segment (by decide) h
    obtain rfl := List.mem_singleton.mp hword
    exact absurd hpoint (not_point_of_ends rfl rfl (by decide))
  · obtain ⟨word, hword, rest, -, -, -, rfl⟩ := word_segment (by decide) h
    obtain rfl | rfl : word = "true" ∨ word = "false" := by simpa using hword
    · exact absurd hpoint (not_point_of_ends rfl rfl (by decide))
    · exact absurd hpoint (not_point_of_ends rfl rfl (by decide))
  · obtain ⟨body, flags, rest, -, -, -, hflags, hs⟩ := regex_segment h
    have htext : s.text = '/' :: (body ++ '/' :: flags) := by
      rcases hs with ⟨-, rfl⟩ | ⟨-, rfl⟩ <;> rfl
    exact absurd hpoint (htext ▸ not_point_of_regex hflags)
  · have hall : ∀ text ∈ allVerbatimTexts,
        ¬ (text.toList.head? = some '.' ∨ text.toList.getLast? = some '.') := by decide
    have hno := hall _ (verbatimTexts_subset (hverbatim hkind))
    rw [String.toList_ofList] at hno
    exact absurd hpoint hno
  · obtain ⟨c, w, rest, -, hc, hw, -, rfl⟩ := identifier_segment_iff.mp h
    have hne : ∀ d ∈ c :: w, d ≠ '.' := by
      rintro d hd rfl
      rcases List.mem_cons.mp hd with rfl | hd
      · exact absurd hc (by decide)
      · exact absurd (hw '.' hd) (by decide)
    rcases hpoint with hhead | hlast
    · exact absurd rfl (hne _ (List.mem_of_head? hhead))
    · exact absurd rfl (hne _ (List.mem_of_getLast? hlast))

/-! ### Points by themselves -/

/-- Of the longer verbatim tokens those that begin with a point go on with another. -/
theorem not_listed_at_point {w behind : List Char} (hw : '.' :: rest = w ++ behind)
    (hrest : rest.head? ≠ some '.') : ∀ v ∈ longSigns ++ verbatimWords, w ≠ v.toList := by
  have hpoints : ∀ v ∈ longSigns ++ verbatimWords, v.toList ≠ [] ∧
      (v.toList.head? = some '.' → v.toList.tail.head? = some '.') := by decide
  rintro v hv rfl
  obtain ⟨hne, hsecond⟩ := hpoints v hv
  obtain ⟨c, cs, hcs⟩ := List.exists_cons_of_ne_nil hne
  rw [hcs] at hw hsecond
  obtain ⟨rfl, rfl⟩ := List.cons.inj hw
  obtain ⟨cs, rfl⟩ := List.head?_eq_some_iff.mp (show cs.head? = some '.' from hsecond rfl)
  exact hrest rfl

/-- Without a word in front or a digit behind, a point is a verbatim token. -/
theorem point_of_segment (h : (lexer options).segment? before ('.' :: rest) = some s)
    (hrest : rest.head? ≠ some '.')
    (hpoint : before.any Unicode.isWord = false ∨ ∀ c ∈ rest.head?, digit.contains c = false) :
    s.kind = .verbatim ∧ s.text = ['.'] := by
  obtain ⟨p, hp, h⟩ := Classifier.exists_pattern h
  obtain ⟨d, -, rest', htext, -, hd⟩ := begins_of_segment h
  obtain ⟨rfl, -⟩ := List.cons.inj htext
  rcases mem_patternForms hp with rfl | rfl | rfl | rfl | rfl | rfl | rfl | rfl | rfl | rfl | rfl
  all_goals try exact absurd hd (by decide)
  · exfalso
    obtain ⟨w, behind, hw', hw, hne, hedge, -, -⟩ := decimal_segment h
    obtain ⟨c, w, rfl⟩ := List.exists_cons_of_ne_nil hne
    obtain ⟨rfl, rfl⟩ := List.cons.inj hw'
    obtain ⟨d, ds, rfl, hdigit⟩ := hw.of_leading_point
    rcases hpoint with hbefore | hstop
    · have hnot : Unicode.isWord '.' = false := by decide
      simp [Edge, hbefore, hnot] at hedge
    · rw [hstop d rfl] at hdigit
      exact Bool.noConfusion hdigit
  · obtain ⟨w, behind, hw', rfl, hw⟩ := verbatim_segment h
    have hnot := not_listed_at_point hw' hrest
    rcases hw with ⟨v, hv, hw⟩ | ⟨v, hv, hw, -⟩ | ⟨c, rfl, -⟩
    · exact absurd hw (hnot v (List.mem_append_left _ hv))
    · exact absurd hw (hnot v (List.mem_append_right _ hv))
    · obtain ⟨rfl, -⟩ := List.cons.inj hw'
      exact ⟨rfl, rfl⟩

theorem not_space_of_numeral {w : List Char} (hw : IsDecimal w ∨ IsHexadecimal w) {c : Char}
    (hc : c ∈ w) : Unicode.isSpace c = false := by
  rcases hw with hw | ⟨mark, digits, rfl, hmark, -, hdigits⟩
  · rcases hw.mem hc with hdigit | hsign
    · exact Unicode.isSpace_of_isWord (isWord_of_digit hdigit)
    · have hall : (['.', 'e', 'E', '-', '+'].all fun c => !Unicode.isSpace c) = true := by
        decide +kernel
      simpa using List.all_eq_true.mp hall c hsign
  · rcases List.mem_cons.mp hc with rfl | hc
    · decide
    rcases List.mem_cons.mp hc with rfl | hc
    · rcases hmark with rfl | rfl <;> decide
    · exact Unicode.isSpace_of_isWord (isWord_of_hexDigit (hdigits c hc))

theorem number_of_digit {c : Char} (hc : digit.contains c = true)
    (h : (lexer options).segment? before (c :: rest) = some s) : s.kind = .number := by
  obtain ⟨p, hp, h⟩ := Classifier.exists_pattern h
  obtain ⟨d, -, rest', htext, -, hd⟩ := begins_of_segment h
  obtain ⟨rfl, -⟩ := List.cons.inj htext
  have hall := CharSet.forall_mem (p := fun c => (patternForms .standard).all fun q =>
    q.kind == .number || !q.pattern.body.heads.contains c) rfl (by decide +kernel) hc
  have hhead := List.all_eq_true.mp hall p (mem_standardForms hp)
  rw [hd, Bool.not_true, Bool.or_false, beq_iff_eq] at hhead
  rw [kind_of_segment h, hhead]

/-- Without a word behind it, a point is left over by the digits in front. -/
theorem digits_of_segment {whole : List Char} (hne : whole ≠ [])
    (hwhole : ∀ c ∈ whole, digit.contains c = true)
    (hrest : ∀ c ∈ rest.head?, Unicode.isSpace c = true)
    (h : (lexer options).segment? before (whole ++ '.' :: rest) = some s) :
    s.kind = .number ∧ s.text = whole ∧ s.rest = '.' :: rest := by
  have hk : s.kind = .number := by
    obtain ⟨c, cs, rfl⟩ := List.exists_cons_of_ne_nil hne
    exact number_of_digit (hwhole c List.mem_cons_self) h
  obtain ⟨hw, -, hback, -⟩ := number_segment h hk
  have hsplit := Classifier.whole_of_segment h
  have hneText := Classifier.ne_nil_of_segment h
  refine ⟨hk, ?_⟩
  rcases List.append_eq_append_iff.mp hsplit with ⟨a, htext, ha⟩ | ⟨a, ha, htext⟩
  · rcases a with _ | ⟨c, a⟩
    · exact ⟨by rw [htext, List.append_nil], ha.symm⟩
    -- beyond the digits there would be a point, and no numeral goes on behind that
    obtain ⟨rfl, rfl⟩ := List.cons.inj ha
    rcases a with _ | ⟨d, a⟩
    · rw [htext, List.getLast?_concat] at hback
      have hstop : s.rest.head?.any Unicode.isWord = false :=
        not_any_of_forall fun c hc => Unicode.isWord_of_isSpace (hrest c hc)
      rw [Edge, hstop] at hback
      exact absurd hback (by decide)
    · have hspace := hrest d rfl
      rw [not_space_of_numeral hw (by rw [htext]; simp)] at hspace
      exact Bool.noConfusion hspace
  · rcases a with _ | ⟨c, a⟩
    · exact ⟨by rw [ha, List.append_nil], htext⟩
    -- short of them it would end between two digits
    have hlast : s.text.getLast?.any Unicode.isWord = true := by
      rw [List.getLast?_eq_some_getLast hneText]
      refine isWord_of_digit (hwhole _ ?_)
      rw [ha]
      exact List.mem_append_left _ (List.getLast_mem hneText)
    have hstop := not_word_of_last_edge hback hlast
    rw [htext] at hstop
    have hword : Unicode.isWord c = true := isWord_of_digit (hwhole c (by rw [ha]; simp))
    exact absurd hstop (by simp [hword])

/-! ### Texts with points by themselves -/

theorem point_of_tokensFrom
    (h : (lexer options).tokensFrom index offset before ('.' :: rest) = .ok tokens)
    (hrest : rest.head? ≠ some '.')
    (hpoint : before.any Unicode.isWord = false ∨ ∀ c ∈ rest.head?, digit.contains c = false) :
    ∃ t ∈ tokens, t.IsVerbatim "." := by
  obtain ⟨s, ts, hs, -, hcases⟩ := Classifier.tokensFrom_cons h
  obtain ⟨hk, htext⟩ := point_of_segment hs hrest hpoint
  rcases hcases with ⟨hignore, -⟩ | ⟨-, t, ht, rfl⟩
  · rw [hk] at hignore
    exact absurd hignore (by decide)
  · have htoken := Classifier.isTokenOf_of_token ht
    refine ⟨t, List.mem_cons_self, htoken.kind.trans hk, htoken.text.trans ?_⟩
    rw [htext]

/-- Where no word goes on in front of a numeral that begins with a point, the point is split off. -/
theorem leading_point_lost {w : List Char} (hw : IsDecimal w) (hhead : w.head? = some '.')
    (hbefore : before.any Unicode.isWord = false)
    (h : (lexer options).tokensFrom index offset before (w ++ rest) = .ok tokens) :
    ∃ t ∈ tokens, t.IsVerbatim "." := by
  obtain ⟨w, rfl⟩ := List.head?_eq_some_iff.mp hhead
  obtain ⟨d, ds, rfl, hd⟩ := hw.of_leading_point
  refine point_of_tokensFrom h (fun hpoint => ?_) (Or.inl hbefore)
  obtain rfl : d = '.' := Option.some.inj hpoint
  simp [not_digit_point] at hd

/-- Where no word goes on behind a numeral that ends with a point, the point is split off. -/
theorem trailing_point_lost {w : List Char} (hw : IsDecimal w) (hlast : w.getLast? = some '.')
    (hrest : ∀ c ∈ rest.head?, Unicode.isSpace c = true)
    (h : (lexer options).tokensFrom index offset before (w ++ rest) = .ok tokens) :
    ∃ t ∈ tokens, t.IsVerbatim "." := by
  obtain ⟨whole, rfl, hne, hwhole⟩ := hw.of_trailing_point hlast
  obtain ⟨c, cs, rfl⟩ := List.exists_cons_of_ne_nil hne
  rw [List.append_assoc] at h
  obtain ⟨s, ts, hs, hts, hcases⟩ := Classifier.tokensFrom_cons h
  obtain ⟨-, -, hbehind⟩ := digits_of_segment hne hwhole hrest hs
  have hspace : ∀ {d : Char}, Unicode.isSpace d = true → d ≠ '.' ∧ digit.contains d = false := by
    intro d hd
    refine ⟨?_, Bool.eq_false_iff.mpr fun hdigit => ?_⟩
    · rintro rfl
      exact absurd hd (by decide)
    · rw [Unicode.isSpace_of_isWord (isWord_of_digit hdigit)] at hd
      exact Bool.noConfusion hd
  rw [hbehind] at hts
  obtain ⟨t, ht, hpoint⟩ := point_of_tokensFrom hts (fun hd => (hspace (hrest '.' hd)).1 rfl)
    (Or.inr fun d hd => (hspace (hrest d hd)).2)
  rcases hcases with ⟨-, rfl⟩ | ⟨-, u, -, rfl⟩
  · exact ⟨t, ht, hpoint⟩
  · exact ⟨t, List.mem_cons_of_mem u ht, hpoint⟩

/-- No program has a point as a token of its own. -/
theorem not_derived_of_point (h : ∃ t ∈ tokens, t.IsVerbatim ".") {place : Place} {d : Nat}
    {e : Expr} : ¬ Compound options place d tokens e := by
  intro hderived
  obtain ⟨t, ht, hk, htext⟩ := h
  have hmem := verbatimTexts_subset (hderived.adjoins.verbatim t ht hk)
  rw [htext] at hmem
  exact absurd hmem (by decide)

end Grammar

end Precedence
