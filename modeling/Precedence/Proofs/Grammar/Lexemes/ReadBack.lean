import Precedence.Proofs.Grammar.Lexemes.Joints

/-!
# Segments in print

The segment of an identifier or of a literal is read back where it is printed: in front of it stands
nothing, a blank or a parenthesis, and behind it nothing, a blank, a parenthesis or a comma. Only
numerals with a point at one of their ends are not. The signs and words that are printed between
operands are read back as well.
-/

namespace Precedence

namespace Grammar

open Regex TokenPattern Text

variable {options : GrammarOptions} {before : Option Char} {text : List Char} {s : Segment}

/-- Wherever it is printed, `w` is read as a segment of that kind with these groups. -/
def ReadsBack (options : GrammarOptions) (kind : TokenKind) (w : List Char)
    (captures : List (Option (List Char))) : Prop :=
  ∀ before rest, Opening before → Closing rest →
    (lexer options).segment? before (w ++ rest) = some ⟨kind, w, captures, rest⟩

/-- The segment of a pattern, if those in front of it have none. -/
theorem lexer_segment (front : List TokenPattern) {p : TokenPattern} {back : List TokenPattern}
    (hforms : patternForms options = front ++ p :: back)
    (hfront : ∀ q ∈ front, q.segment? before text = none) (h : p.segment? before text = some s) :
    (lexer options).segment? before text = some s := by
  rw [lexer, Classifier.segment?, hforms, List.findSome?_append,
    List.findSome?_eq_none_iff.mpr hfront, Option.none_or, List.findSome?_cons, h]

theorem none_of_heads {c : Char} {cs : List Char} {front : List TokenPattern}
    (h : (front.all fun q => !q.pattern.body.heads.contains c) = true) :
    ∀ q ∈ front, q.segment? before (c :: cs) = none := by
  intro q hq
  refine segment?_eq_none ?_
  simpa using List.all_eq_true.mp h q hq

/-- The patterns in front of those for numerals. -/
def firstForms : List TokenPattern :=
  [⟨.ignore, blanks, blanksForm⟩, ⟨.ignore, comment, commentForm⟩,
    ⟨.string, singleQuoted, quotedForm '\''⟩, ⟨.string, doubleQuoted, quotedForm '"'⟩]

/-- The patterns for numerals and for the words that stand for literals. -/
def secondForms : List TokenPattern :=
  [⟨.number, decimal, decimalForm⟩, ⟨.number, hexadecimal, hexadecimalForm⟩,
    ⟨.null, null, wordsForm ["null"]⟩, ⟨.boolean, boolean, wordsForm ["true", "false"]⟩]

theorem patternForms_of_regex (h : options.regexLiterals = true) :
    patternForms options = firstForms ++ secondForms ++ ⟨.regex, regex, regexForm⟩ ::
      [⟨.verbatim, verbatim, verbatimForm⟩, ⟨.identifier, identifier, identifierForm⟩] := by
  rw [patternForms, if_pos h]
  rfl

/-- The patterns in front of that for verbatim tokens. -/
theorem exists_front (options : GrammarOptions) : ∃ front, patternForms options =
    front ++ [⟨.verbatim, verbatim, verbatimForm⟩, ⟨.identifier, identifier, identifierForm⟩] ∧
      ∀ q ∈ front, q ∈ firstForms ++ secondForms ∨
        options.regexLiterals = true ∧ q = ⟨.regex, regex, regexForm⟩ := by
  rcases hr : options.regexLiterals with _ | _
  · refine ⟨firstForms ++ secondForms, ?_, fun q hq => Or.inl hq⟩
    rw [patternForms, if_neg (by simp [hr])]
    rfl
  · refine ⟨firstForms ++ secondForms ++ [⟨.regex, regex, regexForm⟩],
      patternForms_of_regex hr, fun q hq => ?_⟩
    rcases List.mem_append.mp hq with hq | hq
    · exact Or.inl hq
    · exact Or.inr ⟨rfl, List.mem_singleton.mp hq⟩

theorem firstForms_of_digit {c : Char} {cs : List Char} (h : digit.contains c = true) :
    ∀ q ∈ firstForms, q.segment? before (c :: cs) = none := by
  exact none_of_heads (CharSet.forall_mem
    (p := fun c => firstForms.all fun q => !q.pattern.body.heads.contains c)
    rfl (by decide +kernel) h)

/-- The last patterns are the only ones of their kinds. -/
theorem segment_of_kind (h : (lexer options).segment? before text = some s) :
    (s.kind = .regex → TokenPattern.segment? ⟨.regex, regex, regexForm⟩ before text = some s) ∧
      (s.kind = .verbatim →
        TokenPattern.segment? ⟨.verbatim, verbatim, verbatimForm⟩ before text = some s) ∧
      (s.kind = .identifier →
        TokenPattern.segment? ⟨.identifier, identifier, identifierForm⟩ before text = some s) := by
  obtain ⟨p, hp, h⟩ := Classifier.exists_pattern h
  rw [kind_of_segment h]
  rcases mem_patternForms hp with rfl | rfl | rfl | rfl | rfl | rfl | rfl | rfl | rfl | rfl | rfl
  all_goals exact ⟨fun hk => by first | exact h | exact absurd hk (by decide),
    fun hk => by first | exact h | exact absurd hk (by decide),
    fun hk => by first | exact h | exact absurd hk (by decide)⟩

/-! ### Literals -/

/-- A quoted text is taken again, whatever stands around it. -/
theorem string_taken (h : (lexer options).segment? before text = some s) (hk : s.kind = .string)
    (before' : Option Char) (rest' : List Char) :
    (lexer options).segment? before' (s.text ++ rest') =
      some ⟨.string, s.text, s.captures, rest'⟩ := by
  obtain ⟨p, hp, h⟩ := Classifier.exists_pattern h
  rw [kind_of_segment h] at hk
  rcases mem_patternForms hp with rfl | rfl | rfl | rfl | rfl | rfl | rfl | rfl | rfl | rfl | rfl
  all_goals try exact absurd hk (by decide)
  · obtain ⟨body, rest, -, hbody, rfl⟩ := (quoted_segment_iff (by decide)).mp h
    refine lexer_segment [_, _] rfl (none_of_heads (by decide))
      ((quoted_segment_iff (by decide)).mpr ⟨body, rest', by simp, hbody, rfl⟩)
  · obtain ⟨body, rest, -, hbody, rfl⟩ := (quoted_segment_iff (by decide)).mp h
    refine lexer_segment [_, _, _] rfl (none_of_heads (by decide))
      ((quoted_segment_iff (by decide)).mpr ⟨body, rest', by simp, hbody, rfl⟩)

theorem string_readsBack (h : (lexer options).segment? before text = some s)
    (hk : s.kind = .string) : ReadsBack options .string s.text s.captures :=
  fun before' rest' _ _ => string_taken h hk before' rest'

/-- A number is a numeral between word boundaries. -/
theorem number_segment (h : (lexer options).segment? before text = some s)
    (hk : s.kind = .number) :
    (IsDecimal s.text ∨ IsHexadecimal s.text) ∧ Edge before text ∧ Edge s.text.getLast? s.rest ∧
      s.captures = [some s.text] := by
  obtain ⟨p, hp, h⟩ := Classifier.exists_pattern h
  rw [kind_of_segment h] at hk
  rcases mem_patternForms hp with rfl | rfl | rfl | rfl | rfl | rfl | rfl | rfl | rfl | rfl | rfl
  all_goals try exact absurd hk (by decide)
  · obtain ⟨w, rest, -, hw, -, hfront, hback, rfl⟩ := decimal_segment h
    exact ⟨Or.inl hw, hfront, hback, rfl⟩
  · obtain ⟨w, rest, -, hw, -, hfront, hback, rfl⟩ := hexadecimal_segment h
    exact ⟨Or.inr hw, hfront, hback, rfl⟩

/-- A numeral is taken between word boundaries, if no decimal numeral goes on behind it. -/
theorem number_taken {w rest : List Char} (hw : IsDecimal w ∨ IsHexadecimal w)
    (hfront : Edge before (w ++ rest)) (hback : Edge w.getLast? rest) (hrest : EndsNumeral rest) :
    (lexer options).segment? before (w ++ rest) = some ⟨.number, w, [some w], rest⟩ := by
  rcases hw with hw | hw
  · refine lexer_segment firstForms rfl ?_ (decimal_taken hw hfront hback hrest)
    obtain ⟨c, cs, rfl, hdigit | rfl⟩ := hw.head
    · exact firstForms_of_digit hdigit
    · exact none_of_heads (by decide)
  · refine lexer_segment (firstForms ++ [⟨.number, decimal, decimalForm⟩]) rfl (fun q hq => ?_)
      (hexadecimal_taken hw hfront hback)
    obtain ⟨mark, digits, rfl, hmark, -⟩ := hw
    rcases List.mem_append.mp hq with hq | hq
    · exact firstForms_of_digit (by decide) q hq
    · obtain rfl := List.mem_singleton.mp hq
      exact decimal_none hmark

/-- The ends of a numeral are word characters, or points. -/
theorem ends_of_numeral {w : List Char} (hw : IsDecimal w ∨ IsHexadecimal w) :
    (∃ c cs, w = c :: cs ∧ (Unicode.isWord c = true ∨ c = '.')) ∧
      ∃ c, w.getLast? = some c ∧ (Unicode.isWord c = true ∨ c = '.') := by
  rcases hw with hw | hw
  · obtain ⟨c, cs, hc, hhead⟩ := hw.head
    obtain ⟨d, hd, hlast⟩ := hw.last
    exact ⟨⟨c, cs, hc, hhead.imp_left isWord_of_digit⟩, d, hd, hlast.imp_left isWord_of_digit⟩
  · obtain ⟨d, hd, hlast⟩ := hw.last
    obtain ⟨mark, digits, rfl, -⟩ := hw
    exact ⟨⟨'0', _, rfl, Or.inl (by decide)⟩, d, hd, Or.inl hlast⟩

theorem number_readsBack (h : (lexer options).segment? before text = some s)
    (hk : s.kind = .number) (hhead : s.text.head? ≠ some '.') (hlast : s.text.getLast? ≠ some '.') :
    ReadsBack options .number s.text s.captures := by
  obtain ⟨hw, -, -, hcaptures⟩ := number_segment h hk
  obtain ⟨⟨c, cs, hc, hword | rfl⟩, d, hd, hword' | rfl⟩ := ends_of_numeral hw
  · intro before' rest' hbefore hrest
    rw [hcaptures]
    exact number_taken hw (edge_of_word hbefore.not_word (by rw [hc]; exact hword))
      (edge_of_last_word hrest.not_word (by rw [hd]; exact hword')) hrest.endsNumeral
  · exact absurd hd hlast
  · exact absurd (by rw [hc]; rfl) hhead
  · exact absurd hd hlast

/-- No word goes on around one that stands for a literal. -/
theorem not_word_of_literal (h : (lexer options).segment? before text = some s)
    (hk : s.kind = .null ∨ s.kind = .boolean) :
    before.any Unicode.isWord = false ∧ s.rest.head?.any Unicode.isWord = false := by
  obtain ⟨words, hwords, kind, source, hword⟩ : ∃ words, (∀ v ∈ words,
      v.toList.head?.any Unicode.isWord = true ∧ v.toList.getLast?.any Unicode.isWord = true) ∧
      ∃ kind source, TokenPattern.segment? ⟨kind, source, wordsForm words⟩ before text = some s ∧
        words ≠ [] := by
    obtain ⟨p, hp, h⟩ := Classifier.exists_pattern h
    rw [kind_of_segment h] at hk
    rcases mem_patternForms hp with
      rfl | rfl | rfl | rfl | rfl | rfl | rfl | rfl | rfl | rfl | rfl
    all_goals try exact absurd hk (by decide)
    · exact ⟨["null"], by decide, _, _, h, by decide⟩
    · exact ⟨["true", "false"], by decide, _, _, h, by decide⟩
  obtain ⟨v, hv, rest, rfl, hfront, hback, rfl⟩ := word_segment hword.2 hword.1
  exact ⟨not_word_of_edge hfront (hwords v hv).1, not_word_of_last_edge hback (hwords v hv).2⟩

/-- A word that stands for a literal is taken where no other word goes on around it. -/
theorem null_taken (h : (lexer options).segment? before text = some s) (hk : s.kind = .null)
    {before' : Option Char} {rest' : List Char} (hbefore : before'.any Unicode.isWord = false)
    (hrest : rest'.head?.any Unicode.isWord = false) :
    (lexer options).segment? before' (s.text ++ rest') =
      some ⟨.null, s.text, s.captures, rest'⟩ := by
  obtain ⟨p, hp, h⟩ := Classifier.exists_pattern h
  rw [kind_of_segment h] at hk
  rcases mem_patternForms hp with rfl | rfl | rfl | rfl | rfl | rfl | rfl | rfl | rfl | rfl | rfl
  all_goals try exact absurd hk (by decide)
  obtain ⟨word, hword, rest, -, -, -, rfl⟩ := word_segment (by decide) h
  obtain rfl := List.mem_singleton.mp hword
  exact lexer_segment [_, _, _, _, _, _] rfl (none_of_heads (by decide))
    (word_segment_of_edges rfl (by decide) (by decide) hword
      (edge_of_word hbefore (by decide)) (edge_of_last_word hrest (by decide)))

theorem boolean_taken (h : (lexer options).segment? before text = some s) (hk : s.kind = .boolean)
    {before' : Option Char} {rest' : List Char} (hbefore : before'.any Unicode.isWord = false)
    (hrest : rest'.head?.any Unicode.isWord = false) :
    (lexer options).segment? before' (s.text ++ rest') =
      some ⟨.boolean, s.text, s.captures, rest'⟩ := by
  obtain ⟨p, hp, h⟩ := Classifier.exists_pattern h
  rw [kind_of_segment h] at hk
  rcases mem_patternForms hp with rfl | rfl | rfl | rfl | rfl | rfl | rfl | rfl | rfl | rfl | rfl
  all_goals try exact absurd hk (by decide)
  obtain ⟨word, hword, rest, -, -, -, rfl⟩ := word_segment (by decide) h
  obtain rfl | rfl : word = "true" ∨ word = "false" := by simpa using hword
  all_goals
    exact lexer_segment [_, _, _, _, _, _, _] rfl (none_of_heads (by decide))
      (word_segment_of_edges rfl (by decide) (by decide) hword
        (edge_of_word hbefore (by decide)) (edge_of_last_word hrest (by decide)))

theorem null_readsBack (h : (lexer options).segment? before text = some s) (hk : s.kind = .null) :
    ReadsBack options .null s.text s.captures :=
  fun _ _ hbefore hrest => null_taken h hk hbefore.not_word hrest.not_word

theorem boolean_readsBack (h : (lexer options).segment? before text = some s)
    (hk : s.kind = .boolean) : ReadsBack options .boolean s.text s.captures :=
  fun _ _ hbefore hrest => boolean_taken h hk hbefore.not_word hrest.not_word

/-- Only where the options admit them is there a regular expression. -/
theorem regexLiterals_of_segment (hs : (lexer options).segment? before text = some s)
    (hk : s.kind = .regex) : options.regexLiterals = true := by
  obtain ⟨p, hp, h⟩ := Classifier.exists_pattern hs
  rw [kind_of_segment h] at hk
  rcases hr : options.regexLiterals with _ | _
  · simp only [lexer, patternForms, hr, Bool.false_eq_true, if_false, List.append_nil,
      List.cons_append, List.nil_append, List.mem_cons, List.not_mem_nil, or_false] at hp
    rcases hp with rfl | rfl | rfl | rfl | rfl | rfl | rfl | rfl | rfl | rfl <;>
      exact absurd hk (by decide)
  · rfl

/-- Where a regular expression begins, nothing else does. -/
theorem lexer_regex (hr : options.regexLiterals = true) {body tail : List Char} (hne : body ≠ [])
    (hbody : ∀ c ∈ body, regexBody.contains c = true)
    (h : TokenPattern.segment? ⟨.regex, regex, regexForm⟩ before ('/' :: (body ++ tail)) = some s) :
    (lexer options).segment? before ('/' :: (body ++ tail)) = some s := by
  obtain ⟨c, body, rfl⟩ := List.exists_cons_of_ne_nil hne
  refine lexer_segment (firstForms ++ secondForms) (patternForms_of_regex hr) (fun q hq => ?_) h
  simp only [firstForms, secondForms, List.cons_append, List.nil_append, List.mem_cons,
    List.not_mem_nil, or_false] at hq
  rcases hq with rfl | rfl | hq
  · exact segment?_eq_none (by decide)
  · exact comment_none (contains_regexBody.mp (hbody c List.mem_cons_self))
  · rcases hq with rfl | rfl | rfl | rfl | rfl | rfl <;> exact segment?_eq_none (by decide)

/-- The flags of a regular expression are read back as a group of their own if there are any. -/
theorem regex_readsBack (h : (lexer options).segment? before text = some s)
    (hk : s.kind = .regex) (hr : options.regexLiterals = true) : ∃ body flags,
      s.text = '/' :: (body ++ '/' :: flags) ∧
        (s.captures = [some body, some flags] ∨ flags = [] ∧ s.captures = [some body, none]) ∧
        ReadsBack options .regex s.text [some body, if flags = [] then none else some flags] := by
  obtain ⟨body, flags, rest, -, hne, hbody, hflags, hs⟩ := regex_segment ((segment_of_kind h).1 hk)
  have htext : s.text = '/' :: (body ++ '/' :: flags) := by
    rcases hs with ⟨-, rfl⟩ | ⟨-, rfl⟩ <;> rfl
  refine ⟨body, flags, htext, ?_, fun before' rest' _ hrest => ?_⟩
  · rcases hs with ⟨hempty, rfl⟩ | ⟨-, rfl⟩
    · exact Or.inr ⟨hempty, rfl⟩
    · exact Or.inl rfl
  · rw [htext, show '/' :: (body ++ '/' :: flags) ++ rest' =
      '/' :: (body ++ '/' :: (flags ++ rest')) by simp]
    exact lexer_regex hr hne hbody (regex_printed hrest.not_word hne hbody hflags)

/-! ### Identifiers -/

/-- At the beginning of an identifier the pattern takes just these words, between word
boundaries. -/
structure TakesWords (q : TokenPattern) (words : List String) : Prop where
  sound : ∀ {before text s c}, q.segment? before text = some s → c ∈ text.head? →
    identifierStart.contains c = true →
    ∃ word ∈ words, ∃ rest, text = word.toList ++ rest ∧ Edge word.toList.getLast? rest
  complete : ∀ {before word rest}, word ∈ words → Edge before (word.toList ++ rest) →
    Edge word.toList.getLast? rest → (q.segment? before (word.toList ++ rest)).isSome

theorem takesWords_wordsForm {kind : TokenKind} {source : String} {words : List String}
    (hwords : words ≠ []) (hplain : (wordBody words).plain = true)
    (hne : ∀ w ∈ words, w.toList ≠ [])
    (hdistinct : ∀ v ∈ words, ∀ w ∈ words, v.toList.head? = w.toList.head? → v = w) :
    TakesWords ⟨kind, source, wordsForm words⟩ words where
  sound h _ _ := by
    obtain ⟨word, hword, rest, htext, -, hback, -⟩ := word_segment hwords h
    exact ⟨word, hword, rest, htext, hback⟩
  complete hword hfront hback := by
    rw [word_segment_of_edges hplain hne hdistinct hword hfront hback]
    rfl

theorem takesWords_verbatim : TakesWords ⟨.verbatim, verbatim, verbatimForm⟩ verbatimWords where
  sound {before text s c} h hhead hc := by
    obtain ⟨w, rest, rfl, -, ⟨sign, hsign, rfl⟩ | ⟨word, hword, rfl, -, hback⟩ | ⟨d, rfl, hd⟩⟩ :=
      verbatim_segment h
    · have hall : ∀ sign ∈ longSigns,
          sign.toList.head?.any (fun d => !identifierStart.contains d) = true := by decide
      obtain ⟨d, hd, hstart⟩ := (Option.any_eq_true _ _).mp (hall sign hsign)
      rw [List.head?_append, hd] at hhead
      obtain rfl : d = c := Option.some.inj hhead
      rw [hc] at hstart
      exact Bool.noConfusion hstart
    · exact ⟨word, hword, rest, rfl, hback⟩
    · obtain rfl : d = c := Option.some.inj hhead
      have hall := CharSet.forall_mem (p := fun c => !identifierStart.contains c) rfl
        (by decide +kernel) hd
      rw [hc] at hall
      exact Bool.noConfusion hall
  complete {before word rest} hword hfront hback := by
    have hall : ∀ word ∈ verbatimWords, word.toList ≠ [] := by decide
    exact verbatim_isSome_of_word hword (hall word hword) hfront hback

/-- A word of an identifier's characters, of which all are word characters. -/
def IsKeyword (word : List Char) : Prop :=
  word ≠ [] ∧ ∀ c ∈ word, Unicode.isAscii c = true ∧ Unicode.isWord c = true

/-- What is no word between word boundaries in the text is none elsewhere, if no word goes on behind
it. -/
theorem TakesWords.none_elsewhere {q : TokenPattern} {words : List String} (hq : TakesWords q words)
    (hwords : ∀ word ∈ words, IsKeyword word.toList) {before' : Option Char} {c : Char}
    {w rest rest' : List Char} (hc : identifierStart.contains c = true)
    (hjoined : Joined before (c :: (w ++ rest)))
    (hrest : rest.head?.any Unicode.isWord = false)
    (hrest' : rest'.head?.any Unicode.isWord = false)
    (h : q.segment? before (c :: (w ++ rest)) = none) :
    q.segment? before' (c :: (w ++ rest')) = none := by
  rcases hs : q.segment? before' (c :: (w ++ rest')) with _ | s
  · rfl
  exfalso
  obtain ⟨word, hword, r, htext, hback⟩ := hq.sound hs rfl hc
  obtain ⟨hne, hchars⟩ := hwords word hword
  have hlast : word.toList.getLast? = some (word.toList.getLast hne) :=
    List.getLast?_eq_some_getLast hne
  have hlastWord := (hchars _ (List.getLast_mem hne)).2
  have hr : r.head?.any Unicode.isWord = false := by
    rw [Edge, hlast] at hback
    simpa [hlastWord] using hback
  -- the word ends within the identifier, and there it ended in the text
  obtain ⟨v, hv, hstop⟩ : ∃ v, c :: w = word.toList ++ v ∧
      (v ++ rest).head?.any Unicode.isWord = false := by
    rcases List.append_eq_append_iff.mp (show c :: w ++ rest' = word.toList ++ r from htext) with
      ⟨v, hv, hrest''⟩ | ⟨v, hv, rfl⟩
    · rcases v with _ | ⟨d, v⟩
      · exact ⟨[], by rw [hv, List.append_nil, List.append_nil], hrest⟩
      · have hd := (hchars d (by rw [hv]; simp)).2
        rw [hrest''] at hrest'
        exact absurd hd (by simpa using hrest')
    · refine ⟨v, hv, ?_⟩
      rcases v with _ | ⟨d, v⟩
      · exact hrest
      · exact hr
  have htext' : c :: (w ++ rest) = word.toList ++ (v ++ rest) := by
    rw [← List.append_assoc, ← hv]
    rfl
  have hfirst : c ∈ word.toList := by
    obtain ⟨d, ds, hd⟩ := List.exists_cons_of_ne_nil hne
    rw [hd] at hv ⊢
    exact (List.cons.inj hv).1 ▸ List.mem_cons_self
  rw [htext'] at h hjoined
  have hbefore := hjoined c (by rw [← htext']; rfl) (hchars c hfirst).1 (hchars c hfirst).2
  have hsome : (q.segment? before (word.toList ++ (v ++ rest))).isSome := hq.complete hword
    (by rw [Edge, hbefore, ← htext']; simpa using (hchars c hfirst).2)
    (by rw [Edge, hlast, hstop]; simpa using hlastWord)
  rw [h] at hsome
  exact Bool.noConfusion hsome

/-- The patterns in front of one that has the segment have none themselves. -/
theorem none_of_front {front back : List TokenPattern}
    (hforms : patternForms options = front ++ back)
    (h : (lexer options).segment? before text = some s) (hkind : ∀ q ∈ front, q.kind ≠ s.kind) :
    ∀ q ∈ front, q.segment? before text = none := by
  rw [lexer, Classifier.segment?, hforms, List.findSome?_append] at h
  rcases hfront : front.findSome? (·.segment? before text) with _ | s'
  · exact List.findSome?_eq_none_iff.mp hfront
  · rw [hfront, Option.some_or] at h
    obtain ⟨q, hq, hs⟩ := List.exists_of_findSome?_eq_some hfront
    rw [Option.some.inj h] at hs
    exact absurd (kind_of_segment hs).symm (hkind q hq)

/-- The patterns in front of that for identifiers. -/
def earlierForms : List TokenPattern :=
  firstForms ++ secondForms ++ [⟨.regex, regex, regexForm⟩, ⟨.verbatim, verbatim, verbatimForm⟩]

/-- The patterns with which no segment begins as an identifier does. -/
def unlikeForms : List TokenPattern :=
  firstForms ++ [⟨.number, decimal, decimalForm⟩, ⟨.number, hexadecimal, hexadecimalForm⟩,
    ⟨.regex, regex, regexForm⟩]

/-- The keywords with the kinds of their tokens. -/
def keywordForms : List (TokenKind × List String) :=
  [(.null, ["null"]), (.boolean, ["true", "false"]), (.verbatim, verbatimWords)]

theorem unlikeForms_none {before : Option Char} {c : Char} {cs : List Char}
    (hc : identifierStart.contains c = true) :
    ∀ q ∈ unlikeForms, q.segment? before (c :: cs) = none :=
  none_of_heads (CharSet.forall_mem
    (p := fun c => unlikeForms.all fun q => !q.pattern.body.heads.contains c)
    rfl (by decide +kernel) hc)

/-- A pattern in front of that for identifiers takes nothing where one begins, or just keywords of
its kind. -/
theorem earlierForms_cases {q : TokenPattern} (hq : q ∈ earlierForms) :
    q ∈ unlikeForms ∨ ∃ words, TakesWords q words ∧ (q.kind, words) ∈ keywordForms := by
  have hcases : q ∈ unlikeForms ∨ q = ⟨.null, null, wordsForm ["null"]⟩ ∨
      q = ⟨.boolean, boolean, wordsForm ["true", "false"]⟩ ∨
      q = ⟨.verbatim, verbatim, verbatimForm⟩ := by
    simp only [earlierForms, firstForms, secondForms, List.cons_append, List.nil_append,
      List.mem_cons, List.not_mem_nil, or_false] at hq
    rcases hq with rfl | rfl | rfl | rfl | rfl | rfl | rfl | rfl | rfl | rfl <;>
      simp [unlikeForms, firstForms]
  rcases hcases with hq | rfl | rfl | rfl
  · exact Or.inl hq
  · exact Or.inr ⟨_, takesWords_wordsForm (by decide) rfl (by decide) (by decide),
      by simp [keywordForms]⟩
  · exact Or.inr ⟨_, takesWords_wordsForm (by decide) rfl (by decide) (by decide),
      by simp [keywordForms]⟩
  · exact Or.inr ⟨_, takesWords_verbatim, by simp [keywordForms]⟩

theorem keywords : ∀ word ∈ ["null"] ++ ["true", "false"] ++ verbatimWords,
    IsKeyword word.toList := by
  have hall : ∀ word ∈ ["null"] ++ ["true", "false"] ++ verbatimWords, word.toList ≠ [] ∧
      word.toList.all (fun c => Unicode.isAscii c && Unicode.isWord c) = true := by decide +kernel
  intro word hword
  obtain ⟨hne, hchars⟩ := hall word hword
  exact ⟨hne, fun c hc => Bool.and_eq_true_iff.mp (List.all_eq_true.mp hchars c hc)⟩

theorem earlier_none_elsewhere {q : TokenPattern} (hq : q ∈ earlierForms) {before' : Option Char}
    {c : Char} {w rest rest' : List Char} (hc : identifierStart.contains c = true)
    (hjoined : Joined before (c :: (w ++ rest)))
    (hrest : rest.head?.any Unicode.isWord = false)
    (hrest' : rest'.head?.any Unicode.isWord = false)
    (h : q.segment? before (c :: (w ++ rest)) = none) :
    q.segment? before' (c :: (w ++ rest')) = none := by
  have hall : ∀ f ∈ keywordForms, ∀ v ∈ f.2,
      v ∈ ["null"] ++ ["true", "false"] ++ verbatimWords := by decide
  rcases earlierForms_cases hq with hq | ⟨words, htakes, hwords⟩
  · exact unlikeForms_none hc q hq
  · exact htakes.none_elsewhere (fun v hv => keywords v (hall _ hwords v hv)) hc hjoined hrest
      hrest' h

/-- An identifier is taken again where neither it nor another word goes on behind it. -/
theorem identifier_taken (hjoined : Joined before text)
    (h : (lexer options).segment? before text = some s) (hk : s.kind = .identifier)
    (hrest : s.rest.head?.any Unicode.isWord = false) {before' : Option Char} {rest' : List Char}
    (hstop' : ∀ c ∈ rest'.head?, identifierPart.contains c = false)
    (hrest' : rest'.head?.any Unicode.isWord = false) :
    (lexer options).segment? before' (s.text ++ rest') =
      some ⟨.identifier, s.text, s.captures, rest'⟩ := by
  obtain ⟨front, hforms, hfront⟩ : ∃ front, patternForms options =
      front ++ [⟨.identifier, identifier, identifierForm⟩] ∧ ∀ q ∈ front, q ∈ earlierForms := by
    obtain ⟨front, hforms, hfront⟩ := exists_front options
    refine ⟨front ++ [⟨.verbatim, verbatim, verbatimForm⟩], by simp [hforms], fun q hq => ?_⟩
    rw [earlierForms, List.mem_append, List.mem_cons]
    rcases List.mem_append.mp hq with hq | hq
    · exact (hfront q hq).imp_right fun h => Or.inl h.2
    · exact Or.inr (Or.inr hq)
  have hkinds : ∀ q ∈ earlierForms, q.kind ≠ .identifier := by decide
  have hnone := none_of_front hforms h fun q hq => hk ▸ hkinds q (hfront q hq)
  obtain ⟨c, w, rest, rfl, hc, hw, -, rfl⟩ :=
    identifier_segment_iff.mp ((segment_of_kind h).2.2 hk)
  refine lexer_segment front hforms (fun q hq => ?_) (identifier_segment_iff.mpr
    ⟨c, w, rest', rfl, hc, hw, hstop', rfl⟩)
  exact earlier_none_elsewhere (hfront q hq) hc hjoined hrest hrest' (hnone q hq)

/-- No word goes on behind an identifier. -/
theorem not_word_of_identifier (h : (lexer options).segment? before text = some s)
    (hk : s.kind = .identifier)
    (hrest : ∀ c ∈ s.rest.head?, Unicode.isAscii c = true ∨ Unicode.isSpace c = true) :
    s.rest.head?.any Unicode.isWord = false := by
  obtain ⟨c, w, rest, -, -, -, hstop, rfl⟩ := identifier_segment_iff.mp ((segment_of_kind h).2.2 hk)
  refine not_any_of_forall fun d hd => ?_
  rcases hrest d hd with hascii | hspace
  · exact isWord_of_not_identifierPart hascii (hstop d hd)
  · exact Unicode.isWord_of_isSpace hspace

theorem identifier_readsBack (hjoined : Joined before text)
    (h : (lexer options).segment? before text = some s) (hk : s.kind = .identifier)
    (hrest : ∀ c ∈ s.rest.head?, Unicode.isAscii c = true ∨ Unicode.isSpace c = true) :
    ReadsBack options .identifier s.text s.captures :=
  fun _ _ _ hrest' => identifier_taken hjoined h hk (not_word_of_identifier h hk hrest)
    (hrest'.not_mem (by decide)) hrest'.not_word

/-! ### Verbatim tokens -/

/-- A segment of the pattern for verbatim tokens, if there is none of another kind. -/
theorem verbatim_of_none (hnone : ∀ q ∈ firstForms ++ secondForms, q.segment? before text = none)
    (hregex : options.regexLiterals = true →
      TokenPattern.segment? ⟨.regex, regex, regexForm⟩ before text = none)
    (h : TokenPattern.segment? ⟨.verbatim, verbatim, verbatimForm⟩ before text = some s) :
    (lexer options).segment? before text = some s := by
  obtain ⟨front, hforms, hfront⟩ := exists_front options
  refine lexer_segment front hforms (fun q hq => ?_) h
  rcases hfront q hq with hq | ⟨hr, rfl⟩
  · exact hnone q hq
  · exact hregex hr

/-- A bracket or a comma is read as itself, whatever stands around it. -/
theorem bracket_segment {c : Char} (hc : c ∈ ['(', ')', ',']) (rest : List Char) :
    (lexer options).segment? before (c :: rest) = some ⟨.verbatim, [c], [some [c]], rest⟩ := by
  obtain ⟨hsign, hfirst, hregex⟩ : singleSigns.contains c = true ∧
      ((firstForms ++ secondForms).all fun q => !q.pattern.body.heads.contains c) = true ∧
      regexForm.body.heads.contains c = false := by
    obtain rfl | rfl | rfl : c = '(' ∨ c = ')' ∨ c = ',' := by simpa using hc
    all_goals exact ⟨by decide +kernel, by decide +kernel, by decide +kernel⟩
  have hsome : (TokenPattern.segment? ⟨.verbatim, verbatim, verbatimForm⟩ before
      (c :: rest)).isSome := verbatim_isSome_of_sign hsign
  obtain ⟨s, hs⟩ := Option.isSome_iff_exists.mp hsome
  obtain ⟨w, rest', htext, rfl, hw⟩ := verbatim_segment hs
  have hlong : ∀ v ∈ longSigns ++ verbatimWords,
      v.toList.head?.any (fun d => !List.contains ['(', ')', ','] d) = true := by decide
  have hnot : ∀ v ∈ longSigns ++ verbatimWords, w ≠ v.toList := by
    rintro v hv rfl
    obtain ⟨d, hd, hdc⟩ := (Option.any_eq_true _ _).mp (hlong v hv)
    have hhead := congrArg List.head? htext
    rw [List.head?_append, hd] at hhead
    obtain rfl : c = d := Option.some.inj hhead
    simp [hc] at hdc
  rcases hw with ⟨v, hv, hw⟩ | ⟨v, hv, hw, -⟩ | ⟨d, rfl, -⟩
  · exact absurd hw (hnot v (List.mem_append_left _ hv))
  · exact absurd hw (hnot v (List.mem_append_right _ hv))
  · obtain ⟨rfl, rfl⟩ := List.cons.inj htext
    exact verbatim_of_none (none_of_heads hfirst) (fun _ => segment?_eq_none hregex) hs

/-- Between blanks an operator is read as a whole; a slash is read as one if there are no regular
expressions. -/
theorem binary_segment (op : BinaryOperator)
    (hop : op = .divide → options.regexLiterals = false) (rest : List Char) :
    (lexer options).segment? (some ' ') (op.symbol.toList ++ ' ' :: rest) =
      some ⟨.verbatim, op.symbol.toList, [some op.symbol.toList], ' ' :: rest⟩ := by
  have hnone : ((firstForms ++ secondForms).all fun q =>
      (q.segment? (some ' ') (op.symbol.toList ++ ' ' :: rest)).isNone) = true := by
    cases op <;> rfl
  refine verbatim_of_none (fun q hq => ?_) (fun hr => ?_) ?_
  · simpa using List.all_eq_true.mp hnone q hq
  · cases op with
    | divide => exact absurd hr (by rw [hop rfl]; decide)
    | _ => exact segment?_eq_none (by decide)
  · cases op <;> rfl

theorem unary_segment (op : UnaryOperator) (rest : List Char) :
    (lexer options).segment? (some '(') (op.symbol.toList ++ ' ' :: rest) =
      some ⟨.verbatim, op.symbol.toList, [some op.symbol.toList], ' ' :: rest⟩ := by
  have hnone : ((firstForms ++ secondForms).all fun q =>
      (q.segment? (some '(') (op.symbol.toList ++ ' ' :: rest)).isNone) = true := by
    cases op <;> rfl
  refine verbatim_of_none (fun q hq => ?_) (fun _ => ?_) ?_
  · simpa using List.all_eq_true.mp hnone q hq
  · cases op <;> exact segment?_eq_none (by decide)
  · cases op <;> rfl

/-- The marks of conditionals and assignments, between blanks. -/
theorem mark_segment {c : Char} (hc : c ∈ ['?', ':', '=']) (rest : List Char) :
    (lexer options).segment? (some ' ') (c :: ' ' :: rest) =
      some ⟨.verbatim, [c], [some [c]], ' ' :: rest⟩ := by
  obtain rfl | rfl | rfl : c = '?' ∨ c = ':' ∨ c = '=' := by simpa using hc
  all_goals
    refine verbatim_of_none (none_of_heads ?_) (fun _ => segment?_eq_none ?_) rfl
    · decide +kernel
    · decide +kernel

/-! ### Blanks -/

theorem blanks_taken {source : String} {w rest : List Char} (hne : w ≠ [])
    (hw : ∀ c ∈ w, Unicode.isSpace c = true)
    (hrest : ∀ c ∈ rest.head?, Unicode.isSpace c = false) :
    TokenPattern.segment? ⟨.ignore, source, blanksForm⟩ before (w ++ rest) =
      some ⟨.ignore, w, [], rest⟩ := by
  have hfind : blanksForm.body.find some (spot before (w ++ rest)) =
      some ((spot before (w ++ rest)).past w rest) :=
    find_many1 rfl hw hrest rfl hne
  exact segment?_of_find hne hfind (Nat.zero_add _)

theorem blank_segment {c : Char} (hc : Unicode.isSpace c = false) (rest : List Char) :
    (lexer options).segment? before (' ' :: c :: rest) =
      some ⟨.ignore, [' '], [], c :: rest⟩ := by
  have htaken : TokenPattern.segment? ⟨.ignore, blanks, blanksForm⟩ before ([' '] ++ c :: rest) =
      some ⟨.ignore, [' '], [], c :: rest⟩ := by
    refine blanks_taken (List.cons_ne_nil _ _) (List.forall_mem_singleton.mpr rfl) fun d hd => ?_
    obtain rfl := Option.some.inj hd
    exact hc
  exact lexer_segment [] rfl (fun q hq => absurd hq List.not_mem_nil) htaken

/-- Only a segment that is left out begins with white space. -/
theorem not_space_of_segment {c : Char} {cs : List Char}
    (h : (lexer options).segment? before (c :: cs) = some s) (hk : s.kind ≠ .ignore) :
    Unicode.isSpace c = false := by
  have hnone : ∀ q ∈ [⟨.ignore, blanks, blanksForm⟩], TokenPattern.segment? q before (c :: cs) =
      none := none_of_front rfl h (by simpa using hk.symm)
  rcases hc : Unicode.isSpace c with _ | _
  · rfl
  have htaken : TokenPattern.segment? ⟨.ignore, blanks, blanksForm⟩ before
      (c :: cs.takeWhile CharSet.space.contains ++ cs.dropWhile CharSet.space.contains) = _ :=
    blanks_taken (List.cons_ne_nil _ _) (fun d hd => ?_) fun d hd => CharSet.not_of_mem_head? hd
  · rw [List.cons_append, List.takeWhile_append_dropWhile,
      hnone _ (List.mem_singleton.mpr rfl)] at htaken
    simp at htaken
  · rcases List.mem_cons.mp hd with rfl | hd
    · exact hc
    · exact List.all_eq_true.mp List.all_takeWhile d hd

end Grammar

end Precedence
