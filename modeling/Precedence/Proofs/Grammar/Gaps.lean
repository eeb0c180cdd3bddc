import Precedence.Proofs.Grammar.Splitting

/-!
# Gaps between tokens

What stands between two tokens of a text is a gap: white space, and comments up to the end of their
lines (`IsGap`); only the last comment of a text may have no line end behind it (`IsLastGap`). A gap
is split into no tokens, whatever stands around it (`gap_splits`). Every text that is split into
tokens is their texts with gaps in front of them (`exists_pieces`).
-/

namespace Precedence

namespace Grammar

open Regex TokenPattern Text

variable {options : GrammarOptions} {index : LineIndex} {offset : Nat} {before : Option Char}
  {w v rest : List Char}

/-! ### Gaps -/

/-- White space and comments, each with the end of its line. -/
inductive IsGap : List Char → Prop
  | nil : IsGap []
  | blank (c : Char) (hc : Unicode.isSpace c = true) (w : List Char) (h : IsGap w) : IsGap (c :: w)
  | comment (line : List Char) (hline : '\n' ∉ line) (w : List Char) (h : IsGap w) :
    IsGap ('/' :: '/' :: (line ++ '\n' :: w))

/-- A gap that begins with white space. -/
def IsSpacing (w : List Char) : Prop :=
  IsGap w ∧ w.head?.any Unicode.isSpace = true

/-- A gap behind which there are no tokens can end within a comment. -/
def IsLastGap (w : List Char) : Prop :=
  ∃ gap tail, w = gap ++ tail ∧ IsGap gap ∧
    (tail = [] ∨ ∃ line, '\n' ∉ line ∧ tail = '/' :: '/' :: line)

theorem IsGap.blanks (hw : ∀ c ∈ w, Unicode.isSpace c = true) (h : IsGap v) : IsGap (w ++ v) := by
  induction w with
  | nil => exact h
  | cons c w ih =>
    exact .blank c (hw c List.mem_cons_self) _ (ih fun d hd => hw d (List.mem_cons_of_mem c hd))

theorem IsGap.tail_of_blank {c : Char} (hc : Unicode.isSpace c = true) (h : IsGap (c :: w)) :
    IsGap w := by
  cases h with
  | blank _ _ _ h => exact h
  | comment => exact absurd hc (by decide)

theorem IsGap.dropWhile (h : IsGap w) : IsGap (w.dropWhile Unicode.isSpace) := by
  induction h with
  | nil => exact .nil
  | blank c hc w h ih => rwa [List.dropWhile_cons_of_pos hc]
  | comment line hline w h ih =>
    rw [List.dropWhile_cons_of_neg (by decide)]
    exact .comment line hline w h

/-- A gap begins with white space or with a comment. -/
theorem IsGap.head (h : IsGap w) : ∀ c ∈ w.head?, Unicode.isSpace c = true ∨ c = '/' := by
  cases h with
  | nil => exact fun _ hc => absurd hc (Option.not_mem_none _)
  | blank c hc w h =>
    intro d hd
    exact Or.inl (Option.some.inj hd ▸ hc)
  | comment => exact fun d hd => Or.inr (Option.some.inj hd).symm

theorem IsLastGap.head (h : IsLastGap w) : ∀ c ∈ w.head?, Unicode.isSpace c = true ∨ c = '/' := by
  obtain ⟨gap, tail, rfl, hgap, htail⟩ := h
  rcases gap with _ | ⟨c, gap⟩
  · rcases htail with rfl | ⟨line, -, rfl⟩
    · exact fun _ hc => absurd hc (Option.not_mem_none _)
    · exact fun d hd => Or.inr (Option.some.inj hd).symm
  · exact hgap.head

/-- A gap ends with white space. -/
theorem IsGap.last (h : IsGap w) : ∀ c ∈ w.getLast?, Unicode.isSpace c = true := by
  induction h with
  | nil => exact fun _ hc => absurd hc (Option.not_mem_none _)
  | blank c hc w h ih =>
    intro d hd
    rw [List.getLast?_cons] at hd
    rcases hw : w.getLast? with _ | c'
    · rw [hw] at hd
      exact Option.some.inj hd ▸ hc
    · rw [hw] at hd
      exact ih d (Option.some.inj hd ▸ hw)
  | comment line hline w h ih =>
    intro d hd
    have hlast : ('/' :: '/' :: (line ++ '\n' :: w)).getLast? = w.getLast?.or (some '\n') := by
      rw [show '/' :: '/' :: (line ++ '\n' :: w) = ('/' :: '/' :: line ++ ['\n']) ++ w by simp,
        List.getLast?_append, List.getLast?_concat]
    rw [hlast] at hd
    rcases hw : w.getLast? with _ | c'
    · rw [hw] at hd
      obtain rfl := Option.some.inj hd
      decide
    · rw [hw] at hd
      exact ih d (Option.some.inj hd ▸ hw)

/-! ### Gaps are left out -/

theorem blanks_splits (hne : w ≠ []) (hw : ∀ c ∈ w, Unicode.isSpace c = true)
    (hrest : ∀ c ∈ rest.head?, Unicode.isSpace c = false) :
    (lexer options).Splits index offset before w rest [] :=
  .of_ignored (lexer_segment [] rfl (fun _ hq => absurd hq List.not_mem_nil)
    (blanks_taken hne hw hrest)) rfl

/-- White space is left out as far as it goes. -/
theorem run_splits {c : Char} (hc : Unicode.isSpace c = true) (w : List Char)
    (hrest : ∀ c ∈ rest.head?, Unicode.isSpace c = false) :
    (lexer options).Splits index offset before (c :: w.takeWhile Unicode.isSpace)
      (w.dropWhile Unicode.isSpace ++ rest) [] := by
  refine blanks_splits (List.cons_ne_nil _ _) (fun d hd => ?_) fun d hd => ?_
  · rcases List.mem_cons.mp hd with rfl | hd
    · exact hc
    · exact List.all_eq_true.mp List.all_takeWhile d hd
  · rcases hw : w.dropWhile Unicode.isSpace with _ | ⟨d', w'⟩
    · rw [hw] at hd
      exact hrest d hd
    · have hstop := List.head?_dropWhile_not Unicode.isSpace w
      rw [hw] at hd hstop
      obtain rfl := Option.some.inj hd
      exact hstop

theorem comment_splits {line : List Char} (hline : '\n' ∉ line)
    (hrest : ∀ c ∈ rest.head?, c = '\n') :
    (lexer options).Splits index offset before ('/' :: '/' :: line) rest [] := by
  have hsegment : (lexer options).segment? before ('/' :: '/' :: line ++ rest) = _ :=
    lexer_segment [⟨.ignore, blanks, blanksForm⟩] rfl (none_of_heads (by decide))
      (comment_segment_iff.mpr ⟨line, rest, rfl, hline, hrest, rfl⟩)
  exact .of_ignored hsegment rfl

/-- A gap in front of something else than white space is split into no tokens. -/
theorem gap_splits (h : IsGap w) (hrest : ∀ c ∈ rest.head?, Unicode.isSpace c = false) :
    (lexer options).Splits index offset before w rest [] := by
  -- a stretch of white space or a comment leaves a shorter gap
  induction hn : w.length using Nat.strongRecOn generalizing w index offset before with
  | ind n ih =>
  cases h with
  | nil => exact .nil
  | blank c hc w h =>
    have hrun : c :: w = (c :: w.takeWhile Unicode.isSpace) ++ w.dropWhile Unicode.isSpace := by
      rw [List.cons_append, List.takeWhile_append_dropWhile]
    have hlength : (w.dropWhile Unicode.isSpace).length < n := by
      have := (List.dropWhile_suffix (l := w) Unicode.isSpace).length_le
      rw [← hn, List.length_cons]
      omega
    rw [hrun]
    exact (run_splits hc w hrest).append (ih _ hlength h.dropWhile rfl)
  | comment line hline w h =>
    have hlength : ('\n' :: w).length < n := by
      rw [← hn]
      simp
      omega
    have hcomment : (lexer options).Splits index offset before ('/' :: '/' :: line)
        ('\n' :: w ++ rest) [] :=
      comment_splits hline fun d hd => (Option.some.inj hd).symm
    rw [show '/' :: '/' :: (line ++ '\n' :: w) = '/' :: '/' :: line ++ '\n' :: w by simp]
    exact hcomment.append (ih _ hlength (.blank '\n' (by decide) w h) rfl)

theorem lastGap_splits (h : IsLastGap w) :
    (lexer options).Splits index offset before w [] [] := by
  obtain ⟨gap, tail, rfl, hgap, rfl | ⟨line, hline, rfl⟩⟩ := h
  · rw [List.append_nil]
    exact gap_splits hgap fun _ hc => absurd hc (Option.not_mem_none _)
  · have hsplits :
        (lexer options).Splits index offset before gap ('/' :: '/' :: line ++ []) [] := by
      refine gap_splits hgap fun d hd => ?_
      obtain rfl := Option.some.inj hd
      decide
    exact hsplits.append (comment_splits hline fun _ hc => absurd hc (Option.not_mem_none _))

/-! ### A text as its tokens and gaps -/

/-- A token with the gap in front of it. -/
structure Piece where
  gap : List Char
  token : Token

/-- The text that is put together of gaps and tokens. -/
def written : List Piece → List Char
  | [] => []
  | p :: ps => p.gap ++ (p.token.text.toList ++ written ps)

/-- The tokens stand where their texts do. -/
def Aligned : Nat → List Piece → Prop
  | _, [] => True
  | offset, p :: ps =>
    p.token.span = ⟨offset + byteLength p.gap,
      offset + byteLength p.gap + byteLength p.token.text.toList⟩ ∧ Aligned p.token.span.stop ps

/-- The tokens of a text with the gaps in front of them, and what stands behind the last one. -/
structure LaidOut (grammar : Grammar) (text : String) (pieces : List Piece) (last : List Char) :
    Prop where
  tokens : grammar.tokenize text = .ok (pieces.map Piece.token)
  text : text.toList = written pieces ++ last
  aligned : Aligned 0 pieces

/-- The token is split off in front of `rest`. -/
structure IsCut (options : GrammarOptions) (before : Option Char) (t : Token) (rest : List Char) :
    Prop where
  segment : ∃ index offset s, (lexer options).segment? before (t.text.toList ++ rest) = some s ∧
    s.rest = rest ∧ s.kind ≠ .ignore ∧ Classifier.token index offset s = .ok t
  joined : Joined before (t.text.toList ++ rest)
  next : ∀ c ∈ rest.head?, Unicode.isAscii c = true ∨ Unicode.isSpace c = true

/-- The tokens are split off one after the other. -/
def Cuts (options : GrammarOptions) (rest : List Char) : Option Char → List Piece → Prop
  | _, [] => True
  | before, p :: ps => IsGap p.gap ∧
    IsCut options (p.gap.getLast?.or before) p.token (written ps ++ rest) ∧
    Cuts options rest p.token.text.toList.getLast? ps

theorem written_append : ∀ ps qs : List Piece, written (ps ++ qs) = written ps ++ written qs
  | [], _ => rfl
  | p :: ps, qs => by
    rw [List.cons_append, written, written, written_append ps qs]
    simp

theorem IsCut.head {t : Token} (h : IsCut options before t rest) :
    ∃ c cs, t.text.toList = c :: cs ∧ Unicode.isSpace c = false := by
  obtain ⟨index, offset, s, hs, -, hk, ht⟩ := h.segment
  have htext : t.text.toList = s.text := by
    rw [(Classifier.isTokenOf_of_token ht).text, String.toList_ofList]
  obtain ⟨c, cs, r, hwhole, hc⟩ := Classifier.begins_of_segment hs
  rw [hwhole] at hs
  exact ⟨c, cs, htext.trans hc, not_space_of_segment hs hk⟩

theorem IsCut.head_not_space {t : Token} (h : IsCut options before t rest) (u : List Char) :
    ∀ c ∈ (t.text.toList ++ u).head?, Unicode.isSpace c = false := by
  obtain ⟨c, cs, hc, hspace⟩ := h.head
  intro d hd
  rw [hc] at hd
  obtain rfl := Option.some.inj hd
  exact hspace

theorem continues_of_tokens {text : List Char} {tokens : List Token}
    (h : (lexer options).tokensFrom index offset before text = .ok tokens) :
    ∀ c ∈ text.head?, Unicode.isAscii c = true ∨ Unicode.isSpace c = true := by
  rcases text with _ | ⟨c, cs⟩
  · exact fun _ hc => absurd hc (Option.not_mem_none _)
  · obtain ⟨s, -, hs, -⟩ := Classifier.tokensFrom_cons h
    intro d hd
    obtain rfl := Option.some.inj hd
    exact continues_of_segment hs

theorem ignored_segment {text : List Char} {s : Segment}
    (h : (lexer options).segment? before text = some s) (hk : s.kind = .ignore) :
    (∀ c ∈ s.text, Unicode.isSpace c = true) ∨
      ∃ line, '\n' ∉ line ∧ s.text = '/' :: '/' :: line ∧ ∀ c ∈ s.rest.head?, c = '\n' := by
  obtain ⟨p, hp, h⟩ := Classifier.exists_pattern h
  rw [kind_of_segment h] at hk
  rcases mem_patternForms hp with rfl | rfl | rfl | rfl | rfl | rfl | rfl | rfl | rfl | rfl | rfl
  all_goals try exact absurd hk (by decide)
  · obtain ⟨w, rest, -, -, hw, rfl⟩ := blanks_segment h
    exact Or.inl hw
  · obtain ⟨line, rest, -, hline, hrest, rfl⟩ := comment_segment_iff.mp h
    exact Or.inr ⟨line, hline, rfl, hrest⟩

/-- What is left out in front of a gap is a gap with it, as a comment ends at the end of a line. -/
theorem IsGap.behind_ignored {text : List Char} {s : Segment}
    (h : (lexer options).segment? before text = some s) (hk : s.kind = .ignore) (hw : IsGap w)
    (hhead : s.rest.head? = some '\n' → w.head? = some '\n') (hne : s.rest ≠ []) :
    IsGap (s.text ++ w) := by
  rcases ignored_segment h hk with hspace | ⟨line, hline, htext, hrest⟩
  · exact hw.blanks hspace
  · obtain ⟨c, rest, hcons⟩ := List.exists_cons_of_ne_nil hne
    obtain rfl : c = '\n' := hrest c (by rw [hcons]; rfl)
    obtain ⟨w, rfl⟩ := List.head?_eq_some_iff.mp (hhead (by rw [hcons]; rfl))
    rw [htext, show '/' :: '/' :: line ++ '\n' :: w = '/' :: '/' :: (line ++ '\n' :: w) by simp]
    exact .comment line hline w (hw.tail_of_blank (by decide))

theorem IsLastGap.behind_ignored {text : List Char} {s : Segment}
    (h : (lexer options).segment? before text = some s) (hk : s.kind = .ignore)
    (hw : IsLastGap s.rest) : IsLastGap (s.text ++ s.rest) := by
  obtain ⟨gap, tail, hrest, hgap, htail⟩ := hw
  rcases gap with _ | ⟨c, gap⟩
  · rw [List.nil_append] at hrest
    rcases ignored_segment h hk with hspace | ⟨line, hline, htext, hnext⟩
    · exact ⟨s.text, tail, by rw [hrest], by simpa using IsGap.nil.blanks hspace, htail⟩
    · rcases htail with rfl | ⟨line', -, rfl⟩
      · exact ⟨[], s.text, by rw [hrest, List.append_nil, List.nil_append], .nil,
          Or.inr ⟨line, hline, htext⟩⟩
      · exact absurd (hnext '/' (by rw [hrest]; rfl)) (by decide)
  · refine ⟨s.text ++ c :: gap, tail, by rw [hrest, List.append_assoc],
      hgap.behind_ignored h hk (by rw [hrest]; exact id) (by rw [hrest]; simp), htail⟩

/-- A segment that is kept is the text of its token, cut out in front of the rest. -/
theorem isCut_of_segment {text : List Char} {s : Segment} {t : Token} {tokens : List Token}
    {behind : Nat} (hjoined : Joined before text)
    (hs : (lexer options).segment? before text = some s) (hk : s.kind ≠ .ignore)
    (ht : Classifier.token index offset s = .ok t)
    (hrest : (lexer options).tokensFrom index behind s.text.getLast? s.rest = .ok tokens) :
    t.text.toList = s.text ∧ IsCut options before t s.rest := by
  have htext : t.text.toList = s.text := by
    rw [(Classifier.isTokenOf_of_token ht).text, String.toList_ofList]
  refine ⟨htext, ⟨index, offset, s, ?_, rfl, hk, ht⟩, ?_, continues_of_tokens hrest⟩
  · rw [htext, ← Classifier.whole_of_segment hs]
    exact hs
  · rwa [htext, ← Classifier.whole_of_segment hs]

/-- A line that ends in front of a token ends in its gap. -/
theorem IsCut.line_in_gap {p : Piece} (h : IsCut options before p.token rest) {ps : List Piece}
    {last : List Char} (hline : (written (p :: ps) ++ last).head? = some '\n') :
    p.gap.head? = some '\n' := by
  obtain ⟨c, cs, hc, hspace⟩ := h.head
  rw [written, hc] at hline
  rcases hgap : p.gap with _ | ⟨d, gap⟩
  · rw [hgap] at hline
    obtain rfl := Option.some.inj hline
    exact absurd hspace (by decide)
  · rw [hgap] at hline
    exact hline

/-- A text that is split into tokens is put together of them and of gaps. -/
theorem exists_pieces {text : List Char} {tokens : List Token} (hjoined : Joined before text)
    (h : (lexer options).tokensFrom index offset before text = .ok tokens) :
    ∃ pieces last, text = written pieces ++ last ∧ pieces.map Piece.token = tokens ∧
      Aligned offset pieces ∧ Cuts options last before pieces ∧ IsLastGap last := by
  -- a segment that is left out goes to the gap behind it
  refine Classifier.tokensFrom_induction (motive := fun offset before text tokens =>
    Joined before text → ∃ pieces last, text = written pieces ++ last ∧
      pieces.map Piece.token = tokens ∧ Aligned offset pieces ∧ Cuts options last before pieces ∧
      IsLastGap last) ?nil ?ignored ?read h hjoined
  case nil => exact fun _ _ _ => ⟨[], [], rfl, rfl, trivial, trivial, [], [], rfl, .nil, Or.inl rfl⟩
  case ignored =>
    intro offset before text s ts hs hk _ ih hjoined
    obtain ⟨pieces, last, htext, htokens, haligned, hcuts, hlast⟩ := ih (joined_of_segment hs)
    have hwhole := Classifier.whole_of_segment hs
    rcases pieces with _ | ⟨p, ps⟩
    · refine ⟨[], s.text ++ last, by rw [hwhole, htext]; rfl, htokens, trivial, trivial, ?_⟩
      have htext' : s.rest = last := htext
      exact htext' ▸ IsLastGap.behind_ignored hs hk (htext'.symm ▸ hlast)
    · obtain ⟨hgap, hcut, hcuts⟩ := hcuts
      obtain ⟨hspan, hbehind⟩ := haligned
      refine ⟨⟨s.text ++ p.gap, p.token⟩ :: ps, last, ?_, htokens, ⟨?_, hbehind⟩,
        ⟨?_, ?_, hcuts⟩, hlast⟩
      · rw [hwhole, htext]
        simp [written]
      · rw [hspan, byteLength_append, Nat.add_assoc]
      · refine hgap.behind_ignored hs hk (fun hline => hcut.line_in_gap (htext ▸ hline)) ?_
        obtain ⟨d, ds, hd, -⟩ := hcut.head
        rw [htext, written, hd]
        simp
      · rw [List.getLast?_append, Option.or_assoc, getLast?_or (Classifier.ne_nil_of_segment hs)]
        exact hcut
  case read =>
    intro offset before text s ts t hs hk ht hrest ih hjoined
    obtain ⟨pieces, last, htext, htokens, haligned, hcuts, hlast⟩ := ih (joined_of_segment hs)
    have hwhole := Classifier.whole_of_segment hs
    obtain ⟨htext', hcut⟩ := isCut_of_segment hjoined hs hk ht hrest
    obtain ⟨-, -, hspan, -⟩ := Classifier.token_eq_ok_iff.mp ht
    refine ⟨⟨[], t⟩ :: pieces, last, ?_, by rw [List.map_cons, htokens], ⟨?_, ?_⟩,
      ⟨.nil, ?_, ?_⟩, hlast⟩
    · rw [hwhole, htext, written, htext']
      simp
    · rw [hspan, htext']
      rfl
    · rw [hspan]
      exact haligned
    · rwa [← htext]
    · rwa [htext']

theorem Cuts.isCut : ∀ {pieces : List Piece} {before : Option Char},
    Cuts options rest before pieces →
      ∀ p ∈ pieces, ∃ before' rest', IsCut options before' p.token rest'
  | [], _, _, _, hp => absurd hp List.not_mem_nil
  | _ :: _, _, ⟨_, hcut, hcuts⟩, p, hp => by
    rcases List.mem_cons.mp hp with rfl | hp
    · exact ⟨_, _, hcut⟩
    · exact hcuts.isCut p hp

/-- Each token of a text is split off somewhere in it. -/
theorem isCut_of_tokenize {text : String} {tokens : List Token}
    (h : tokenize ⟨options, lexer options⟩ text = .ok tokens) :
    ∀ t ∈ tokens, ∃ before' rest', IsCut options before' t rest' := by
  obtain ⟨pieces, last, -, rfl, -, hcuts, -⟩ := exists_pieces (Joined.of_before rfl) h
  intro t ht
  obtain ⟨p, hp, rfl⟩ := List.mem_map.mp ht
  exact hcuts.isCut p hp

end Grammar

end Precedence
