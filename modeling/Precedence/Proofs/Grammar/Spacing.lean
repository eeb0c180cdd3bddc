import Precedence.Proofs.Grammar.Correctness
import Precedence.Proofs.Grammar.Gaps
import Precedence.Proofs.Grammar.Likeness
import Precedence.Proofs.Grammar.Lexemes.Contexts

/-!
# What the gaps of a text hold does not matter

A token of a program is split off again, with the same meaning, where the gaps around it are others
(`Respaced.splits`), so a text is parsed with the same tree, but for its spans, whatever the gaps
that it has are filled with (`parse_refilled`). Where it has none between two tokens there can be one
as well, unless there is a point at that place (`Regap`).
-/

namespace Precedence

namespace Grammar

open Regex Text

variable {options : GrammarOptions} {before before' : Option Char} {rest rest' : List Char}
  {t : Token}

/-! ### Tokens in other surroundings -/

theorem SameGroups.first {captures captures' : List (Option (List Char))}
    (h : SameGroups captures captures') : captures'.findSome? id = captures.findSome? id := by
  rcases h with rfl | ⟨body, flags, flags', -, -, rfl, rfl⟩ <;> rfl

theorem SameGroups.captures {t t' : Token} {captures captures' : List (Option (List Char))}
    (h : SameGroups captures captures')
    (ht : t.captures = captures.map fun c => c.map String.ofList)
    (ht' : t'.captures = captures'.map fun c => c.map String.ofList) :
    t'.capture? 0 = t.capture? 0 ∧ (t'.capture? 1).getD "" = (t.capture? 1).getD "" := by
  simp only [Token.capture?, ht, ht']
  rcases h with rfl | ⟨body, flags, flags', hflags, hflags', rfl, rfl⟩
  · exact ⟨rfl, rfl⟩
  · refine ⟨rfl, ?_⟩
    rcases hflags with rfl | rfl <;> rcases hflags' with rfl | rfl <;> rfl

/-- A token of a program is split off in other surroundings as one with the same meaning. -/
theorem IsCut.again (h : IsCut options before t rest)
    (htext : t.kind = .verbatim → t.text ∈ verbatimTexts options)
    (hslash : .divide ∈ options.precedence.flatten → options.regexLiterals = false)
    (hfront : Fronts t.text.toList before before')
    (hmeets : Meets t.kind t.text.toList rest rest') (index : LineIndex) (offset : Nat) :
    ∃ t', SameMeaning options t t' ∧
      (lexer options).Splits index offset before' t.text.toList rest' [t'] := by
  obtain ⟨index₀, offset₀, s, hs, rfl, hk, ht⟩ := h.segment
  have htoken := Classifier.isTokenOf_of_token ht
  have hraw : t.text.toList = s.text := by rw [htoken.text, String.toList_ofList]
  have htext' : s.kind = .verbatim → String.ofList s.text ∈ verbatimTexts options := fun hkind =>
    htoken.text ▸ htext (htoken.kind.trans hkind)
  rw [hraw, htoken.kind] at hmeets
  rw [hraw] at hfront ⊢
  obtain ⟨captures', hs', hgroups⟩ :=
    segment_again hs hk h.joined h.next htext' hslash hfront hmeets
  have hprimary : Segment.primary ⟨s.kind, s.text, captures', rest'⟩ = s.primary := by
    rw [Segment.primary, Segment.primary, hgroups.first]
  have hkind : Segment.kind ⟨s.kind, s.text, captures', rest'⟩ = s.kind := rfl
  obtain ⟨t', ht', hvalue⟩ := Classifier.exists_token ht hkind hprimary index offset
  have htoken' := Classifier.isTokenOf_of_token ht'
  have hkind' : t'.kind = t.kind := htoken'.kind.trans htoken.kind.symm
  have hsame : t'.text = t.text := htoken'.text.trans htoken.text.symm
  obtain ⟨hfirst, hsecond⟩ := hgroups.captures htoken.captures htoken'.captures
  refine ⟨t', ⟨hkind', hsame, ?_, literalValue?_congr hkind' hsame hvalue hfirst hsecond⟩,
    .of_token hs' hk ht'⟩
  rw [Token.textValue, Token.textValue, hvalue, hsame]

/-! ### Other gaps -/

/-- How the gap between a token, if there is one, and the next can be replaced: by a spacing, but
not where a point would lose the word next to it, and in front of the first token by nothing. -/
def Regap (left : Option Token) (p : Piece) (gap : List Char) : Prop :=
  gap = p.gap ∨ left = none ∧ gap = [] ∨
    IsSpacing gap ∧ (p.gap = [] → ∀ l ∈ left, l.text.toList.getLast? ≠ some '.' ∧
      p.token.text.toList.head? ≠ some '.')

/-- The same tokens with other gaps, behind a token if there is one. -/
inductive Respaced : Option Token → List Piece → List Piece → Prop
  | nil (left : Option Token) : Respaced left [] []
  | cons (left : Option Token) (p : Piece) (gap : List Char) (h : Regap left p gap)
    (ps qs : List Piece) (hs : Respaced (some p.token) ps qs) :
    Respaced left (p :: ps) (⟨gap, p.token⟩ :: qs)

theorem IsSpacing.ne_nil {w : List Char} (h : IsSpacing w) : w ≠ [] := by
  rintro rfl
  exact absurd h.2 (by decide)

theorem IsGap.not_word_behind {w : List Char} (h : IsGap w) (hne : w ≠ []) (o : Option Char) :
    (w.getLast?.or o).any Unicode.isWord = false := by
  rw [getLast?_or hne]
  exact not_any_of_forall fun c hc => Unicode.isWord_of_isSpace (h.last c hc)

/-- What begins with a gap goes on with no word. -/
theorem not_word_of_gap {w : List Char} (hne : w ≠ [])
    (h : ∀ c ∈ w.head?, Unicode.isSpace c = true ∨ c = '/') (rest : List Char) :
    (w ++ rest).head?.any Unicode.isWord = false := by
  rw [List.head?_append_of_ne_nil w hne]
  refine not_any_of_forall fun c hc => ?_
  rcases h c hc with hspace | rfl
  · exact Unicode.isWord_of_isSpace hspace
  · decide

theorem follows_of_gap {w : List Char} (hne : w ≠ [])
    (h : ∀ c ∈ w.head?, Unicode.isSpace c = true ∨ c = '/') : follows w = true := by
  obtain ⟨c, w, rfl⟩ := List.exists_cons_of_ne_nil hne
  have hc : numeralPart.contains c = false ∧ regexFlags.contains c = false := by
    rcases h c rfl with hspace | rfl
    · exact ⟨not_contains_of_space rfl (by decide +kernel) hspace,
        not_contains_of_space rfl (by decide +kernel) hspace⟩
    · decide
  simp [follows, hc.1, hc.2]

theorem Regap.isGap {left : Option Token} {p : Piece} {gap : List Char} (h : Regap left p gap)
    (hgap : IsGap p.gap) : IsGap gap := by
  rcases h with rfl | ⟨-, rfl⟩ | ⟨hspacing, -⟩
  · exact hgap
  · exact .nil
  · exact hspacing.1

/-- In front of the token the surroundings change as they may. -/
theorem Regap.fronts {left : Option Token} {p : Piece} {gap : List Char} (h : Regap left p gap)
    (hgap : IsGap p.gap) (hleft : left = none → before.any Unicode.isWord = false) :
    Fronts p.token.text.toList (p.gap.getLast?.or before) (gap.getLast?.or before) := by
  by_cases hne : p.gap = []
  · rcases h with rfl | ⟨-, rfl⟩ | ⟨hspacing, hpoint⟩
    · exact Or.inl rfl
    · rw [hne]
      exact Or.inl rfl
    · have hnew := hspacing.1.not_word_behind hspacing.ne_nil before
      rcases left with _ | l
      · refine Or.inl (hnew.trans ?_)
        rw [hne]
        exact (hleft rfl).symm
      · exact Or.inr ⟨hnew, (hpoint hne l rfl).2⟩
  · have hold := hgap.not_word_behind hne before
    rcases h with rfl | ⟨rfl, rfl⟩ | ⟨hspacing, -⟩
    · exact Or.inl rfl
    · exact Or.inl ((hleft rfl).trans hold.symm)
    · exact Or.inl ((hspacing.1.not_word_behind hspacing.ne_nil before).trans hold.symm)

theorem written_cons (gap : List Char) (t : Token) (ps : List Piece) (rest : List Char) :
    written (⟨gap, t⟩ :: ps) ++ rest = gap ++ (t.text.toList ++ (written ps ++ rest)) := by
  simp [written]

/-- Behind the token in front the surroundings change as they may. -/
theorem Regap.meets {p : Piece} {gap : List Char} (h : Regap (some t) p gap) (hgap : IsGap p.gap)
    (hne : p.token.text.toList ≠ []) (hnext : t.kind ≠ .verbatim → IsFollower options p.token)
    (ps qs : List Piece) (rest rest' : List Char) :
    Meets t.kind t.text.toList (written (p :: ps) ++ rest)
      (written (⟨gap, p.token⟩ :: qs) ++ rest') := by
  obtain ⟨old, u⟩ := p
  rw [written_cons, written_cons]
  by_cases hsame : gap = old
  · subst hsame
    by_cases hempty : gap = []
    · subst hempty
      exact .shared u.text.toList _ _ hne fun hk => follows_of_follower (hnext hk).2
    · exact .shared _ _ _ hempty fun _ => follows_of_gap hempty hgap.head
  · obtain hsame' | ⟨hleft, -⟩ | ⟨hspacing, hpoint⟩ := h
    · exact absurd hsame' hsame
    · exact absurd hleft (Option.some_ne_none t)
    · refine .opened _ _ (fun d hd => ?_) fun hlast => ?_
      · rw [List.head?_append_of_ne_nil gap hspacing.ne_nil] at hd
        have hspace := hspacing.2
        rwa [Option.mem_def.mp hd] at hspace
      · by_cases hempty : old = []
        · exact absurd hlast (hpoint hempty t rfl).1
        · exact not_word_of_gap hempty hgap.head _

theorem IsCut.ne_nil (h : IsCut options before t rest) : t.text.toList ≠ [] := by
  obtain ⟨c, cs, hc, -⟩ := h.head
  exact fun hnil => List.cons_ne_nil c cs (hc.symm.trans hnil)

theorem Respaced.meets {pieces pieces' : List Piece} (h : Respaced (some t) pieces pieces')
    (hcuts : ∃ before, Cuts options rest before pieces)
    (hadjoins : Adjoins options (t :: pieces.map Piece.token))
    (hend : pieces = [] → Meets t.kind t.text.toList rest rest') :
    Meets t.kind t.text.toList (written pieces ++ rest) (written pieces' ++ rest') := by
  cases h with
  | nil => exact hend rfl
  | cons _ p gap h ps qs _ =>
    obtain ⟨before, hgap, hcut, -⟩ := hcuts
    exact h.meets hgap hcut.ne_nil ((List.isChain_cons.mp hadjoins.next).1 p.token rfl) ps qs rest
      rest'

/-- A row of tokens with other gaps is split into tokens with the same meaning. -/
theorem Respaced.splits
    (hslash : .divide ∈ options.precedence.flatten → options.regexLiterals = false)
    {left : Option Token} {pieces pieces' : List Piece} (h : Respaced left pieces pieces') :
    ∀ {before : Option Char}, Cuts options rest before pieces →
      Adjoins options (pieces.map Piece.token) → (left = none → before.any Unicode.isWord = false) →
      (∀ p ∈ pieces.getLast?, Meets p.token.kind p.token.text.toList rest rest') →
      ∀ index offset, ∃ ts', List.Forall₂ (SameMeaning options) (pieces.map Piece.token) ts' ∧
        (lexer options).Splits index offset before (written pieces') rest' ts' := by
  induction h with
  | nil left => exact fun _ _ _ _ _ _ => ⟨[], .nil, .nil⟩
  | cons left p gap h ps qs hs ih =>
    intro before hcuts hadjoins hleft hend index offset
    obtain ⟨hgap, hcut, hcuts⟩ := hcuts
    have hmeets : Meets p.token.kind p.token.text.toList (written ps ++ rest)
        (written qs ++ rest') := by
      refine hs.meets ⟨_, hcuts⟩ hadjoins fun hnil => hend p ?_
      rw [hnil]
      rfl
    have hgapSplits : (lexer options).Splits index offset before gap
        (p.token.text.toList ++ (written qs ++ rest')) [] :=
      gap_splits (h.isGap hgap) (hcut.head_not_space _)
    obtain ⟨t', halike, htoken⟩ := hcut.again (hadjoins.verbatim p.token (by simp)) hslash
      (h.fronts hgap hleft) hmeets index (offset + byteLength gap)
    have hadjoins' : Adjoins options (ps.map Piece.token) :=
      Adjoins.of_append (show Adjoins options ([p.token] ++ ps.map Piece.token) from hadjoins)
    obtain ⟨ts', halikes, hsplits⟩ := ih hcuts hadjoins'
      (fun hnone => absurd hnone (Option.some_ne_none _))
      (fun q hq => hend q (by rw [List.getLast?_cons, Option.mem_def.mp hq]; rfl)) index
      (offset + byteLength gap + byteLength p.token.text.toList)
    refine ⟨t' :: ts', .cons halike halikes, ?_⟩
    have hlast : p.token.text.toList.getLast?.or (gap.getLast?.or before) =
        p.token.text.toList.getLast? := getLast?_or hcut.ne_nil _
    have hbehind := htoken.append (hlast.symm ▸ hsplits)
    rw [← List.append_assoc] at hgapSplits
    exact hgapSplits.append hbehind

/-! ### The whole text -/

/-- How what stands behind the last token can be replaced. -/
def Relast (last last' : List Char) : Prop :=
  last' = last ∨ last' = [] ∨ IsLastGap last' ∧ last'.head?.any Unicode.isSpace = true

theorem Relast.isLastGap {last last' : List Char} (h : Relast last last') (hlast : IsLastGap last) :
    IsLastGap last' := by
  rcases h with rfl | rfl | ⟨hgap, -⟩
  · exact hlast
  · exact ⟨[], [], rfl, .nil, Or.inl rfl⟩
  · exact hgap

theorem Relast.meets {last last' w : List Char} {kind : TokenKind} (h : Relast last last')
    (hlast : IsLastGap last) : Meets kind w last last' := by
  have hnone : ∀ c ∈ ([] : List Char).head?, Unicode.isSpace c = true :=
    fun _ hc => absurd hc (Option.not_mem_none _)
  have hword : last.head?.any Unicode.isWord = false := by
    by_cases hne : last = []
    · rw [hne]
      rfl
    · rw [← List.append_nil last]
      exact not_word_of_gap hne hlast.head []
  rcases h with rfl | rfl | ⟨-, hspace⟩
  · by_cases hne : last' = []
    · subst hne
      exact .opened [] [] hnone fun _ => rfl
    · have hshared : Meets kind w (last' ++ []) (last' ++ []) :=
        .shared last' [] [] hne fun _ => follows_of_gap hne hlast.head
      rwa [List.append_nil] at hshared
  · exact .opened last [] hnone fun _ => hword
  · refine .opened last last' (fun c hc => ?_) fun _ => hword
    rwa [Option.mem_def.mp hc] at hspace

/-- Where the tokens stand fixes the gaps between them. -/
theorem Aligned.written_inj : ∀ {pieces pieces' : List Piece} {offset : Nat}
    {last last' : List Char}, Aligned offset pieces → Aligned offset pieces' →
      pieces.map Piece.token = pieces'.map Piece.token →
      written pieces ++ last = written pieces' ++ last' → pieces = pieces' ∧ last = last'
  | [], [], _, _, _, _, _, _, h => ⟨rfl, h⟩
  | ⟨gap, t⟩ :: ps, ⟨gap', t'⟩ :: ps', offset, last, last', ⟨hspan, hps⟩, ⟨hspan', hps'⟩, htokens,
      h => by
    obtain ⟨rfl, hrest⟩ := List.cons.inj htokens
    have hlength : byteLength gap = byteLength gap' := by
      have hstart := congrArg Span.start (hspan.symm.trans hspan')
      exact Nat.add_left_cancel hstart
    rw [written_cons, written_cons] at h
    have hgap : gap = gap' := by
      rw [← takeBytes_byteLength gap, h, hlength, takeBytes_byteLength]
    subst hgap
    have hbehind := List.append_cancel_left (List.append_cancel_left h)
    obtain ⟨rfl, rfl⟩ := Aligned.written_inj hps hps' hrest hbehind
    exact ⟨rfl, rfl⟩

/-- The tokens of a text are cut from it where they stand. -/
theorem LaidOut.cuts {text : String} {pieces : List Piece} {last : List Char}
    (h : LaidOut ⟨options, lexer options⟩ text pieces last) :
    Cuts options last none pieces ∧ IsLastGap last := by
  obtain ⟨pieces', last', htext, htokens, haligned, hcuts, hlast⟩ :=
    exists_pieces (Joined.of_before rfl) h.tokens
  obtain ⟨rfl, rfl⟩ := h.aligned.written_inj haligned htokens.symm (h.text.symm.trans htext)
  exact ⟨hcuts, hlast⟩

theorem exists_laidOut {text : String} {e : Expr}
    (h : parse ⟨options, lexer options⟩ text = .ok e) :
    ∃ pieces last, LaidOut ⟨options, lexer options⟩ text pieces last := by
  obtain ⟨tokens, htokens, -⟩ := parse_eq_ok h
  obtain ⟨pieces, last, htext, rfl, haligned, -, -⟩ := exists_pieces (Joined.of_before rfl) htokens
  exact ⟨pieces, last, htokens, htext, haligned⟩

theorem LaidOut.derived (hfault : options.fault? = none) {text : String} {e : Expr}
    {pieces : List Piece} {last : List Char}
    (h : LaidOut ⟨options, lexer options⟩ text pieces last)
    (hparse : parse ⟨options, lexer options⟩ text = .ok e) :
    ∃ d ≤ nestingLimit, Compound options .program d (pieces.map Piece.token) e := by
  rw [parse_of_tokenize h.tokens] at hparse
  exact (parseTokens_eq_ok_iff (GrammarOptions.table_of_fault?_eq_none hfault).1).mp hparse

/-- With other gaps a text is parsed with the same tree, but for its spans. -/
theorem parse_of_respaced (hfault : options.fault? = none) {text : String} {e : Expr}
    (hparse : parse ⟨options, lexer options⟩ text = .ok e) {pieces pieces' : List Piece}
    {last last' : List Char} (hlaid : LaidOut ⟨options, lexer options⟩ text pieces last)
    (h : Respaced none pieces pieces') (hlast : Relast last last') :
    ∃ e', parse ⟨options, lexer options⟩ (String.ofList (written pieces' ++ last')) = .ok e' ∧
      e'.withoutSpans = e.withoutSpans := by
  obtain ⟨hnodup, hslash⟩ := GrammarOptions.table_of_fault?_eq_none hfault
  obtain ⟨hcuts, hgap⟩ := hlaid.cuts
  obtain ⟨d, hd, hderived⟩ := hlaid.derived hfault hparse
  obtain ⟨ts', halike, hsplits⟩ := h.splits hslash hcuts hderived.adjoins (fun _ => rfl)
    (fun _ _ => hlast.meets hgap) (.ofText (written pieces' ++ last')) 0
  obtain ⟨e', he', hspans⟩ := hderived.alike halike
  refine ⟨e', ?_, hspans⟩
  have hsplits' : (lexer options).Splits (.ofText (written pieces' ++ last')) 0 none
      (written pieces') (last' ++ []) ts' := by rwa [List.append_nil]
  have hwhole := hsplits'.append (lastGap_splits (hlast.isLastGap hgap))
  rw [List.append_nil] at hwhole
  have htokens : tokenize ⟨options, lexer options⟩ (String.ofList (written pieces' ++ last')) =
      .ok ts' := tokenize_of_splits (by rw [String.toList_ofList]; exact hwhole)
  rw [parse_of_tokenize htokens]
  exact (parseTokens_eq_ok_iff hnodup).mpr ⟨d, hd, he'⟩

/-! ### The contents of gaps -/

/-- The same tokens, where the gaps that there were between them can be filled anew, and that in
front of the first one can be filled or left out. -/
inductive Refilled : List Piece → List Piece → Prop
  | nil : Refilled [] []
  | cons (p : Piece) (gap : List Char) (h : gap = p.gap ∨ gap = [] ∨ IsSpacing gap)
    (ps qs : List Piece)
    (hs : List.Forall₂ (fun p q => q.token = p.token ∧
      (q.gap = p.gap ∨ p.gap ≠ [] ∧ IsSpacing q.gap)) ps qs) :
    Refilled (p :: ps) (⟨gap, p.token⟩ :: qs)

theorem respaced_of_forall₂ {ps qs : List Piece} (h : List.Forall₂ (fun p q => q.token = p.token ∧
    (q.gap = p.gap ∨ p.gap ≠ [] ∧ IsSpacing q.gap)) ps qs) (left : Option Token) :
    Respaced left ps qs := by
  induction h generalizing left with
  | nil => exact .nil left
  | @cons p q ps qs h hs ih =>
    obtain ⟨gap, t⟩ := q
    obtain ⟨rfl, hgap⟩ := h
    refine .cons left p gap ?_ ps qs (ih _)
    rcases hgap with hsame | ⟨hne, hspacing⟩
    · exact Or.inl hsame
    · exact Or.inr (Or.inr ⟨hspacing, fun hempty => absurd hempty hne⟩)

theorem Refilled.respaced {pieces pieces' : List Piece} (h : Refilled pieces pieces') :
    Respaced none pieces pieces' := by
  cases h with
  | nil => exact .nil none
  | cons p gap h ps qs hs =>
    refine .cons none p gap ?_ ps qs (respaced_of_forall₂ hs _)
    rcases h with hsame | hnone | hspacing
    · exact Or.inl hsame
    · exact Or.inr (Or.inl ⟨rfl, hnone⟩)
    · exact Or.inr (Or.inr ⟨hspacing, fun _ l hl => absurd hl (Option.not_mem_none l)⟩)

/-- A text that is parsed has its tokens with gaps around them, and whatever these are filled with,
it is parsed with the same tree, but for its spans. -/
theorem parse_refilled (h : options.validate = .ok options) :
    ∃ grammar, ofOptions options = .ok grammar ∧ ∀ text e, grammar.parse text = .ok e →
      (∃ pieces last, LaidOut grammar text pieces last) ∧
      ∀ pieces last pieces' last', LaidOut grammar text pieces last → Refilled pieces pieces' →
        Relast last last' → ∃ e',
          grammar.parse (String.ofList (written pieces' ++ last')) = .ok e' ∧
            e'.withoutSpans = e.withoutSpans := by
  have hfault := (GrammarOptions.fault?_of_validate h).1
  refine ⟨_, ofOptions_eq hfault, fun text e hparse => ⟨exists_laidOut hparse, ?_⟩⟩
  exact fun _ _ _ _ hlaid hrefilled hlast =>
    parse_of_respaced hfault hparse hlaid hrefilled.respaced hlast

/-! ### A negated name -/

def notToken : Token :=
  ⟨.verbatim, "NOT", .text "NOT", [some "NOT"], ⟨0, 3⟩, ⟨1, 1⟩⟩

/-- A name at an offset of the first line. -/
def nameToken (offset : Nat) : Token :=
  ⟨.identifier, "x", .text "x", [some "x"], ⟨offset, offset + 1⟩, ⟨1, offset + 1⟩⟩

theorem negation_laidOut : LaidOut ⟨.standard, lexer .standard⟩ "NOT x"
    [⟨[], notToken⟩, ⟨[' '], nameToken 4⟩] [] where
  tokens := by
    have hnot : (lexer .standard).Splits (.ofText "NOT x".toList) 0 none ['N', 'O', 'T']
      [' ', 'x'] [notToken] := .of_token rfl (by decide) rfl
    have hblank : (lexer .standard).Splits (.ofText "NOT x".toList) 3 (some 'T') [' '] ['x'] [] :=
      .of_ignored rfl rfl
    have hname : (lexer .standard).Splits (.ofText "NOT x".toList) 4 (some ' ') ['x'] []
      [nameToken 4] := .of_token rfl (by decide) rfl
    have hbehind := hblank.append (v := ['x']) hname
    have hwhole := hnot.append (v := [' ', 'x']) hbehind
    exact tokenize_of_splits hwhole
  text := rfl
  aligned := ⟨rfl, rfl, trivial⟩

theorem negation_refilled : GrammarOptions.standard.validate = .ok .standard ∧
    ∃ grammar, ofOptions .standard = .ok grammar ∧ ∃ e e', grammar.parse "NOT x" = .ok e ∧
      grammar.parse "\tNOT // '\n x // /" = .ok e' ∧ e'.withoutSpans = e.withoutSpans := by
  obtain ⟨grammar, hgrammar, hall⟩ :=
    parse_refilled (show GrammarOptions.standard.validate = .ok .standard from rfl)
  obtain rfl := Except.ok.inj (hgrammar.symm.trans (ofOptions_eq rfl))
  have hparse : parse ⟨.standard, lexer .standard⟩ "NOT x" =
      .ok (.unary .not (.identifier "x" ⟨4, 5⟩)) :=
    parse_of_unary rfl negation_laidOut.tokens
      (.apply notToken .not (by decide) ⟨rfl, rfl⟩ 0 _ _ (.primary 0 _ _ (.identifier _ rfl)))
      (Nat.zero_le _)
  have hfirst : IsSpacing ['\t'] := ⟨.blank '\t' (by decide) _ .nil, by decide⟩
  have hsecond : IsSpacing " // '\n ".toList :=
    ⟨.blank ' ' (by decide) _ (.comment " '".toList (by decide) _ (.blank ' ' (by decide) _ .nil)),
      by decide⟩
  have hlast : IsLastGap " // /".toList :=
    ⟨[' '], "// /".toList, rfl, .blank ' ' (by decide) _ .nil,
      Or.inr ⟨" /".toList, by decide, rfl⟩⟩
  have hrefilled : Refilled [⟨[], notToken⟩, ⟨[' '], nameToken 4⟩]
      [⟨['\t'], notToken⟩, ⟨" // '\n ".toList, nameToken 4⟩] :=
    .cons _ _ (Or.inr (Or.inr hfirst)) _ _
      (.cons ⟨rfl, Or.inr ⟨List.cons_ne_nil _ _, hsecond⟩⟩ .nil)
  obtain ⟨e', hparse', hspans⟩ := (hall _ _ hparse).2 _ _ _ _ negation_laidOut hrefilled
    (Or.inr (Or.inr ⟨hlast, by decide⟩))
  exact ⟨rfl, _, hgrammar, _, e', hparse, hparse', hspans⟩

end Grammar

end Precedence
