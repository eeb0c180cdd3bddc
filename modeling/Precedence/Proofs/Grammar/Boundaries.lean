import Precedence.Proofs.Grammar.Lexemes.Points
import Precedence.Proofs.Grammar.Spacing
import Precedence.Proofs.Number.Finite

/-!
# White space between tokens that touch

Between two tokens with nothing between them white space can be put, with a comment and the end of
its line behind it or without, and the text is parsed with the same tree, but for its spans
(`parse_spaced`). The exception is a numeral with a point there: it needs a word character next to
the point, and loses it to the white space, so that the text is refused.
-/

namespace Precedence

namespace Grammar

open Regex Text

variable {options : GrammarOptions} {before : Option Char} {rest rest' : List Char}

/-! ### Cutting a row of tokens in two -/

theorem Respaced.refl : ∀ (left : Option Token) (pieces : List Piece), Respaced left pieces pieces
  | left, [] => .nil left
  | left, p :: ps => .cons left p p.gap (Or.inl rfl) ps ps (.refl _ ps)

theorem Cuts.of_append : ∀ {ps qs : List Piece} {before : Option Char},
    Cuts options rest before (ps ++ qs) →
      Cuts options (written qs ++ rest) before ps ∧ ∃ before', Cuts options rest before' qs
  | [], _, _, h => ⟨trivial, _, h⟩
  | p :: ps, qs, _, ⟨hgap, hcut, hcuts⟩ => by
    obtain ⟨hfront, hback⟩ := Cuts.of_append hcuts
    have hrest : written (ps ++ qs) ++ rest = written ps ++ (written qs ++ rest) := by
      rw [written_append, List.append_assoc]
    exact ⟨⟨hgap, hrest ▸ hcut, hfront⟩, hback⟩

theorem Adjoins.of_append_left {ts us : List Token} (h : Adjoins options (ts ++ us)) :
    Adjoins options ts where
  verbatim t ht := h.verbatim t (List.mem_append_left us ht)
  next := h.next.left_of_append

/-- What stands in front of a place is split as before, if what stands behind it can be replaced
there. -/
theorem front_splits (hslash : .divide ∈ options.precedence.flatten → options.regexLiterals = false)
    {front back : List Piece} (hcuts : Cuts options rest none (front ++ back))
    (hadjoins : Adjoins options ((front ++ back).map Piece.token))
    (hend : ∀ l ∈ front.getLast?,
      Meets l.token.kind l.token.text.toList (written back ++ rest) rest') (index : LineIndex) :
    ∃ ts, (lexer options).Splits index 0 none (written front) rest' ts := by
  rw [List.map_append] at hadjoins
  obtain ⟨ts, -, hsplits⟩ := (Respaced.refl none front).splits hslash hcuts.of_append.1
    hadjoins.of_append_left (fun _ => rfl) hend index 0
  exact ⟨ts, hsplits⟩

/-- The tokens behind a beginning that is split by itself. -/
theorem tokensFrom_behind {index : LineIndex} {offset : Nat} {w : List Char}
    {ts tokens : List Token} (hsplits : (lexer options).Splits index offset before w rest ts)
    (h : (lexer options).tokensFrom index offset before (w ++ rest) = .ok tokens) :
    ∃ us, (lexer options).tokensFrom index (offset + byteLength w) (w.getLast?.or before) rest =
      .ok us ∧ tokens = ts ++ us := by
  rw [hsplits] at h
  rcases hrest : (lexer options).tokensFrom index (offset + byteLength w)
    (w.getLast?.or before) rest with failure | us
  · rw [hrest] at h
    exact absurd h (by simp [Except.map])
  · rw [hrest] at h
    exact ⟨us, rfl, (Except.ok.inj h).symm⟩

/-- The tokens of a text from one of its tokens on, if what stands in front of its gap is split by
itself. -/
theorem tokensFrom_piece {index : LineIndex} {front qs : List Piece} {gap last : List Char}
    {t : Token} {ts tokens : List Token}
    (hfront : (lexer options).Splits index 0 none (written front) (written (⟨gap, t⟩ :: qs) ++ last)
      ts)
    (hgap : IsGap gap) (hcut : IsCut options before t rest)
    (h : (lexer options).tokensFrom index 0 none (written (front ++ ⟨gap, t⟩ :: qs) ++ last) =
      .ok tokens) :
    ∃ offset before us, (lexer options).tokensFrom index offset (gap.getLast?.or before)
      (t.text.toList ++ (written qs ++ last)) = .ok us ∧ us ⊆ tokens := by
  rw [written_append, List.append_assoc] at h
  obtain ⟨us, hus, rfl⟩ := tokensFrom_behind hfront h
  rw [written_cons] at hus
  obtain ⟨vs, hvs, heq⟩ := tokensFrom_behind (gap_splits hgap (hcut.head_not_space _)) hus
  obtain rfl : us = vs := heq
  exact ⟨_, _, us, hvs, fun u hu => List.mem_append_right ts hu⟩

/-! ### A gap between two tokens -/

/-- A token of a program with a point at one of its ends is a decimal numeral. -/
theorem IsCut.decimal_of_point {t : Token} (h : IsCut options before t rest)
    (hverbatim : t.kind = .verbatim → t.text ∈ verbatimTexts options)
    (hpoint : t.text.toList.head? = some '.' ∨ t.text.toList.getLast? = some '.') :
    IsDecimal t.text.toList := by
  obtain ⟨index, offset, s, hs, -, hk, ht⟩ := h.segment
  have htoken := Classifier.isTokenOf_of_token ht
  have htext : t.text.toList = s.text := by rw [htoken.text, String.toList_ofList]
  rw [htext] at hpoint ⊢
  exact Grammar.decimal_of_point hs hk
    (fun hkind => htoken.text ▸ hverbatim (htoken.kind.trans hkind)) hpoint

/-- There is a point where the tokens touch. -/
def TouchAtPoint (t u : Token) : Prop :=
  t.text.toList.getLast? = some '.' ∨ u.text.toList.head? = some '.'

section Gap

variable {front back : List Piece} {p q : Piece} {last gap : List Char}

theorem respaced_between (hspacing : IsSpacing gap) (hpoint : ¬ TouchAtPoint p.token q.token) :
    ∀ (left : Option Token) (front : List Piece),
      Respaced left (front ++ p :: q :: back) (front ++ p :: ⟨gap, q.token⟩ :: back)
  | left, [] => by
    refine .cons left p p.gap (Or.inl rfl) _ _ (.cons _ q gap ?_ back back (.refl _ back))
    refine Or.inr (Or.inr ⟨hspacing, fun _ l hl => ?_⟩)
    obtain rfl := Option.some.inj hl
    exact not_or.mp hpoint
  | left, l :: front =>
    .cons left l l.gap (Or.inl rfl) _ _ (respaced_between hspacing hpoint _ front)

theorem IsSpacing.head (h : IsSpacing gap) :
    ∀ c ∈ (gap ++ rest).head?, Unicode.isSpace c = true := by
  intro c hc
  rw [List.head?_append_of_ne_nil gap h.ne_nil] at hc
  have hspace := h.2
  rwa [Option.mem_def.mp hc] at hspace

variable (hslash : .divide ∈ options.precedence.flatten → options.regexLiterals = false)
  (hcuts : Cuts options last none (front ++ p :: q :: back))
  (hadjoins : Adjoins options ((front ++ p :: q :: back).map Piece.token))
  (hspacing : IsSpacing gap) {index : LineIndex} {tokens : List Token}

include hslash hcuts hadjoins hspacing

/-- A point at the end of the first token is split off. -/
theorem trailing_point_split
    (hpoint : p.token.text.toList.getLast? = some '.')
    (h : (lexer options).tokensFrom index 0 none
      (written (front ++ p :: ⟨gap, q.token⟩ :: back) ++ last) = .ok tokens) :
    ∃ t ∈ tokens, t.IsVerbatim "." := by
  obtain ⟨before, hgap, hcut, -⟩ := hcuts.of_append.2
  have hdecimal := hcut.decimal_of_point (hadjoins.verbatim p.token (by simp)) (Or.inr hpoint)
  have hchain := hadjoins.next
  rw [List.map_append, List.isChain_append] at hchain
  obtain ⟨ts, hsplits⟩ := front_splits hslash hcuts hadjoins (fun l hl => Regap.meets (Or.inl rfl)
    hgap hcut.ne_nil (hchain.2.2 l.token (by rw [List.getLast?_map, hl]; rfl) p.token rfl)
    (q :: back) (⟨gap, q.token⟩ :: back) last last) index
  obtain ⟨_, _, us, hus, hsubset⟩ := tokensFrom_piece hsplits hgap hcut h
  rw [written_cons] at hus
  obtain ⟨t, ht, hlost⟩ := trailing_point_lost hdecimal hpoint hspacing.head hus
  exact ⟨t, hsubset ht, hlost⟩

/-- A point at the beginning of the second token is split off, unless the first is lost already. -/
theorem leading_point_split (hfirst : p.token.text.toList.getLast? ≠ some '.')
    (hpoint : q.token.text.toList.head? = some '.')
    (h : (lexer options).tokensFrom index 0 none
      (written (front ++ p :: ⟨gap, q.token⟩ :: back) ++ last) = .ok tokens) :
    ∃ t ∈ tokens, t.IsVerbatim "." := by
  obtain ⟨before, -, -, -, hcut, -⟩ := hcuts.of_append.2
  have hdecimal := hcut.decimal_of_point (hadjoins.verbatim q.token (by simp)) (Or.inl hpoint)
  have hrow : ∀ r : Piece, front ++ p :: r :: back = (front ++ [p]) ++ r :: back := by simp
  rw [hrow] at hcuts hadjoins h
  obtain ⟨ts, hsplits⟩ := front_splits hslash hcuts hadjoins (fun l hl => by
    obtain rfl : p = l := by simpa using hl
    exact Meets.opened _ (written (⟨gap, q.token⟩ :: back) ++ last)
      (by rw [written_cons]; exact hspacing.head) (fun hlast => absurd hlast hfirst)) index
  obtain ⟨_, _, us, hus, hsubset⟩ := tokensFrom_piece hsplits hspacing.1 hcut h
  obtain ⟨t, ht, hlost⟩ := leading_point_lost hdecimal hpoint
    (hspacing.1.not_word_behind hspacing.ne_nil _) hus
  exact ⟨t, hsubset ht, hlost⟩

end Gap

/-- A text with white space put in where two tokens touch at a point is refused. -/
theorem spaced_refused (hfault : options.fault? = none) {text : String} {e : Expr}
    (hparse : parse ⟨options, lexer options⟩ text = .ok e) {front back : List Piece} {p q : Piece}
    {last gap : List Char}
    (hlaid : LaidOut ⟨options, lexer options⟩ text (front ++ p :: q :: back) last)
    (hspacing : IsSpacing gap) (hpoint : TouchAtPoint p.token q.token) (e' : Expr) :
    parse ⟨options, lexer options⟩
      (String.ofList (written (front ++ p :: ⟨gap, q.token⟩ :: back) ++ last)) ≠ .ok e' := by
  intro hparse'
  obtain ⟨hnodup, hslash⟩ := GrammarOptions.table_of_fault?_eq_none hfault
  obtain ⟨hcuts, -⟩ := hlaid.cuts
  obtain ⟨d, -, hderived⟩ := hlaid.derived hfault hparse
  obtain ⟨tokens, htokens, hparse'⟩ := parse_eq_ok hparse'
  obtain ⟨d', -, hderived'⟩ := (parseTokens_eq_ok_iff hnodup).mp hparse'
  have hfrom := tokensFrom_of_tokenize htokens
  refine not_derived_of_point ?_ hderived'
  by_cases hlast : p.token.text.toList.getLast? = some '.'
  · exact trailing_point_split hslash hcuts hderived.adjoins hspacing hlast hfrom
  · exact leading_point_split hslash hcuts hderived.adjoins hspacing hlast
      (hpoint.resolve_left hlast) hfrom

/-- White space between two tokens that touch keeps the tree, but for its spans, and only where they
touch at a point is the text refused for it. -/
theorem parse_spaced (h : options.validate = .ok options) :
    ∃ grammar, ofOptions options = .ok grammar ∧ ∀ text e, grammar.parse text = .ok e →
      ∀ front p q back last, LaidOut grammar text (front ++ p :: q :: back) last → q.gap = [] →
        ∀ gap, IsSpacing gap →
          (¬ TouchAtPoint p.token q.token → ∃ e',
            grammar.parse (String.ofList
              (written (front ++ p :: ⟨gap, q.token⟩ :: back) ++ last)) = .ok e' ∧
              e'.withoutSpans = e.withoutSpans) ∧
          (TouchAtPoint p.token q.token → ∀ e',
            grammar.parse (String.ofList
              (written (front ++ p :: ⟨gap, q.token⟩ :: back) ++ last)) ≠ .ok e') := by
  have hfault := (GrammarOptions.fault?_of_validate h).1
  refine ⟨_, ofOptions_eq hfault, ?_⟩
  intro text e hparse front p q back last hlaid _ gap hspacing
  refine ⟨fun hpoint => ?_, fun hpoint => ?_⟩
  · exact parse_of_respaced hfault hparse hlaid (respaced_between hspacing hpoint none front)
      (Or.inl rfl)
  · exact spaced_refused hfault hparse hlaid hspacing hpoint

theorem minus_laidOut : LaidOut ⟨.extended, lexer .extended⟩ "-x"
    [⟨[], ⟨.verbatim, "-", .text "-", [some "-"], ⟨0, 1⟩, ⟨1, 1⟩⟩⟩, ⟨[], nameToken 1⟩] [] where
  tokens := by
    have hminus : (lexer .extended).Splits (.ofText "-x".toList) 0 none ['-'] ['x']
      [⟨.verbatim, "-", .text "-", [some "-"], ⟨0, 1⟩, ⟨1, 1⟩⟩] := .of_token rfl (by decide) rfl
    have hname : (lexer .extended).Splits (.ofText "-x".toList) 1 (some '-') ['x'] []
      [nameToken 1] := .of_token rfl (by decide) rfl
    have hwhole := hminus.append (v := ['x']) hname
    exact tokenize_of_splits hwhole
  text := rfl
  aligned := ⟨rfl, rfl, trivial⟩

theorem minus_spaced : GrammarOptions.extended.validate = .ok .extended ∧
    ∃ grammar, ofOptions .extended = .ok grammar ∧ ∃ e e', grammar.parse "-x" = .ok e ∧
      grammar.parse "- // +\nx" = .ok e' ∧ e'.withoutSpans = e.withoutSpans := by
  obtain ⟨grammar, hgrammar, hall⟩ :=
    parse_spaced (show GrammarOptions.extended.validate = .ok .extended from rfl)
  obtain rfl := Except.ok.inj (hgrammar.symm.trans (ofOptions_eq rfl))
  have hparse : parse ⟨.extended, lexer .extended⟩ "-x" =
      .ok (.unary .minus (.identifier "x" ⟨1, 2⟩)) :=
    parse_of_unary rfl minus_laidOut.tokens
      (.apply _ .minus (by decide) ⟨rfl, rfl⟩ 0 _ _ (.primary 0 _ _ (.identifier _ rfl)))
      (Nat.zero_le _)
  have hspacing : IsSpacing " // +\n".toList :=
    ⟨.blank ' ' (by decide) _ (.comment " +".toList (by decide) _ .nil), by decide⟩
  have hpoint : ¬ ("-".toList.getLast? = some '.' ∨ "x".toList.head? = some '.') := by decide
  obtain ⟨e', hparse', hspans⟩ :=
    (hall _ _ hparse [] _ _ [] [] minus_laidOut rfl _ hspacing).1 hpoint
  exact ⟨rfl, _, hgrammar, _, e', hparse, hparse', hspans⟩

/-- A number that begins with a point, behind the three characters of a word. -/
def pointToken (x : Number.Binary64) : Token :=
  ⟨.number, ".5", .number x, [some ".5"], ⟨3, 5⟩, ⟨1, 4⟩⟩

theorem pointed_negation_laidOut {x : Number.Binary64}
    (hx : Number.Numeral.value? ['.', '5'] = some x) :
    LaidOut ⟨.standard, lexer .standard⟩ "NOT.5" [⟨[], notToken⟩, ⟨[], pointToken x⟩] [] where
  tokens := by
    have hnot : (lexer .standard).Splits (.ofText "NOT.5".toList) 0 none ['N', 'O', 'T']
      ['.', '5'] [notToken] := .of_token rfl (by decide) rfl
    have htoken : Classifier.token (.ofText "NOT.5".toList) 3
        ⟨.number, ['.', '5'], [some ['.', '5']], []⟩ = .ok (pointToken x) :=
      Classifier.token_eq_ok_iff.mpr
        ⟨⟨rfl, rfl, fun hk => absurd rfl hk, rfl⟩, fun _ => ⟨x, hx, rfl⟩, rfl, rfl⟩
    have hnumber : (lexer .standard).Splits (.ofText "NOT.5".toList) 3 (some 'T') ['.', '5'] []
      [pointToken x] := .of_token rfl (by decide) htoken
    have hwhole := hnot.append (v := ['.', '5']) hnumber
    exact tokenize_of_splits hwhole
  text := by
    show "NOT.5".toList = [] ++ ("NOT".toList ++ ([] ++ (".5".toList ++ []))) ++ []
    rfl
  aligned := by
    refine ⟨rfl, ?_, trivial⟩
    show Span.mk 3 5 = ⟨3 + byteLength [], 3 + byteLength [] + byteLength ".5".toList⟩
    rfl

/-- A number that begins with a point is read behind a word, but not behind white space. -/
theorem pointed_negation_refused : GrammarOptions.standard.validate = .ok .standard ∧
    ∃ grammar, ofOptions .standard = .ok grammar ∧ (∃ e, grammar.parse "NOT.5" = .ok e) ∧
      (∃ p q, LaidOut grammar "NOT.5" [p, q] [] ∧ q.gap = [] ∧ IsSpacing [' '] ∧
        String.ofList (written [p, ⟨[' '], q.token⟩] ++ []) = "NOT .5") ∧
      ∀ e, grammar.parse "NOT .5" ≠ .ok e := by
  obtain ⟨x, hx⟩ := Option.isSome_iff_exists.mp
    (show (Number.Numeral.value? ['.', '5']).isSome by decide +kernel)
  have hlaid := pointed_negation_laidOut hx
  have hvalue : literalValue? .standard (pointToken x) = some (.number x, ".5") :=
    literalValue?_of_number rfl rfl (Number.Numeral.isFinite_of_value? hx)
  have hparse : parse ⟨.standard, lexer .standard⟩ "NOT.5" =
      .ok (.unary .not (.literal (.number x) ".5" ⟨3, 5⟩)) :=
    parse_of_unary rfl hlaid.tokens
      (.apply notToken .not (by decide) ⟨rfl, rfl⟩ 0 _ _ (.primary 0 _ _ (.literal _ _ _ hvalue)))
      (Nat.zero_le _)
  have hspacing : IsSpacing [' '] := ⟨.blank ' ' (by decide) _ .nil, by decide⟩
  have hwritten : String.ofList (written [⟨[], notToken⟩, ⟨[' '], pointToken x⟩] ++ []) =
      "NOT .5" :=
    (rfl : String.ofList ("NOT".toList ++ ([' '] ++ (".5".toList ++ [])) ++ []) = "NOT .5")
  have hpoint : ".5".toList.head? = some '.' := by decide
  have hrow : LaidOut ⟨.standard, lexer .standard⟩ "NOT.5"
    ([] ++ ⟨[], notToken⟩ :: ⟨[], pointToken x⟩ :: []) [] := hlaid
  have hrefused := spaced_refused rfl hparse hrow hspacing (Or.inr hpoint)
  refine ⟨rfl, _, ofOptions_eq rfl, ⟨_, hparse⟩, ⟨_, _, hlaid, rfl, hspacing, hwritten⟩,
    fun e hparse' => ?_⟩
  rw [← hwritten] at hparse'
  exact hrefused e hparse'

end Grammar

end Precedence
