import Mathlib.Tactic.SplitIfs
import Precedence.LineScanner
import Precedence.Proofs.Text.Positions

/-!
# The line scanner covers its text

The tokens of a text stand in it one after the other, and what is between them is spaces, line
breaks and comments that run to the end of their line (`LineScanner.Covered`). Lines that hold no
line break have the same tokens, or the same failure, as the text that they make up when they are
joined by line feeds (`LineScanner.scanLines_eq`).
-/

namespace Precedence.LineScanner

open Text

/-- The tokens stand in the text behind `front`, and in front of, between and behind them there is
nothing but spaces, line breaks and comments. -/
inductive Covered : List Char → List Char → List Token → Prop where
  | finish {front : List Char} : Covered front [] []
  | space {front rest : List Char} {tokens : List Token} :
    Covered (front ++ [' ']) rest tokens → Covered front (' ' :: rest) tokens
  | lineBreak {front lineBreak rest : List Char} {tokens : List Token} :
    LineBreak lineBreak rest → Covered (front ++ lineBreak) rest tokens →
    Covered front (lineBreak ++ rest) tokens
  /-- A comment runs up to a line break or to the end of the text. -/
  | comment {front body rest : List Char} {tokens : List Token} : (∀ c ∈ body, InLine c) →
    (∀ c ∈ rest.head?, ¬ InLine c) → Covered (front ++ '/' :: '/' :: body) rest tokens →
    Covered front ('/' :: '/' :: (body ++ rest)) tokens
  | token {front rest : List Char} {tokens : List Token} {t : Token} : t.Stands front rest →
    Covered (front ++ t.text.toList) rest tokens →
    Covered front (t.text.toList ++ rest) (t :: tokens)

namespace Covered

theorem spaces {front w rest : List Char} {tokens : List Token} (hw : ∀ c ∈ w, c = ' ')
    (h : Covered (front ++ w) rest tokens) : Covered front (w ++ rest) tokens := by
  induction w generalizing front with
  | nil => rwa [List.append_nil] at h
  | cons c w ih =>
    obtain ⟨rfl, hblank⟩ := List.forall_mem_cons.mp hw
    exact .space (ih hblank (by rwa [List.append_assoc]))

theorem standsIn {front rest : List Char} {tokens : List Token} (h : Covered front rest tokens) :
    ∀ t ∈ tokens, t.StandsIn front rest := by
  induction h with
  | finish => simp
  | space _ ih => exact fun t ht => (ih t ht).behind
  | lineBreak _ _ ih => exact fun t ht => (ih t ht).behind
  | comment _ _ _ ih => exact fun t ht => (ih t ht).behind
  | token hstands _ ih =>
    exact List.forall_mem_cons.mpr ⟨hstands.standsIn, fun t ht => (ih t ht).behind⟩

/-- Each token begins where those before have ended, or later. -/
theorem pairwise {front rest : List Char} {tokens : List Token} (h : Covered front rest tokens) :
    tokens.Pairwise fun a b => a.span.start < b.span.start ∧ a.span.stop ≤ b.span.start := by
  induction h with
  | finish => exact .nil
  | space _ ih => exact ih
  | lineBreak _ _ ih => exact ih
  | comment _ _ _ ih => exact ih
  | @token _ _ _ t hstands h ih =>
    refine .cons (fun t' ht' => ?_) ih
    obtain ⟨w, behind, -, hlater⟩ := h.standsIn t' ht'
    have hle : t.span.stop ≤ t'.span.start := by
      rw [hstands.span, hlater.span, byteLength_append _ w]
      exact Nat.le_add_right _ _
    exact ⟨Nat.lt_of_lt_of_le hstands.start_lt_stop hle, hle⟩

end Covered

/-! ### A line -/

theorem take_runLength (p : Char → Bool) (text : List Char) :
    text.take (runLength p text) = text.takeWhile p :=
  (List.prefix_iff_eq_take.mp (List.takeWhile_prefix p)).symm

/-- A lexeme of that kind reads `read` of a line, of which it leaves `rest`. -/
structure LexemeKind.Reads (kind : LexemeKind) (read rest : List Char) : Prop where
  ne_nil : read ≠ []
  spaces : kind = .spaces → ∀ c ∈ read, c = ' '
  comment : kind = .comment → rest = [] ∧ ∃ body, read = '/' :: '/' :: body

theorem LexemeKind.Reads.of_token {kind : LexemeKind} {read rest : List Char} (hread : read ≠ [])
    (hspaces : kind ≠ .spaces) (hcomment : kind ≠ .comment) : kind.Reads read rest :=
  ⟨hread, fun h => absurd h hspaces, fun h => absurd h hcomment⟩

theorem reads_of_lexeme {text : List Char} {lexeme : Lexeme} (hline : ∀ c ∈ text, InLine c)
    (h : lexeme? text = some lexeme) :
    lexeme.kind.Reads (text.take lexeme.length) (text.drop lexeme.length) := by
  have hread : text.take lexeme.length ≠ [] := by
    rw [ne_eq, List.take_eq_nil_iff]
    rintro (hzero | rfl)
    · exact Nat.ne_of_gt lexeme.length_pos hzero
    · simp [lexeme?] at h
  unfold lexeme? at h
  split at h
  · simp at h
  · next body =>
    -- a comment goes on up to a line feed, and there is none in a line
    obtain rfl := Option.some.inj h
    have hall : body.takeWhile (· != '\n') = body := by
      rw [← List.append_nil body, List.takeWhile_append_of_pos, List.takeWhile_nil]
      intro c hc
      simpa using (hline c (by simp [hc])).1
    refine ⟨hread, by simp, fun _ => ?_⟩
    simp [runLength, hall]
  · next c rest _ =>
    split_ifs at h with hspace
    · obtain rfl := Option.some.inj h
      refine ⟨hread, fun _ => ?_, by simp⟩
      rw [List.take_succ_cons, take_runLength]
      intro d hd
      rcases List.mem_cons.mp hd with rfl | hd
      · exact hspace
      · simpa using List.all_eq_true.mp List.all_takeWhile d hd
    · obtain rfl := Option.some.inj h
      exact .of_token hread (by simp) (by simp)
    · obtain rfl := Option.some.inj h
      exact .of_token hread (by simp) (by simp)
    · obtain ⟨n, -, rfl⟩ := Option.map_eq_some_iff.mp h
      exact .of_token hread (by simp) (by simp)
    · split at h
      · simp at h
      · obtain rfl := Option.some.inj h
        exact .of_token hread (by simp) (by simp)

/-- A lexeme has a token unless it is of spaces or a comment; the token is of what was read, where
it was read. -/
theorem token?_eq_ok {place : Place} {kind : LexemeKind} {read : List Char} {token : Option Token}
    (h : token? place kind read = .ok token) :
    (token = none ∧ (kind = .spaces ∨ kind = .comment)) ∨
      ∃ t, token = some t ∧ t.text.toList = read ∧ t.span = place.span read ∧
        t.position = place.position := by
  cases kind with
  | spaces => exact Or.inl ⟨(Except.ok.inj h).symm, Or.inl rfl⟩
  | comment => exact Or.inl ⟨(Except.ok.inj h).symm, Or.inr rfl⟩
  | name => exact Or.inr ⟨_, (Except.ok.inj h).symm, String.toList_ofList, rfl, rfl⟩
  | punctuator => exact Or.inr ⟨_, (Except.ok.inj h).symm, String.toList_ofList, rfl, rfl⟩
  | number =>
    simp only [token?] at h
    split at h
    · exact Or.inr ⟨_, (Except.ok.inj h).symm, String.toList_ofList, rfl, rfl⟩
    · simp at h
  | string =>
    simp only [token?] at h
    split at h
    · exact Or.inr ⟨_, (Except.ok.inj h).symm, String.toList_ofList, rfl, rfl⟩
    · simp at h

theorem tokensFrom_cons {place : Place} {c : Char} {cs : List Char} {tokens : List Token}
    (h : tokensFrom place (c :: cs) = .ok tokens) :
    ∃ lexeme token later, lexeme? (c :: cs) = some lexeme ∧
      token? place lexeme.kind ((c :: cs).take lexeme.length) = .ok token ∧
      tokensFrom (place.advance ((c :: cs).take lexeme.length)) ((c :: cs).drop lexeme.length) =
        .ok later ∧ tokens = token.toList ++ later := by
  rw [tokensFrom] at h
  split at h
  · simp at h
  next lexeme hlexeme =>
  obtain ⟨token, ht, h⟩ := Failure.bind_eq_ok_iff.mp h
  obtain ⟨later, hrest, h⟩ := Failure.bind_eq_ok_iff.mp h
  exact ⟨lexeme, token, later, hlexeme, ht, hrest, (Except.ok.inj h).symm⟩

/-- The place of a text between `front` and `behind`. -/
structure Place.At (place : Place) (front behind : List Char) : Prop where
  offset : place.offset = byteLength front
  position : place.position = positionBetween front behind

theorem Place.At.advance {place : Place} {front w behind : List Char}
    (h : place.At front (w ++ behind)) (hw : ∀ c ∈ w, InLine c) :
    (place.advance w).At (front ++ w) behind where
  offset := by rw [byteLength_append, ← h.offset]; rfl
  position := by
    rw [positionBetween_append, ← h.position, Position.past_of_inLine hw]
    rfl

/-- What a lexeme reads is covered by its token, or needs none. -/
theorem covered_of_reads {place : Place} {kind : LexemeKind} {token : Option Token}
    {front read rest behind : List Char} {us : List Token} (hreads : kind.Reads read rest)
    (hline : ∀ c ∈ read, InLine c) (hbreak : ∀ c ∈ behind.head?, ¬ InLine c)
    (hplace : place.At front (read ++ (rest ++ behind)))
    (htoken : token? place kind read = .ok token)
    (h : Covered (front ++ read) (rest ++ behind) us) :
    Covered front (read ++ (rest ++ behind)) (token.toList ++ us) := by
  rcases token?_eq_ok htoken with ⟨rfl, hkind | hkind⟩ | ⟨t, rfl, htext, hspan, hposition⟩
  · exact h.spaces (hreads.spaces hkind)
  · obtain ⟨rfl, body, rfl⟩ := hreads.comment hkind
    exact .comment (fun c hc => hline c (by simp [hc])) hbreak h
  · subst htext
    refine .token ⟨hreads.ne_nil, ?_, ?_⟩ h
    · rw [hspan, Place.span, hplace.offset, byteLength_append]
    · rw [hposition, hplace.position]

/-- The tokens of a line cover it. -/
theorem covered_of_tokensFrom {place : Place} {front w behind : List Char} {ts us : List Token}
    (hline : ∀ c ∈ w, InLine c) (hbreak : ∀ c ∈ behind.head?, ¬ InLine c)
    (hplace : place.At front (w ++ behind)) (h : tokensFrom place w = .ok ts)
    (hbehind : Covered (front ++ w) behind us) : Covered front (w ++ behind) (ts ++ us) := by
  -- each lexeme leaves a shorter line, at whose beginning the place is right again
  induction hn : w.length using Nat.strongRecOn generalizing place front w ts with
  | ind n ih =>
  rcases w with _ | ⟨c, cs⟩
  · rw [tokensFrom] at h
    obtain rfl := Except.ok.inj h
    rwa [List.append_nil] at hbehind
  obtain ⟨lexeme, token, later, hlexeme, htoken, hlater, rfl⟩ := tokensFrom_cons h
  have hreads := reads_of_lexeme hline hlexeme
  have hless : ((c :: cs).drop lexeme.length).length < n := by
    have hpos := lexeme.length_pos
    rw [← hn, List.length_drop, List.length_cons]
    omega
  have hwhole : c :: cs = (c :: cs).take lexeme.length ++ (c :: cs).drop lexeme.length :=
    (List.take_append_drop _ _).symm
  generalize (c :: cs).take lexeme.length = read at *
  generalize (c :: cs).drop lexeme.length = rest at *
  rw [hwhole] at hline hbehind hplace ⊢
  obtain ⟨hread, hrest⟩ := List.forall_mem_append.mp hline
  rw [List.append_assoc] at hplace ⊢
  rw [← List.append_assoc] at hbehind
  rw [List.append_assoc]
  exact covered_of_reads hreads hread hbreak hplace htoken
    (ih _ hless hrest (hplace.advance hread) hlater hbehind rfl)

/-! ### The lines of a text -/

theorem tokensOfLines_cons {number : Nat} {line : Line} {rest : List Line} {tokens : List Token}
    (h : tokensOfLines number (line :: rest) = .ok tokens) :
    ∃ ts us, tokensFrom ⟨number, line.start, 1⟩ line.text = .ok ts ∧
      tokensOfLines (number + 1) rest = .ok us ∧ tokens = ts ++ us := by
  rw [tokensOfLines] at h
  obtain ⟨ts, hline, h⟩ := Failure.bind_eq_ok_iff.mp h
  obtain ⟨us, hrest, h⟩ := Failure.bind_eq_ok_iff.mp h
  exact ⟨ts, us, hline, hrest, (Except.ok.inj h).symm⟩

/-- A line is covered by its tokens, if the lines behind its break are covered by theirs. -/
theorem covered_of_line {number start : Nat} {front w lineBreak rest : List Char}
    {ts us : List Token} (hbreak : LineBreak lineBreak rest) (hstart : start = byteLength front)
    (hline : ∀ c ∈ w, InLine c)
    (hplace : positionBetween front (w ++ (lineBreak ++ rest)) = ⟨number, 1⟩)
    (hts : tokensFrom ⟨number, start, 1⟩ w = .ok ts)
    (hnext : ∀ front, start + byteLength w + byteLength lineBreak = byteLength front →
      positionBetween front rest = ⟨number + 1, 1⟩ → Covered front rest us) :
    Covered front (w ++ (lineBreak ++ rest)) (ts ++ us) := by
  have hat : Place.At ⟨number, start, 1⟩ front (w ++ (lineBreak ++ rest)) := ⟨hstart, hplace.symm⟩
  refine covered_of_tokensFrom hline hbreak.not_inLine hat hts (.lineBreak hbreak (hnext _ ?_ ?_))
  · rw [byteLength_append, byteLength_append, hstart]
  · rw [positionBetween_append, positionBetween_append, hplace, Position.past_of_inLine hline,
      hbreak.past]

/-- The lines that begin behind `front`, the first of which is read up to behind `current`, are
covered by their tokens. -/
theorem covered_of_tokensOfLines {start number : Nat} {front current text : List Char}
    {tokens : List Token} (hstart : start = byteLength front) (hline : ∀ c ∈ current, InLine c)
    (hplace : positionBetween front (current.reverse ++ text) = ⟨number, 1⟩)
    (h : tokensOfLines number (splitLinesFrom start current text) = .ok tokens) :
    Covered front (current.reverse ++ text) tokens := by
  have hreverse : ∀ c ∈ current.reverse, InLine c := fun c hc => hline c (List.mem_reverse.mp hc)
  fun_induction splitLinesFrom start current text generalizing front number tokens with
  | case1 start current =>
    obtain ⟨ts, us, hts, hus, rfl⟩ := tokensOfLines_cons h
    obtain rfl := Except.ok.inj hus
    have hat : Place.At ⟨number, start, 1⟩ front (current.reverse ++ []) := ⟨hstart, hplace.symm⟩
    exact covered_of_tokensFrom hreverse (by simp) hat hts .finish
  | case2 start current rest ih =>
    obtain ⟨ts, us, hts, hus, rfl⟩ := tokensOfLines_cons h
    refine covered_of_line .both hstart hreverse hplace hts fun front hfront hposition => ?_
    rw [byteLength_reverse] at hfront
    exact ih hfront (by simp) hposition hus (by simp)
  | case3 start current rest hrest ih =>
    obtain ⟨ts, us, hts, hus, rfl⟩ := tokensOfLines_cons h
    have hhead : rest.head? ≠ some '\n' := by
      intro hhead
      obtain ⟨later, rfl⟩ := List.head?_eq_some_iff.mp hhead
      exact hrest later rfl
    refine covered_of_line (.carriageReturn hhead) hstart hreverse hplace hts
      fun front hfront hposition => ?_
    rw [byteLength_reverse] at hfront
    exact ih hfront (by simp) hposition hus (by simp)
  | case4 start current rest ih =>
    obtain ⟨ts, us, hts, hus, rfl⟩ := tokensOfLines_cons h
    refine covered_of_line .lineFeed hstart hreverse hplace hts fun front hfront hposition => ?_
    rw [byteLength_reverse] at hfront
    exact ih hfront (by simp) hposition hus (by simp)
  | case5 start current c rest hcrlf hcr hlf ih =>
    have hinLine : ∀ d ∈ c :: current, InLine d := List.forall_mem_cons.mpr ⟨⟨hlf, hcr⟩, hline⟩
    rw [← List.singleton_append, ← List.append_assoc, ← List.reverse_cons] at hplace ⊢
    exact ih hstart hinLine hplace h fun d hd => hinLine d (List.mem_reverse.mp hd)

theorem scan_eq (text : String) :
    scan text = tokensOfLines 1 (splitLinesFrom 0 [] text.toList) := by
  rw [scan, splitLines_eq]

theorem covered_of_scan {text : String} {tokens : List Token} (h : scan text = .ok tokens) :
    Covered [] text.toList tokens := by
  rw [scan_eq] at h
  exact covered_of_tokensOfLines byteLength_nil.symm (List.forall_mem_nil _) rfl h

/-! ### Lines that are joined -/

theorem splitLinesFrom_append {start : Nat} {current w rest : List Char}
    (hw : ∀ c ∈ w, InLine c) :
    splitLinesFrom start current (w ++ rest) =
      splitLinesFrom start (w.reverse ++ current) rest := by
  induction w generalizing current with
  | nil => rfl
  | cons c w ih =>
    obtain ⟨hc, hline⟩ := List.forall_mem_cons.mp hw
    rw [List.cons_append, splitLinesFrom, ih hline, List.reverse_cons, List.append_assoc]
    · rfl
    · exact fun _ h => absurd h hc.2
    · exact hc.2
    · exact hc.1

/-- What has no line break is one line. -/
theorem splitLinesFrom_last {w : List Char} (hw : ∀ c ∈ w, InLine c) (start : Nat) :
    splitLinesFrom start [] w = [⟨start, w⟩] := by
  have hsplit : splitLinesFrom start [] (w ++ []) = splitLinesFrom start (w.reverse ++ []) [] :=
    splitLinesFrom_append hw
  rw [List.append_nil] at hsplit
  rw [hsplit, List.append_nil, splitLinesFrom, List.reverse_reverse]

theorem splitLinesFrom_lineBreak {w lineBreak rest : List Char} (hw : ∀ c ∈ w, InLine c)
    (hbreak : LineBreak lineBreak rest) (start : Nat) :
    splitLinesFrom start [] (w ++ (lineBreak ++ rest)) =
      ⟨start, w⟩ :: splitLinesFrom (start + byteLength w + byteLength lineBreak) [] rest := by
  rw [splitLinesFrom_append hw, List.append_nil]
  cases hbreak with
  | lineFeed =>
    rw [List.singleton_append, splitLinesFrom, List.reverse_reverse, byteLength_reverse]
    rfl
  | both =>
    rw [List.cons_append, List.singleton_append, splitLinesFrom, List.reverse_reverse,
      byteLength_reverse]
    rfl
  | carriageReturn hrest =>
    rw [List.singleton_append, splitLinesFrom, List.reverse_reverse, byteLength_reverse]
    · rfl
    · rintro later rfl
      exact hrest rfl

/-- Lines that are joined by line feeds are split again. -/
theorem splitLinesFrom_intercalate {start : Nat} {line : List Char} {lines : List (List Char)}
    (h : ∀ l ∈ line :: lines, ∀ c ∈ l, InLine c) :
    splitLinesFrom start [] (List.intercalate ['\n'] (line :: lines)) =
      joinedLines start (line :: lines) := by
  induction lines generalizing start line with
  | nil =>
    rw [List.intercalate_singleton, splitLinesFrom_last (h line (List.mem_singleton_self line))]
    rfl
  | cons next lines ih =>
    have hline := h line List.mem_cons_self
    rw [List.intercalate_cons_cons, List.append_assoc, splitLinesFrom_lineBreak hline .lineFeed,
      ih fun l hl => h l (List.mem_cons_of_mem _ hl)]
    rfl

/-- Lines without line breaks have the tokens of the text that they are when joined. -/
theorem scanLines_eq {lines : List String} (h : ∀ line ∈ lines, ∀ c ∈ line.toList, InLine c) :
    scanLines lines = scan ("\n".intercalate lines) := by
  rw [scanLines, scan_eq, String.toList_intercalate]
  rcases lines with _ | ⟨line, lines⟩
  · show Except.ok [] = tokensOfLines 1 [⟨0, []⟩]
    rw [tokensOfLines, tokensFrom]
    rfl
  · have hlines : ∀ l ∈ line.toList :: lines.map String.toList, ∀ c ∈ l, InLine c := by
      rw [← List.map_cons]
      intro l hl
      obtain ⟨line, hline, rfl⟩ := List.mem_map.mp hl
      exact h line hline
    rw [List.map_cons]
    exact congrArg (tokensOfLines 1) (splitLinesFrom_intercalate hlines).symm

/-- The tokens of a text stand in it one behind the other, with nothing but spaces, line breaks and
comments outside them; and lines without line breaks are scanned as the text that they are when
joined. -/
theorem scan_covers :
    (∀ text tokens, scan text = .ok tokens →
      Covered [] text.toList tokens ∧
      (∀ t ∈ tokens, t.span.start < t.span.stop ∧
        ∃ front behind, text.toList = front ++ (t.text.toList ++ behind) ∧ t.Stands front behind) ∧
      tokens.Pairwise fun a b => a.span.start < b.span.start ∧ a.span.stop ≤ b.span.start) ∧
    ∀ lines, (∀ line ∈ lines, ∀ c ∈ line.toList, InLine c) →
      scanLines lines = scan ("\n".intercalate lines) := by
  refine ⟨fun text tokens h => ?_, fun lines h => scanLines_eq h⟩
  have hcovered := covered_of_scan h
  refine ⟨hcovered, fun t ht => ?_, hcovered.pairwise⟩
  obtain ⟨front, behind, htext, hstands⟩ := hcovered.standsIn t ht
  exact ⟨hstands.start_lt_stop, front, behind, htext, hstands⟩

/-- The tokens of `a // é`, a carriage return and line feed, and `+`. -/
def commentedSum : List Token :=
  [{ kind := .name, text := "a", value := .text "a", span := ⟨0, 1⟩, position := ⟨1, 1⟩ },
    { kind := .punctuator, text := "+", value := .text "+", span := ⟨9, 10⟩, position := ⟨2, 1⟩ }]

theorem commented_sum_covered : scan "a // é\r\n+" = .ok commentedSum ∧
    Covered [] "a // é\r\n+".toList commentedSum ∧
    scanLines ["a // é", "", "+"] = scan "a // é\n\n+" := by
  have hscan : scan "a // é\r\n+" = .ok commentedSum := by
    have hsome : (scan "a // é\r\n+").toOption = some commentedSum := by decide +kernel
    rcases h : scan "a // é\r\n+" with failure | tokens
    · rw [h] at hsome
      exact absurd hsome (by simp [Except.toOption])
    · rw [h] at hsome
      exact congrArg Except.ok (Option.some.inj hsome)
  have hlines : ∀ line ∈ ["a // é", "", "+"], ∀ c ∈ line.toList, InLine c := by
    simp [InLine]
  exact ⟨hscan, (scan_covers.1 _ _ hscan).1, scan_covers.2 _ hlines⟩

end Precedence.LineScanner
