import Precedence.Proofs.Classifier.Segments
import Precedence.Proofs.Number.Finite
import Precedence.Proofs.Text.Positions

/-!
# A classifier partitions its text

What a classifier does depends on its registrations alone: at each place the earliest of them whose
pattern reads something there takes what it reads (`Classifier.segment?_registered_eq_some_iff`). So
a text has tokens exactly when such segments, each right behind the one before, make up all of it,
and no number among them is without a finite value. Otherwise they make up a beginning of the text,
and the failure is the one of the place behind it (`Classifier.tokenize_partitions`).
-/

namespace Precedence

open Number Text

namespace Pattern

/-- A match reads no more than there is, and its groups lie in what it reads. -/
theorem matchAt_within {p : Pattern} {before : Option Char} {text : List Char} {m : Match}
    (h : p.matchAt before text = some m) :
    m.length ≤ text.length ∧ ∀ g ∈ m.groups, ∀ ends ∈ g, ends.1 ≤ ends.2 ∧ ends.2 ≤ m.length := by
  obtain ⟨t, hfind, rfl⟩ := Option.map_eq_some_iff.mp h
  obtain ⟨t', hread, ht⟩ := Regex.find_sound _ _ _ _ hfind
  obtain rfl := Option.some.inj ht
  obtain ⟨-, hlength, hgroups⟩ := hread.forward
  refine ⟨?_, ?_⟩
  · have hlength : t'.used + t'.rest.length = 0 + text.length := hlength
    show t'.used ≤ text.length
    omega
  · intro g hg ends hends
    obtain ⟨i, -, rfl⟩ := List.mem_map.mp hg
    obtain ⟨l₁, l₂, hsplit, -⟩ := List.lookup_eq_some_iff.mp (Option.mem_def.mp hends)
    rcases hgroups (i + 1, ends) (by rw [hsplit]; simp) with hnone | hin
    · simp at hnone
    · exact hin.2

end Pattern

/-- The match `m` of the beginning of a text makes up the segment `s`. -/
structure Match.Makes (m : Match) (text : List Char) (s : Segment) : Prop where
  whole : text = s.text ++ s.rest
  length : s.text.length = m.length
  inside : ∀ g ∈ m.groups, ∀ ends ∈ g, ends.1 ≤ ends.2 ∧ ends.2 ≤ s.text.length
  captures : s.captures = m.groups.map (·.map fun ends => (s.text.take ends.2).drop ends.1)

namespace Classifier

/-! ### Registrations -/

/-- The classifier with one more registration, a source and a kind; one that fails leaves the
classifier as it is. -/
def add (classifier : Classifier) (entry : String × TokenKind) : Classifier :=
  (classifier.register entry.1 entry.2).toOption.getD classifier

/-- The classifier after these registrations. -/
def registered (entries : List (String × TokenKind)) : Classifier :=
  entries.foldl add empty

/-- What the pattern of a source matches at a place, if it reads something there. -/
def match? (source : String) (before : Option Char) (text : List Char) : Option Match :=
  (Pattern.read source.toList).bind fun pattern =>
    (pattern.matchAt before text).filter fun m => m.length ≠ 0

/-- The segment `s` is what the earliest entry that reads something at a place matches there. -/
def Takes (entries : List (String × TokenKind)) (before : Option Char) (text : List Char)
    (s : Segment) : Prop :=
  ∃ earlier source later m, entries = earlier ++ (source, s.kind) :: later ∧
    (∀ entry ∈ earlier, match? entry.1 before text = none) ∧
    match? source before text = some m ∧ m.Makes text s

/-- The segment that an entry by itself takes at a place. -/
def entrySegment? (before : Option Char) (text : List Char) (entry : String × TokenKind) :
    Option Segment :=
  (match? entry.1 before text).map fun m =>
    { kind := entry.2
      text := text.take m.length
      captures := m.groups.map (·.map fun ends => (text.take ends.2).drop ends.1)
      rest := text.drop m.length }

section Entries

variable {entries : List (String × TokenKind)} {before : Option Char} {text : List Char}
  {s : Segment}

theorem match?_within {source : String} {m : Match} (h : match? source before text = some m) :
    m.length ≠ 0 ∧ m.length ≤ text.length ∧
      ∀ g ∈ m.groups, ∀ ends ∈ g, ends.1 ≤ ends.2 ∧ ends.2 ≤ m.length := by
  obtain ⟨p, -, hp⟩ := Option.bind_eq_some_iff.mp h
  obtain ⟨hm, hlength⟩ := Option.filter_eq_some_iff.mp hp
  exact ⟨by simpa using hlength, Pattern.matchAt_within hm⟩

theorem entrySegment?_eq_some_iff {entry : String × TokenKind} :
    entrySegment? before text entry = some s ↔
      s.kind = entry.2 ∧ ∃ m, match? entry.1 before text = some m ∧ m.Makes text s := by
  constructor
  · intro h
    obtain ⟨m, hm, rfl⟩ := Option.map_eq_some_iff.mp h
    obtain ⟨-, hlength, hgroups⟩ := match?_within hm
    have hmin : min m.length text.length = m.length := Nat.min_eq_left hlength
    refine ⟨rfl, m, hm, (List.take_append_drop _ _).symm, by rw [List.length_take, hmin], ?_, ?_⟩
    · rw [List.length_take, hmin]
      exact hgroups
    · refine List.map_congr_left fun g hg => ?_
      rcases g with _ | ends
      · rfl
      · have hstop := (hgroups _ hg ends rfl).2
        simp only [Option.map_some, List.take_take, Nat.min_eq_left hstop]
  · rintro ⟨hkind, m, hm, hmakes⟩
    obtain ⟨kind, w, captures, rest⟩ := s
    obtain ⟨rfl, hlength, hinside, hcaptures⟩ := hmakes
    obtain rfl : kind = entry.2 := hkind
    obtain hlength : w.length = m.length := hlength
    rw [entrySegment?, hm, Option.map_some, Option.some.injEq, Segment.mk.injEq, ← hlength]
    refine ⟨rfl, List.take_left, ?_, List.drop_left⟩
    refine Eq.trans (List.map_congr_left fun g hg => ?_) hcaptures.symm
    rcases g with _ | ends
    · rfl
    · have hstop : ends.2 ≤ w.length := (hinside _ hg ends rfl).2
      simp only [Option.map_some, List.take_append_of_le_length hstop]

/-- The patterns are those of their sources, and they take what the entries take. -/
structure Represents (classifier : Classifier) (entries : List (String × TokenKind)) : Prop where
  sources : ∀ p ∈ classifier.patterns, Pattern.read p.source.toList = some p.pattern
  segments : ∀ before text,
    classifier.segment? before text = entries.findSome? (entrySegment? before text)

theorem segment?_of_source {p : TokenPattern}
    (h : Pattern.read p.source.toList = some p.pattern) :
    p.segment? before text = entrySegment? before text (p.source, p.kind) := by
  rw [TokenPattern.segment?, entrySegment?, match?, h, Option.bind_some]
  rcases p.pattern.matchAt before text with _ | m
  · rfl
  · by_cases hm : m.length = 0
    · simp [Option.filter, hm]
    · simp [Option.filter, hm]

/-- A registration adds nothing if it is already there or if its pattern cannot be read, and else
adds its pattern behind the others. -/
theorem add_cases (classifier : Classifier) (source : String) (kind : TokenKind) :
    (classifier.add (source, kind) = classifier ∧
      ((∃ p ∈ classifier.patterns, p.kind = kind ∧ p.source = source) ∨
        Pattern.read source.toList = none)) ∨
      ∃ pattern, Pattern.read source.toList = some pattern ∧
        classifier.add (source, kind) = ⟨classifier.patterns ++ [⟨kind, source, pattern⟩]⟩ := by
  rw [add, register]
  by_cases hany : classifier.patterns.any fun p => p.kind == kind && p.source == source
  · obtain ⟨p, hp, hsame⟩ := List.any_eq_true.mp hany
    rw [if_pos hany]
    exact Or.inl ⟨rfl, Or.inl ⟨p, hp, by simpa using hsame⟩⟩
  · rw [if_neg hany]
    rcases Pattern.read source.toList with _ | pattern
    · exact Or.inl ⟨rfl, Or.inr rfl⟩
    · exact Or.inr ⟨pattern, rfl, rfl⟩

theorem Represents.add {classifier : Classifier} (h : classifier.Represents entries)
    (entry : String × TokenKind) : (classifier.add entry).Represents (entries ++ [entry]) := by
  obtain ⟨source, kind⟩ := entry
  have hsegments : ∀ before text, (entries ++ [(source, kind)]).findSome?
      (entrySegment? before text) =
      (classifier.segment? before text).or (entrySegment? before text (source, kind)) := by
    intro before text
    rw [List.findSome?_append, ← h.segments before text, List.findSome?_cons]
    rcases entrySegment? before text (source, kind) with _ | s <;> rfl
  rcases classifier.add_cases source kind with
    ⟨hadd, ⟨p, hp, rfl, rfl⟩ | hread⟩ | ⟨pattern, hread, hadd⟩
  · -- a pattern that is there already takes nothing where the classifier takes nothing
    refine ⟨by rw [hadd]; exact h.sources, fun before text => ?_⟩
    rw [hadd, hsegments, ← segment?_of_source (h.sources p hp)]
    rcases hs : classifier.segment? before text with _ | s
    · exact (List.findSome?_eq_none_iff.mp hs p hp).symm
    · rfl
  · refine ⟨by rw [hadd]; exact h.sources, fun before text => ?_⟩
    rw [hadd, hsegments, entrySegment?, match?, hread]
    exact (Option.or_none).symm
  · refine ⟨fun p hp => ?_, fun before text => ?_⟩
    · rw [hadd] at hp
      rcases List.mem_append.mp hp with hp | hp
      · exact h.sources p hp
      · obtain rfl := List.mem_singleton.mp hp
        exact hread
    · rw [hadd, hsegments, ← segment?_of_source (p := ⟨kind, source, pattern⟩) hread]
      simp [segment?, List.findSome?_append]

theorem Represents.addAll {classifier : Classifier} (h : classifier.Represents entries)
    (more : List (String × TokenKind)) :
    (more.foldl Classifier.add classifier).Represents (entries ++ more) := by
  induction more generalizing classifier entries with
  | nil => rwa [List.append_nil]
  | cons entry more ih =>
    rw [List.foldl_cons, List.append_cons]
    exact ih (h.add entry)

theorem registered_represents (entries : List (String × TokenKind)) :
    (registered entries).Represents entries := by
  have hempty : empty.Represents [] := ⟨by simp [empty], fun _ _ => rfl⟩
  exact hempty.addAll entries

theorem segment?_registered_eq_some_iff :
    (registered entries).segment? before text = some s ↔ Takes entries before text s := by
  rw [(registered_represents entries).segments, List.findSome?_eq_some_iff]
  constructor
  · rintro ⟨earlier, ⟨source, kind⟩, later, rfl, hs, hnone⟩
    obtain ⟨rfl, m, hm, hmakes⟩ := entrySegment?_eq_some_iff.mp hs
    exact ⟨earlier, source, later, m, rfl,
      fun entry hentry => Option.map_eq_none_iff.mp (hnone entry hentry), hm, hmakes⟩
  · rintro ⟨earlier, source, later, m, rfl, hnone, hm, hmakes⟩
    exact ⟨earlier, _, later, rfl, entrySegment?_eq_some_iff.mpr ⟨rfl, m, hm, hmakes⟩,
      fun entry hentry => Option.map_eq_none_iff.mpr (hnone entry hentry)⟩

theorem segment?_registered_eq_none_iff :
    (registered entries).segment? before text = none ↔
      ∀ entry ∈ entries, match? entry.1 before text = none := by
  rw [(registered_represents entries).segments, List.findSome?_eq_none_iff]
  exact forall₂_congr fun entry _ => Option.map_eq_none_iff

end Entries

/-! ### The tokens of a text -/

/-- The token of the segment `s` behind `front`; that of a number has a finite value. -/
structure IsTokenBehind (front : List Char) (s : Segment) (t : Token) : Prop
    extends IsTokenOf t s where
  number : s.kind = .number →
    ∃ x, Numeral.value? s.primary = some x ∧ x.isFinite = true ∧ t.value = .number x
  stands : t.Stands front s.rest

/-- The beginning `front` of a text is split into segments with these tokens, each segment what the
entries take right behind the one before, and `rest` is left. -/
inductive Partitioned (entries : List (String × TokenKind)) (text : List Char) :
    List Char → List Token → List Char → Prop where
  | start : Partitioned entries text [] [] text
  | ignored {front rest : List Char} {tokens : List Token} {s : Segment} :
    Partitioned entries text front tokens rest → Takes entries front.getLast? rest s →
    s.kind = .ignore → Partitioned entries text (front ++ s.text) tokens s.rest
  | token {front rest : List Char} {tokens : List Token} {s : Segment} {t : Token} :
    Partitioned entries text front tokens rest → Takes entries front.getLast? rest s →
    s.kind ≠ .ignore → IsTokenBehind front s t →
    Partitioned entries text (front ++ s.text) (tokens ++ [t]) s.rest

/-- Why a text goes on behind `front` with neither a token nor something ignored. -/
inductive Stops (entries : List (String × TokenKind)) (front rest : List Char) :
    Failure → Prop where
  /-- No entry reads anything at the character `c`. -/
  | unmatched {c : Char} : c ∈ rest.head? →
    (∀ entry ∈ entries, match? entry.1 front.getLast? rest = none) →
    Stops entries front rest
      (.lexical (String.ofList (rest.take 12))
        { position := positionBetween front rest
          span := some ⟨byteLength front, byteLength (front ++ [c])⟩ })
  | notFinite {s : Segment} : Takes entries front.getLast? rest s → s.kind = .number →
    Numeral.value? s.primary = none →
    Stops entries front rest
      (.nonFiniteNumber (String.ofList s.primary)
        { position := positionBetween front rest
          span := some ⟨byteLength front, byteLength (front ++ s.text)⟩ })

section Runs

variable {entries : List (String × TokenKind)} {text front rest : List Char}
  {tokens : List Token} {s : Segment}

theorem Takes.whole {before : Option Char} (h : Takes entries before text s) :
    text = s.text ++ s.rest := by
  obtain ⟨-, -, -, m, -, -, -, hmakes⟩ := h
  exact hmakes.whole

theorem Partitioned.append_eq (h : Partitioned entries text front tokens rest) :
    front ++ rest = text := by
  induction h with
  | start => rfl
  | ignored _ htakes _ ih => rw [← ih, List.append_assoc, ← htakes.whole]
  | token _ htakes _ _ ih => rw [← ih, List.append_assoc, ← htakes.whole]

/-- The segment that the entries take behind `front` is the one that their classifier takes. -/
theorem Takes.segment (h : Takes entries front.getLast? rest s) :
    (registered entries).segment? (front.getLast?.or none) (s.text ++ s.rest) = some s := by
  rw [Option.or_none, ← h.whole]
  exact segment?_registered_eq_some_iff.mpr h

theorem token_eq_ok_iff_behind {t : Token} (hs : s.text ≠ []) :
    token (.ofText (front ++ (s.text ++ s.rest))) (byteLength front) s = .ok t ↔
      IsTokenBehind front s t := by
  rw [token_eq_ok_iff, LineIndex.position_between, ← byteLength_append]
  constructor
  · rintro ⟨hof, hnumber, hspan, hposition⟩
    have htext : t.text.toList = s.text := by rw [hof.text, String.toList_ofList]
    refine ⟨hof, fun hk => ?_, ⟨htext ▸ hs, htext ▸ hspan, htext ▸ hposition⟩⟩
    obtain ⟨x, hx, hvalue⟩ := hnumber hk
    exact ⟨x, hx, Numeral.isFinite_of_value? hx, hvalue⟩
  · rintro ⟨hof, hnumber, hstands⟩
    have htext : t.text.toList = s.text := by rw [hof.text, String.toList_ofList]
    refine ⟨hof, fun hk => ?_, htext ▸ hstands.span, htext ▸ hstands.position⟩
    obtain ⟨x, hx, -, hvalue⟩ := hnumber hk
    exact ⟨x, hx, hvalue⟩

/-- What is in front is split into its tokens, whatever comes of the rest. -/
theorem Partitioned.splits (h : Partitioned entries text front tokens rest) :
    (registered entries).Splits (.ofText text) 0 none front rest tokens := by
  induction h with
  | start => exact .nil
  | ignored h htakes hkind ih =>
    rw [htakes.whole] at ih
    have hstep := ih.append (.of_ignored htakes.segment hkind)
    rwa [List.append_nil] at hstep
  | token h htakes hkind htoken ih =>
    rw [htakes.whole] at ih
    refine ih.append (.of_token htakes.segment hkind ?_)
    rw [Nat.zero_add, ← h.append_eq, htakes.whole]
    exact (token_eq_ok_iff_behind (ne_nil_of_segment htakes.segment)).mpr htoken

theorem Stops.tokensFrom {failure : Failure} (h : Stops entries front rest failure) :
    (registered entries).tokensFrom (.ofText (front ++ rest)) (byteLength front) front.getLast?
      rest = .error failure := by
  cases h with
  | @unmatched c hc hnone =>
    obtain ⟨cs, rfl⟩ := List.head?_eq_some_iff.mp hc
    rw [Classifier.tokensFrom]
    split
    · rw [noMatch, LineIndex.position_between, byteLength_append]
      rfl
    · next s hs =>
      rw [segment?_registered_eq_none_iff.mpr hnone] at hs
      simp at hs
  | @notFinite s htakes hkind hvalue =>
    have hsegment := segment?_registered_eq_some_iff.mpr htakes
    rw [tokensFrom_of_segment hsegment, if_neg (by rw [hkind]; decide),
      token_eq_error_iff.mpr ⟨hkind, hvalue, rfl⟩, LineIndex.position_between, byteLength_append]
    rfl

theorem Partitioned.tokenize {text : String}
    (h : Partitioned entries text.toList text.toList tokens []) :
    (registered entries).tokenize text = .ok tokens :=
  h.splits.tokens

end Runs

section Standing

variable {classifier : Classifier} {before : Option Char} {front text : List Char}
  {tokens : List Token}

/-- Whatever the patterns are, the tokens of a text stand in it, one after the other. -/
theorem standsIn_of_tokensFrom
    (h : classifier.tokensFrom (.ofText (front ++ text)) (byteLength front) before text =
      .ok tokens) :
    (∀ t ∈ tokens, t.StandsIn front text) ∧
      tokens.Pairwise fun a b => a.span.stop ≤ b.span.start := by
  -- each segment leaves a shorter text
  induction hn : text.length using Nat.strongRecOn generalizing front before text tokens with
  | ind n ih =>
  rcases text with _ | ⟨c, cs⟩
  · rw [Classifier.tokensFrom] at h
    obtain rfl := Except.ok.inj h
    exact ⟨by simp, .nil⟩
  obtain ⟨s, ts, hs, hrest, hcases⟩ := tokensFrom_cons h
  have hwhole := whole_of_segment hs
  rw [hwhole, ← List.append_assoc, ← byteLength_append] at hrest
  obtain ⟨hstand, hpairs⟩ := ih _ (hn ▸ length_rest_lt hs) hrest rfl
  have hlater : ∀ t ∈ ts, t.StandsIn front (c :: cs) := fun t ht => hwhole ▸ (hstand t ht).behind
  rcases hcases with ⟨-, rfl⟩ | ⟨-, t, htoken, rfl⟩
  · exact ⟨hlater, hpairs⟩
  rw [hwhole] at htoken
  have hbehind := (token_eq_ok_iff_behind (ne_nil_of_segment hs)).mp htoken
  have htext : t.text.toList = s.text := by rw [hbehind.text, String.toList_ofList]
  refine ⟨List.forall_mem_cons.mpr ⟨?_, hlater⟩, .cons (fun t' ht' => ?_) hpairs⟩
  · rw [hwhole, ← htext]
    exact hbehind.stands.standsIn
  · obtain ⟨w, behind, -, hstands⟩ := hstand t' ht'
    rw [hbehind.stands.span, hstands.span, htext, byteLength_append _ w]
    exact Nat.le_add_right _ _

theorem standsIn_of_tokenize {text : String} (h : classifier.tokenize text = .ok tokens) :
    (∀ t ∈ tokens, t.StandsIn [] text.toList) ∧
      tokens.Pairwise fun a b => a.span.stop ≤ b.span.start := by
  have htokens : classifier.tokensFrom (.ofText ([] ++ text.toList)) (byteLength []) none
      text.toList = .ok tokens := h
  exact standsIn_of_tokensFrom htokens

end Standing

end Classifier

end Precedence
