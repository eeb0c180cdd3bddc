import Precedence.Proofs.Grammar.Adjacency
import Precedence.Proofs.Grammar.Lexemes.ReadBack

/-!
# Segments in other surroundings

A segment of a program is taken again, with the same groups, where other things stand around it
(`segment_again`): in front of it only whether a word goes on there counts (`Fronts`), and behind it
there may be white space instead, or the same text for as long as it matters (`Meets`). A numeral
with a point at one of its ends is the exception, as there must be a word character next to the
point.
-/

namespace Precedence

namespace Grammar

open Regex TokenPattern Text

variable {options : GrammarOptions} {before before' : Option Char} {text : List Char}
  {s : Segment} {kind : TokenKind} {w rest rest' : List Char}

/-! ### Surroundings -/

theorem not_contains_of_space {set : CharSet} (hset : set.inAscii = true)
    (h : ∀ n < 128,
      (!set.contains (Char.ofNat n) || !Unicode.isSpace (Char.ofNat n)) = true) {c : Char}
    (hc : Unicode.isSpace c = true) : set.contains c = false := by
  rw [Bool.eq_false_iff]
  intro hmem
  have hspace := CharSet.forall_mem (p := fun c => !Unicode.isSpace c) hset h hmem
  simp [hc] at hspace

/-- What can begin right behind an operand: neither does a decimal numeral go on with it, nor is it
taken as the flags of a regular expression. -/
def follows : List Char → Bool
  | [] => false
  | c :: w => !numeralPart.contains c &&
      (!regexFlags.contains c || w.head?.any fun d => Unicode.isWord d && !regexFlags.contains d)

theorem follows_of_follower {text : String} (h : text ∈ followers options) :
    follows text.toList = true := by
  have hall : ∀ text ∈ allFollowers, follows text.toList = true := by decide +kernel
  exact hall text (followers_subset h)

theorem endsNumeral_of_follows {v : List Char} (h : follows v = true) (r : List Char) :
    EndsNumeral (v ++ r) := by
  rcases v with _ | ⟨c, v⟩
  · exact absurd h (by decide)
  · intro d hd
    obtain rfl := Option.some.inj hd
    simpa using (Bool.and_eq_true_iff.mp h).1

theorem bare_of_follows {v : List Char} (h : follows v = true) (r : List Char) : Bare (v ++ r) := by
  rcases v with _ | ⟨c, v⟩
  · exact absurd h (by decide)
  intro flags rest' htext hflags hne hedge
  obtain ⟨c', flags, rfl⟩ := List.exists_cons_of_ne_nil hne
  obtain ⟨rfl, htail⟩ := List.cons.inj htext
  have hc := hflags c List.mem_cons_self
  have hsecond : v.head?.any (fun d => Unicode.isWord d && !regexFlags.contains d) = true := by
    simpa [hc] using (Bool.and_eq_true_iff.mp h).2
  obtain ⟨d, hd, hword⟩ := (Option.any_eq_true _ _).mp hsecond
  obtain ⟨v, rfl⟩ := List.head?_eq_some_iff.mp hd
  rw [Bool.and_eq_true, Bool.not_eq_true'] at hword
  rcases flags with _ | ⟨d', flags⟩
  · obtain rfl : d :: (v ++ r) = rest' := htail
    simp [Edge, isWord_of_regexFlags hc, hword.1] at hedge
  · obtain ⟨rfl, -⟩ := List.cons.inj htail
    have hd' := hflags d (List.mem_cons_of_mem c List.mem_cons_self)
    rw [hword.2] at hd'
    exact Bool.noConfusion hd'

/-- How what stands behind a segment can be replaced. -/
inductive Meets (kind : TokenKind) (w : List Char) : List Char → List Char → Prop
  /-- With nothing or white space, unless there was a word next to a point at the segment's end. -/
  | opened (rest rest' : List Char) (hopen : ∀ c ∈ rest'.head?, Unicode.isSpace c = true)
    (hpoint : w.getLast? = some '.' → rest.head?.any Unicode.isWord = false) :
    Meets kind w rest rest'
  /-- With what begins with the same text. -/
  | shared (v r r' : List Char) (hne : v ≠ []) (hfollows : kind ≠ .verbatim → follows v = true) :
    Meets kind w (v ++ r) (v ++ r')

/-- How what stands in front of a segment can be replaced. -/
def Fronts (w : List Char) (before before' : Option Char) : Prop :=
  before'.any Unicode.isWord = before.any Unicode.isWord ∨
    before'.any Unicode.isWord = false ∧ w.head? ≠ some '.'

theorem Fronts.not_word (h : Fronts w before before')
    (hbefore : before.any Unicode.isWord = false) : before'.any Unicode.isWord = false :=
  h.elim (fun heq => heq.trans hbefore) And.left

theorem Fronts.edge (h : Fronts w before before') (hne : w ≠ [])
    (hhead : ∀ c ∈ w.head?, Unicode.isWord c = true ∨ c = '.') (hedge : Edge before (w ++ rest)) :
    Edge before' (w ++ rest') := by
  obtain ⟨c, w, rfl⟩ := List.exists_cons_of_ne_nil hne
  rcases h with heq | ⟨hbefore, hpoint⟩
  · rwa [Edge, heq]
  · refine edge_of_word hbefore ?_
    rcases hhead c rfl with hc | rfl
    · exact hc
    · exact absurd rfl hpoint

/-- What is no white space stood there before. -/
theorem Meets.head (h : Meets kind w rest rest') {c : Char} (hc : rest'.head? = some c)
    (hspace : Unicode.isSpace c = false) : rest.head? = some c := by
  cases h with
  | opened _ _ hopen =>
    rw [hopen c hc] at hspace
    exact Bool.noConfusion hspace
  | shared v r r' hne =>
    obtain ⟨d, v, rfl⟩ := List.exists_cons_of_ne_nil hne
    exact hc

theorem Meets.not_word (h : Meets kind w rest rest')
    (hrest : rest.head?.any Unicode.isWord = false) : rest'.head?.any Unicode.isWord = false := by
  refine not_any_of_forall fun c hc => ?_
  rcases hspace : Unicode.isSpace c with _ | _
  · rw [h.head hc hspace] at hrest
    exact hrest
  · exact Unicode.isWord_of_isSpace hspace

theorem Meets.edge (h : Meets kind w rest rest')
    (hlast : ∀ c ∈ w.getLast?, Unicode.isWord c = true ∨ c = '.')
    (hne : w ≠ []) (hedge : Edge w.getLast? rest) : Edge w.getLast? rest' := by
  have hc : w.getLast? = some (w.getLast hne) := List.getLast?_eq_some_getLast hne
  rcases hlast _ hc with hword | hpoint
  · have hw : w.getLast?.any Unicode.isWord = true := by rw [hc]; exact hword
    exact edge_of_last_word (h.not_word (not_word_of_last_edge hedge hw)) hw
  · cases h with
    | opened _ _ _ hopen =>
      rw [Edge, hopen (by rw [hc, hpoint]), hc, hpoint] at hedge
      exact absurd hedge (by decide)
    | shared v r r' hv =>
      obtain ⟨d, v, rfl⟩ := List.exists_cons_of_ne_nil hv
      exact hedge

theorem Meets.endsNumeral (h : Meets kind w rest rest') (hkind : kind ≠ .verbatim) :
    EndsNumeral rest' := by
  cases h with
  | opened _ _ hopen =>
    exact fun c hc => not_contains_of_space rfl (by decide +kernel) (hopen c hc)
  | shared v r r' _ hfollows => exact endsNumeral_of_follows (hfollows hkind) r'

theorem Meets.bare (h : Meets kind w rest rest') (hkind : kind ≠ .verbatim) : Bare rest' := by
  cases h with
  | opened _ _ hopen =>
    exact Bare.of_not_word (not_any_of_forall fun c hc => Unicode.isWord_of_isSpace (hopen c hc))
  | shared v r r' _ hfollows => exact bare_of_follows (hfollows hkind) r'

/-! ### Operands -/

/-- Groups that are the same, but that those of a regular expression without flags can have an
empty one for them. -/
def SameGroups (captures captures' : List (Option (List Char))) : Prop :=
  captures' = captures ∨ ∃ body flags flags', (flags = none ∨ flags = some []) ∧
    (flags' = none ∨ flags' = some []) ∧ captures = [some body, flags] ∧
    captures' = [some body, flags']

/-- The segment is taken in other surroundings. -/
def Again (options : GrammarOptions) (s : Segment) (before' : Option Char) (rest' : List Char) :
    Prop :=
  ∃ captures', (lexer options).segment? before' (s.text ++ rest') =
    some ⟨s.kind, s.text, captures', rest'⟩ ∧ SameGroups s.captures captures'

section Operands

variable (h : (lexer options).segment? before text = some s)
  (hfront : Fronts s.text before before') (hmeets : Meets s.kind s.text s.rest rest')

include h hfront hmeets

theorem number_again (hk : s.kind = .number) : Again options s before' rest' := by
  obtain ⟨hw, hbefore, hbehind, hcaptures⟩ := number_segment h hk
  obtain ⟨⟨c, cs, hc, hhead⟩, d, hd, hlast⟩ := ends_of_numeral hw
  have hne : s.text ≠ [] := Classifier.ne_nil_of_segment h
  rw [Classifier.whole_of_segment h] at hbefore
  refine ⟨s.captures, ?_, Or.inl rfl⟩
  rw [hk, hcaptures]
  refine number_taken hw (hfront.edge hne (fun c' hc' => ?_) hbefore)
    (hmeets.edge (fun d' hd' => ?_) hne hbehind) (hmeets.endsNumeral (by rw [hk]; decide))
  · obtain rfl : c = c' := by simpa [hc] using hc'
    exact hhead
  · obtain rfl : d = d' := by simpa [hd] using hd'
    exact hlast

omit hfront in
theorem regex_again (hk : s.kind = .regex) : Again options s before' rest' := by
  have hr := regexLiterals_of_segment h hk
  obtain ⟨body, flags, rest, -, hne, hbody, hflags, hs⟩ := regex_segment ((segment_of_kind h).1 hk)
  rw [hk] at hmeets
  have hbare := hmeets.bare (by decide)
  by_cases hempty : flags = []
  · subst hempty
    obtain ⟨captures, hcaptures, rfl⟩ : ∃ captures, (captures = none ∨ captures = some []) ∧
        s = ⟨.regex, '/' :: (body ++ ['/']), [some body, captures], rest⟩ := by
      rcases hs with ⟨-, hs⟩ | ⟨-, hs⟩
      · exact ⟨none, Or.inl rfl, hs⟩
      · exact ⟨some [], Or.inr rfl, hs⟩
    obtain ⟨captures', hcaptures', -, htaken⟩ := regex_taken regex before' hbare hne hbody
    refine ⟨[some body, captures'], ?_,
      Or.inr ⟨body, captures, captures', hcaptures, hcaptures', rfl, rfl⟩⟩
    have hagain := lexer_regex hr hne hbody htaken
    simpa using hagain
  · obtain ⟨hedge, rfl⟩ : Edge (flags.getLast?.or (some '/')) rest ∧
        s = ⟨.regex, '/' :: (body ++ '/' :: flags), [some body, some flags], rest⟩ :=
      hs.resolve_left fun hnone => hempty hnone.1
    have hlast : flags.getLast?.any Unicode.isWord = true := by
      rw [List.getLast?_eq_some_getLast hempty]
      exact isWord_of_regexFlags (hflags _ (List.getLast_mem hempty))
    rw [getLast?_or hempty] at hedge
    have hrest' := hmeets.not_word (not_word_of_last_edge hedge hlast)
    refine ⟨[some body, some flags], ?_, Or.inl rfl⟩
    have hagain : (lexer options).segment? before' ('/' :: (body ++ '/' :: (flags ++ rest'))) = _ :=
      lexer_regex hr hne hbody (regex_taken_with_flags hrest' hne hbody hempty hflags)
    simpa using hagain

omit hfront in
theorem identifier_again (hjoined : Joined before text) (hk : s.kind = .identifier)
    (hrest : ∀ c ∈ s.rest.head?, Unicode.isAscii c = true ∨ Unicode.isSpace c = true) :
    Again options s before' rest' := by
  have hword := not_word_of_identifier h hk hrest
  obtain ⟨c, w, rest, -, -, -, hstop, hs⟩ := identifier_segment_iff.mp ((segment_of_kind h).2.2 hk)
  have hstop' : ∀ d ∈ rest'.head?, identifierPart.contains d = false := by
    intro d hd
    rcases hspace : Unicode.isSpace d with _ | _
    · have hd' := hmeets.head hd hspace
      rw [hs] at hd'
      exact hstop d hd'
    · exact not_contains_of_space rfl (by decide +kernel) hspace
  refine ⟨s.captures, ?_, Or.inl rfl⟩
  rw [hk]
  exact identifier_taken hjoined h hk hword hstop' (hmeets.not_word hword)

theorem word_again (hk : s.kind = .null ∨ s.kind = .boolean) : Again options s before' rest' := by
  obtain ⟨hbefore, hrest⟩ := not_word_of_literal h hk
  refine ⟨s.captures, ?_, Or.inl rfl⟩
  rcases hk with hk | hk
  · rw [hk]
    exact null_taken h hk (hfront.not_word hbefore) (hmeets.not_word hrest)
  · rw [hk]
    exact boolean_taken h hk (hfront.not_word hbefore) (hmeets.not_word hrest)

end Operands

/-! ### Verbatim tokens -/

theorem not_space_of_sign {sign : String} (h : sign ∈ longSigns) {c : Char}
    (hc : c ∈ sign.toList) : Unicode.isSpace c = false := by
  have hall : ∀ sign ∈ longSigns, (sign.toList.all fun c => !Unicode.isSpace c) = true := by
    decide +kernel
  simpa using List.all_eq_true.mp (hall sign h) c hc

theorem word_not_sign {v sign : String} (hv : v ∈ verbatimWords) (hsign : sign ∈ longSigns) :
    v.toList.head? ≠ sign.toList.head? := by
  have hall : ∀ v ∈ verbatimWords, ∀ sign ∈ longSigns, v.toList.head? ≠ sign.toList.head? := by
    decide
  exact hall v hv sign hsign

/-- Where a word is read, there is no sign. -/
theorem head_of_word {v : String} (hv : v ∈ verbatimWords) {r : List Char}
    (h : w ++ rest' = v.toList ++ r) (hne : w ≠ []) : (∀ sign ∈ longSigns, w ≠ sign.toList) ∧
      ∀ c, w = [c] → singleSigns.contains c = false := by
  have hsingle : ∀ v ∈ verbatimWords, v.toList.head?.any singleSigns.contains = false := by
    decide +kernel
  have hhead : w.head? = v.toList.head? := by
    have hheads := congrArg List.head? h
    rwa [List.head?_append_of_ne_nil _ hne,
      List.head?_append_of_ne_nil _ (keywords v (List.mem_append_right _ hv)).1] at hheads
  refine ⟨fun sign hsign hw => word_not_sign hv hsign (by rw [← hhead, hw]), ?_⟩
  rintro c rfl
  have hc := hsingle v hv
  rw [← hhead] at hc
  simpa using hc

/-- Where a longer sign goes on behind a verbatim token, one that is longer by a character is tried
in front of it. -/
theorem longer_sign_in_front {front back : List Regex} {r : Regex}
    (hforms : verbatims = front ++ r :: back) (hne : w ≠ [])
    (hread : Reads r (spot before (w ++ rest)) ((spot before (w ++ rest)).past w rest))
    (hpoint : w ≠ ['.']) {sign : String} (hsign : sign ∈ longSigns)
    (hmem : phrase (spelled sign) ∈ front) {d : Char} {a : List Char}
    (hlonger : sign.toList = w ++ d :: a) :
    ∃ u ∈ longSigns, u.toList = w ++ [d] ∧ phrase (spelled u) ∈ front := by
  rcases reads_verbatim_past (by rw [hforms]; simp) hne hread with ⟨sign', hsign', -, rfl⟩ |
    ⟨u, hu, -, rfl, -⟩ | ⟨rfl, c, rfl, -⟩
  · have hlength : ∀ s ∈ longSigns, ∀ v ∈ longSigns, s.toList <+: v.toList →
        v.toList.length ≤ s.toList.length + 1 := by decide
    have ha := hlength sign' hsign' sign hsign ⟨d :: a, hlonger.symm⟩
    rw [hlonger, List.length_append, List.length_cons] at ha
    obtain rfl : a = [] := List.length_eq_zero_iff.mp (by omega)
    exact ⟨sign, hsign, hlonger, hmem⟩
  · have hhead := congrArg List.head? hlonger
    rw [List.head?_append_of_ne_nil _ hne] at hhead
    exact absurd hhead.symm (word_not_sign hu hsign)
  · have hpair : ∀ v ∈ longSigns, v.toList.head? = some '.' ∨
        ∃ u ∈ longSigns, u.toList = v.toList.take 2 := by decide
    rcases hpair sign hsign with hdot | ⟨u, hu, hutext⟩
    · rw [hlonger] at hdot
      obtain rfl := Option.some.inj hdot
      exact absurd rfl hpoint
    · rw [hlonger] at hutext
      refine ⟨u, hu, hutext, ?_⟩
      rw [front_of_singleForm hforms]
      exact mem_longForms.mpr (Or.inl ⟨u, hu, rfl⟩)

section Verbatim

variable (hmeets : Meets .verbatim w rest rest') (hpoint : w ≠ ['.'])

include hmeets

/-- The alternatives that read nothing still read nothing, if the segment is a sign. -/
theorem no_sign_again {front : List Regex} {sign : String} (hsign : sign ∈ longSigns)
    (hmem : phrase (spelled sign) ∈ front)
    (hnone : ∀ q ∈ front, ∀ t, ¬ Reads q (spot before (w ++ rest)) t)
    (hlong : ∀ d a, sign.toList = w ++ d :: a →
      ∃ u ∈ longSigns, u.toList = w ++ [d] ∧ phrase (spelled u) ∈ front) :
    ∀ t, ¬ Reads (phrase (spelled sign)) (spot before' (w ++ rest')) t := by
  intro t hread
  obtain ⟨r, htext, -⟩ := reads_phrase_spelled.mp hread
  have htext' : w ++ rest' = sign.toList ++ r := htext
  rcases List.append_eq_append_iff.mp htext' with ⟨a, hsignText, hrest'⟩ | ⟨a, rfl, -⟩
  · rcases a with _ | ⟨d, a⟩
    · rw [List.append_nil] at hsignText
      exact hnone _ hmem _ (reads_phrase_spelled.mpr ⟨rest, by rw [hsignText]; rfl, rfl⟩)
    · cases hmeets with
      | opened _ _ hopen =>
        have hspace := hopen d (by rw [hrest']; rfl)
        rw [not_space_of_sign hsign (by rw [hsignText]; simp)] at hspace
        exact Bool.noConfusion hspace
      | shared v r₁ r₂ hne =>
        obtain ⟨d', v, rfl⟩ := List.exists_cons_of_ne_nil hne
        obtain ⟨rfl, -⟩ := List.cons.inj hrest'
        obtain ⟨u, hu, hutext, humem⟩ := hlong _ a hsignText
        exact hnone _ humem _ (reads_phrase_spelled.mpr
          ⟨v ++ r₁, by rw [hutext]; simp [spot], rfl⟩)
  · exact hnone _ hmem _ (reads_phrase_spelled.mpr
      ⟨a ++ rest, by simp [spot], rfl⟩)

theorem no_word_again {front : List Regex} {v : String} (hv : v ∈ verbatimWords)
    (hmem : word v ∈ front) (hnone : ∀ q ∈ front, ∀ t, ¬ Reads q (spot before (w ++ rest)) t)
    {u : String} (hu : u ∈ verbatimWords) (hw : w = u.toList) (hbefore : Edge before (w ++ rest))
    (hbehind : Edge w.getLast? rest) :
    ∀ t, ¬ Reads (word v) (spot before' (w ++ rest')) t := by
  intro t hread
  obtain ⟨-, r, htext, hback, -⟩ := reads_word.mp hread
  have htext' : w ++ rest' = v.toList ++ r := htext
  obtain ⟨huNe, huChars⟩ := keywords u (List.mem_append_right _ hu)
  obtain ⟨hvNe, hvChars⟩ := keywords v (List.mem_append_right _ hv)
  have hlast : ∀ {x : List Char} (hx : x ≠ []), (∀ c ∈ x, Unicode.isAscii c = true ∧
      Unicode.isWord c = true) → x.getLast?.any Unicode.isWord = true := by
    intro x hx hchars
    rw [List.getLast?_eq_some_getLast hx]
    exact (hchars _ (List.getLast_mem hx)).2
  have hrest' := hmeets.not_word
    (not_word_of_last_edge hbehind (hlast (hw ▸ huNe) (hw ▸ huChars)))
  rw [getLast?_or hvNe] at hback
  have hr := not_word_of_last_edge hback (hlast hvNe hvChars)
  rcases List.append_eq_append_iff.mp htext' with ⟨a, hvText, rfl⟩ | ⟨a, hwText, rfl⟩
  · rcases a with _ | ⟨d, a⟩
    · rw [List.append_nil] at hvText
      refine hnone _ hmem _ (reads_word.mpr ⟨hbefore, rest, by rw [hvText]; rfl, ?_, rfl⟩)
      rw [getLast?_or hvNe, hvText]
      exact hbehind
    · have hd := (hvChars d (by rw [hvText]; simp)).2
      simp [hd] at hrest'
  · rcases a with _ | ⟨d, a⟩
    · rw [List.append_nil] at hwText
      refine hnone _ hmem _ (reads_word.mpr ⟨hbefore, rest, by rw [← hwText]; rfl, ?_, rfl⟩)
      rw [getLast?_or hvNe, ← hwText]
      exact hbehind
    · have hd := (huChars d (by rw [← hw, hwText]; simp)).2
      simp [hd] at hr

theorem verbatim_reads_again (hfront : Fronts w before before') {r : Regex} (hr : r ∈ verbatims)
    (hne : w ≠ [])
    (hread : Reads r (spot before (w ++ rest)) ((spot before (w ++ rest)).past w rest)) :
    Reads r (spot before' (w ++ rest')) ((spot before' (w ++ rest')).past w rest') := by
  rcases reads_verbatim_past hr hne hread with ⟨sign, hsign, rfl, rfl⟩ |
    ⟨u, hu, rfl, rfl, hbefore, hbehind⟩ | ⟨rfl, c, rfl, hc⟩
  · exact reads_phrase_spelled.mpr ⟨rest', rfl, rfl⟩
  · obtain ⟨-, hchars⟩ := keywords u (List.mem_append_right _ hu)
    refine reads_word.mpr ⟨hfront.edge hne (fun c hc => ?_) hbefore, rest', rfl, ?_, rfl⟩
    · exact Or.inl (hchars c (List.mem_of_head? hc)).2
    · rw [getLast?_or hne]
      exact hmeets.edge (fun c hc => Or.inl (hchars c (List.mem_of_getLast? hc)).2) hne hbehind
  · exact ⟨_, ⟨c, rest', rfl, hc, rfl⟩, rfl⟩

include hpoint in
/-- The pattern for verbatim tokens takes the same again. -/
theorem verbatimForm_again (hfront : Fronts w before before')
    (h : TokenPattern.segment? ⟨.verbatim, verbatim, verbatimForm⟩ before (w ++ rest) =
      some ⟨.verbatim, w, [some w], rest⟩) :
    TokenPattern.segment? ⟨.verbatim, verbatim, verbatimForm⟩ before' (w ++ rest') =
      some ⟨.verbatim, w, [some w], rest'⟩ := by
  obtain ⟨front, r, back, w, rest, hforms, -, hne, hnone, hread, hs⟩ := verbatim_segment_iff.mp h
  obtain ⟨-, rfl, -, rfl⟩ := Segment.mk.inj hs
  have hr : r ∈ verbatims := by
    rw [hforms]
    simp
  refine verbatim_segment_iff.mpr ⟨front, r, back, _, rest', hforms, rfl, hne, fun q hq => ?_,
    verbatim_reads_again hmeets hfront hr hne hread, rfl⟩
  rcases mem_verbatims.mp (show q ∈ verbatims by rw [hforms]; simp [hq]) with
    ⟨sign, hsign, rfl⟩ | ⟨v, hv, rfl⟩ | rfl
  · exact no_sign_again hmeets hsign hq hnone fun d a hlonger =>
      longer_sign_in_front hforms hne hread hpoint hsign hq hlonger
  · rcases reads_verbatim_past hr hne hread with ⟨sign, hsign, -, hw⟩ |
      ⟨u, hu, -, hw, hbefore, hbehind⟩ | ⟨-, c, hw, hc⟩
    · intro t hreads
      obtain ⟨-, r, htext, -⟩ := reads_word.mp hreads
      exact (head_of_word hv htext hne).1 sign hsign hw
    · exact no_word_again hmeets hv hq hnone hu hw hbefore hbehind
    · intro t hreads
      obtain ⟨-, r, htext, -⟩ := reads_word.mp hreads
      rw [(head_of_word hv htext hne).2 c hw] at hc
      exact Bool.noConfusion hc
  · rintro t ⟨m, hchar, -⟩
    obtain ⟨c, r, htext, hc, -⟩ := reads_char hchar
    obtain ⟨d, w, rfl⟩ := List.exists_cons_of_ne_nil hne
    obtain ⟨rfl, -⟩ := List.cons.inj (show d :: (w ++ rest') = c :: r from htext)
    exact hnone _ hq _ ⟨_, ⟨d, w ++ rest, rfl, hc, rfl⟩, rfl⟩

end Verbatim

/-- Nothing else begins as the verbatim tokens of a program do, but a comment or a regular
expression as a slash, and a word as another one. -/
theorem heads_of_verbatimTexts : ∀ text ∈ allVerbatimTexts, text = "/" ∨
    text.toList.head?.any (fun c =>
      !regexForm.body.heads.contains c && (text = "typeof" ||
        (firstForms ++ secondForms).all fun q => !q.pattern.body.heads.contains c)) = true := by
  decide +kernel

/-- Only one of the first patterns can begin with the character, and it reads nothing. -/
theorem none_of_other_heads (front : List TokenPattern) {back : List TokenPattern}
    {p : TokenPattern} (c : Char) {cs : List Char}
    (hforms : firstForms ++ secondForms = front ++ p :: back)
    (hheads : ((front ++ back).all fun q => !q.pattern.body.heads.contains c) = true)
    (hp : p.segment? before (c :: cs) = none) :
    ∀ q ∈ firstForms ++ secondForms, q.segment? before (c :: cs) = none := by
  intro q hq
  rw [hforms, List.mem_append, List.mem_cons] at hq
  rcases hq with hq | rfl | hq
  · exact none_of_heads hheads q (List.mem_append_left back hq)
  · exact hp
  · exact none_of_heads hheads q (List.mem_append_right front hq)

theorem boolean_none (rest : List Char) : TokenPattern.segment?
    ⟨.boolean, boolean, wordsForm ["true", "false"]⟩ before ('t' :: 'y' :: rest) = none := by
  rcases hs : TokenPattern.segment? ⟨.boolean, boolean, wordsForm ["true", "false"]⟩ before
    ('t' :: 'y' :: rest) with _ | s
  · rfl
  obtain ⟨v, hv, r, htext, -⟩ := word_segment (by decide) hs
  obtain rfl | rfl : v = "true" ∨ v = "false" := by simpa using hv
  all_goals simp at htext

/-- A slash that is no comment is none in other surroundings. -/
theorem comment_none_again (hmeets : Meets kind ['/'] rest rest')
    (h : TokenPattern.segment? ⟨.ignore, comment, commentForm⟩ before ('/' :: rest) = none) :
    TokenPattern.segment? ⟨.ignore, comment, commentForm⟩ before' ('/' :: rest') = none := by
  rcases hs : TokenPattern.segment? ⟨.ignore, comment, commentForm⟩ before' ('/' :: rest')
    with _ | s
  · rfl
  exfalso
  obtain ⟨w, r, htext, -⟩ := comment_segment_iff.mp hs
  obtain rfl : rest' = '/' :: (w ++ r) := (List.cons.inj htext).2
  obtain ⟨tail, rfl⟩ := List.head?_eq_some_iff.mp (hmeets.head rfl (by decide))
  obtain ⟨line, behind, rfl, hline, hbehind⟩ := exists_line tail
  have htaken : TokenPattern.segment? ⟨.ignore, comment, commentForm⟩ before
      ('/' :: '/' :: (line ++ behind)) = some _ :=
    comment_segment_iff.mpr ⟨line, behind, rfl, hline, hbehind, rfl⟩
  rw [h] at htaken
  simp at htaken

theorem verbatim_again (h : (lexer options).segment? before text = some s)
    (hk : s.kind = .verbatim) (htext : String.ofList s.text ∈ verbatimTexts options)
    (hslash : .divide ∈ options.precedence.flatten → options.regexLiterals = false)
    (hfront : Fronts s.text before before') (hmeets : Meets s.kind s.text s.rest rest') :
    Again options s before' rest' := by
  have hwhole := Classifier.whole_of_segment h
  have hsegment := (segment_of_kind h).2.1 hk
  have hignored : ∀ q ∈ [⟨.ignore, blanks, blanksForm⟩, ⟨.ignore, comment, commentForm⟩],
      TokenPattern.segment? q before text = none := none_of_front rfl h (by rw [hk]; decide)
  have hcomment := hignored ⟨.ignore, comment, commentForm⟩ (by simp)
  obtain ⟨w, rest, -, rfl, -⟩ := verbatim_segment hsegment
  obtain ⟨word, rfl⟩ : ∃ word : String, w = word.toList := ⟨_, String.toList_ofList.symm⟩
  obtain rfl : text = word.toList ++ rest := hwhole
  have hlisted : word ∈ verbatimTexts options := by rwa [String.ofList_toList] at htext
  have hmeets' : Meets .verbatim word.toList rest rest' := hmeets
  have hpoint : word.toList ≠ ['.'] := by
    have hall : ∀ text ∈ allVerbatimTexts, text.toList ≠ ['.'] := by decide
    exact hall word (verbatimTexts_subset hlisted)
  have hagain := verbatimForm_again hmeets' hpoint hfront hsegment
  rcases heads_of_verbatimTexts word (verbatimTexts_subset hlisted) with rfl | hheads
  · refine ⟨_, verbatim_of_none (none_of_other_heads [⟨.ignore, blanks, blanksForm⟩] '/' rfl
      (by decide) (comment_none_again hmeets' hcomment)) (fun hr => ?_) hagain, Or.inl rfl⟩
    rw [hslash (divide_of_slash hlisted)] at hr
    exact Bool.noConfusion hr
  · obtain ⟨c, hc, hnone⟩ := (Option.any_eq_true _ _).mp hheads
    obtain ⟨cs, hcs⟩ := List.head?_eq_some_iff.mp hc
    rw [Bool.and_eq_true, Bool.or_eq_true, decide_eq_true_eq, Bool.not_eq_true'] at hnone
    refine ⟨_, verbatim_of_none ?_ (fun _ => ?_) hagain, Or.inl rfl⟩
    · rcases hnone.2 with rfl | hall
      · exact none_of_other_heads (firstForms ++ secondForms.take 3) 't' rfl (by decide)
          (boolean_none _)
      · rw [hcs] at hagain ⊢
        exact none_of_heads hall
    · rw [hcs]
      exact segment?_eq_none hnone.1

/-! ### All segments -/

/-- A segment of a program is taken again in other surroundings. -/
theorem segment_again (h : (lexer options).segment? before text = some s) (hk : s.kind ≠ .ignore)
    (hjoined : Joined before text)
    (hrest : ∀ c ∈ s.rest.head?, Unicode.isAscii c = true ∨ Unicode.isSpace c = true)
    (htext : s.kind = .verbatim → String.ofList s.text ∈ verbatimTexts options)
    (hslash : .divide ∈ options.precedence.flatten → options.regexLiterals = false)
    (hfront : Fronts s.text before before') (hmeets : Meets s.kind s.text s.rest rest') :
    Again options s before' rest' := by
  obtain ⟨p, hp, hs⟩ := Classifier.exists_pattern h
  have hkind := kind_of_segment hs
  cases hcase : s.kind with
  | ignore => exact absurd hcase hk
  | string => exact ⟨s.captures, hcase ▸ string_taken h hcase before' rest', Or.inl rfl⟩
  | number => exact number_again h hfront hmeets hcase
  | null => exact word_again h hfront hmeets (Or.inl hcase)
  | boolean => exact word_again h hfront hmeets (Or.inr hcase)
  | regex => exact regex_again h hmeets hcase
  | verbatim => exact verbatim_again h hcase (htext hcase) hslash hfront hmeets
  | identifier => exact identifier_again h hmeets hjoined hcase hrest
  | name | punctuator =>
    rw [hkind] at hcase
    rcases mem_patternForms hp with
      rfl | rfl | rfl | rfl | rfl | rfl | rfl | rfl | rfl | rfl | rfl <;>
      exact absurd hcase (by decide)

end Grammar

end Precedence
