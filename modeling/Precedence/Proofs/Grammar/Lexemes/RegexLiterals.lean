import Precedence.Proofs.Grammar.Segments

/-!
# Segments of regular expressions

What the pattern for regular expressions takes (`regex_segment`), and that it takes it again where
nothing behind it is taken as flags (`regex_taken`) and where no word goes on behind it
(`regex_printed`). There the flags are a group of their own unless there are none.
-/

namespace Precedence

namespace Grammar

open Regex TokenPattern

variable {before : Option Char} {text : List Char} {s : Segment}

def regexBody : CharSet :=
  noneOf [.single '/']

theorem contains_regexBody {c : Char} : regexBody.contains c = true ↔ c ≠ '/' := by
  simp only [regexBody, contains_noneOf, List.any_cons, List.any_nil, CharSet.contains_single,
    Bool.or_false, Bool.not_eq_true', beq_eq_false_iff_ne]
  exact ⟨Ne.symm, Ne.symm⟩

def regexFlags : CharSet :=
  anyOf [.single 'g', .single 'i', .single 'm', .single 'u', .single 'y']

/-- The flags of a regular expression with their word boundary, as the second group. -/
def flagsForm : Regex :=
  .group 2 (phrase [many regexFlags, boundary])

theorem reads_flags {s t : Spot} (h : Reads (maybe flagsForm) s t) :
    t = s ∨ ∃ flags rest, s.rest = flags ++ rest ∧ (∀ c ∈ flags, regexFlags.contains c = true) ∧
      Edge (flags.getLast?.or s.before) rest ∧ t = (s.past flags rest).close 2 s.used := by
  rcases reads_maybe h with rfl | ⟨m, ⟨m₁, h₁, m₂, ⟨hedge, rfl⟩, hm⟩, rfl⟩
  · exact Or.inl rfl
  · obtain ⟨flags, rest, hs, hflags, rfl⟩ := reads_many h₁
    obtain rfl : m = s.past flags rest := hm
    exact Or.inr ⟨flags, rest, hs, hflags, hedge, rfl⟩

/-- The groups of a regular expression, without flags and with them. -/
theorem regex_captures (body flags rest : List Char) :
    capturesOf 2 ('/' :: (body ++ '/' :: (flags ++ rest))) [(1, 1, 1 + body.length)] =
        [some body, none] ∧
      capturesOf 2 ('/' :: (body ++ '/' :: (flags ++ rest)))
          [(2, 1 + body.length + 1, 1 + body.length + 1 + flags.length), (1, 1, 1 + body.length)] =
        [some body, some flags] := by
  have hbody : (('/' :: (body ++ '/' :: (flags ++ rest))).take (1 + body.length)).drop 1 = body :=
    drop_take_append ['/'] body _
  have hflags : (('/' :: (body ++ '/' :: (flags ++ rest))).take
      (1 + body.length + 1 + flags.length)).drop (1 + body.length + 1) = flags := by
    have h := drop_take_append ('/' :: (body ++ ['/'])) flags rest
    rwa [show ('/' :: (body ++ ['/'])).length = 1 + body.length + 1 by simp; omega,
      show '/' :: (body ++ ['/']) ++ (flags ++ rest) = '/' :: (body ++ '/' :: (flags ++ rest)) by
        simp] at h
  constructor
  · show [some (List.drop _ (List.take _ _)), none] = _
    rw [hbody]
  · show [some (List.drop _ (List.take _ _)), some (List.drop _ (List.take _ _))] = _
    rw [hbody, hflags]

theorem regex_segment_of_find {source : String} (body flags rest : List Char) {t : Spot}
    {captures : List (Option (List Char))}
    (hfind : regexForm.body.find some (spot before ('/' :: (body ++ '/' :: (flags ++ rest)))) =
      some t)
    (hused : t.used = 1 + body.length + 1 + flags.length)
    (hcaptures : capturesOf 2 ('/' :: (body ++ '/' :: (flags ++ rest))) t.groups = captures) :
    TokenPattern.segment? ⟨.regex, source, regexForm⟩ before
        ('/' :: (body ++ '/' :: (flags ++ rest))) =
      some ⟨.regex, '/' :: (body ++ '/' :: flags), captures, rest⟩ := by
  have htext : '/' :: (body ++ '/' :: (flags ++ rest)) = '/' :: (body ++ '/' :: flags) ++ rest := by
    simp
  rw [htext] at hfind hcaptures ⊢
  rw [← hcaptures]
  exact segment?_of_find (List.cons_ne_nil _ _) hfind (by rw [hused]; simp; omega)

/-- The segment of a regular expression. Its flags are a group of their own if there is a word
boundary behind them. -/
theorem regex_segment {source : String}
    (h : TokenPattern.segment? ⟨.regex, source, regexForm⟩ before text = some s) :
    ∃ body flags rest, text = '/' :: (body ++ '/' :: (flags ++ rest)) ∧ body ≠ [] ∧
      (∀ c ∈ body, regexBody.contains c = true) ∧ (∀ c ∈ flags, regexFlags.contains c = true) ∧
      (flags = [] ∧ s = ⟨.regex, '/' :: (body ++ '/' :: flags), [some body, none], rest⟩ ∨
        Edge (flags.getLast?.or (some '/')) rest ∧
          s = ⟨.regex, '/' :: (body ++ '/' :: flags), [some body, some flags], rest⟩) := by
  obtain ⟨t, hfind, -, -⟩ := segment?_eq_some_iff.mp h
  obtain ⟨t', hread, ht⟩ := find_sound _ _ _ _ hfind
  obtain rfl := Option.some.inj ht
  obtain ⟨m₁, h₁, m₂, ⟨m, ⟨m', hm, hm'⟩, rfl⟩, m₃, h₃, m₄, h₄, ht⟩ := hread
  obtain rfl : t' = m₄ := ht
  obtain rfl : m = m' := hm'
  obtain ⟨slash, rest₁, htext, hslash, rfl⟩ := reads_char h₁
  obtain ⟨body, rest₂, hne, hrest₁, hbody, rfl⟩ := reads_many1 hm
  obtain ⟨slash', rest₃, hrest₂, hslash', rfl⟩ := reads_char h₃
  obtain rfl : '/' = slash := by simpa using hslash
  obtain rfl : '/' = slash' := by simpa using hslash'
  obtain rfl : rest₁ = body ++ rest₂ := hrest₁
  obtain rfl : rest₂ = '/' :: rest₃ := hrest₂
  obtain rfl : text = '/' :: (body ++ '/' :: rest₃) := htext
  rcases reads_flags h₄ with ht | ⟨flags, rest, hrest₃, hflags, hedge, ht⟩
  · subst ht
    refine ⟨body, [], rest₃, rfl, hne, hbody, by simp,
      Or.inl ⟨rfl, Option.some.inj (h.symm.trans ?_)⟩⟩
    exact regex_segment_of_find body [] rest₃ hfind rfl (regex_captures body [] rest₃).1
  · obtain rfl : rest₃ = flags ++ rest := hrest₃
    subst ht
    refine ⟨body, flags, rest, rfl, hne, hbody, hflags,
      Or.inr ⟨hedge, Option.some.inj (h.symm.trans ?_)⟩⟩
    exact regex_segment_of_find body flags rest hfind rfl (regex_captures body flags rest).2

theorem isWord_of_regexFlags {c : Char} (h : regexFlags.contains c = true) :
    Text.Unicode.isWord c = true :=
  CharSet.forall_mem rfl (by decide +kernel) h

section Taken

variable {source : String} {body rest : List Char}

/-- Behind the second slash the flags are looked for. -/
theorem find_regexForm {k : Spot → Option Spot} (hne : body ≠ [])
    (hbody : ∀ c ∈ body, regexBody.contains c = true)
    (hk : (find (maybe flagsForm) k
      ⟨some '/', 1 + body.length + 1, rest, [(1, 1, 1 + body.length)]⟩).isSome) :
    find regexForm.body k (spot before ('/' :: (body ++ '/' :: rest))) =
      find (maybe flagsForm) k
        ⟨some '/', 1 + body.length + 1, rest, [(1, 1, 1 + body.length)]⟩ := by
  have hstop : ∀ c ∈ ('/' :: rest).head?, regexBody.contains c = false := by
    intro c hc
    obtain rfl := Option.some.inj hc
    decide
  have hslash : find (phrase [.char (.single '/'), maybe flagsForm]) k
      ⟨body.getLast?.or (some '/'), 1 + body.length, '/' :: rest, [(1, 1, 1 + body.length)]⟩ =
      find (maybe flagsForm) k
        ⟨some '/', 1 + body.length + 1, rest, [(1, 1, 1 + body.length)]⟩ := by
    rw [find_phrase_cons, find_char rfl (by decide)]
    rfl
  show find (phrase _) _ _ = _
  rw [find_phrase_cons, find_char rfl (by decide), find_phrase_cons, find_group, find_phrase_cons]
  refine (find_many1 rfl hbody hstop ?_ hne).trans hslash
  exact (congrArg Option.isSome hslash).trans hk

/-- What stands here is not taken as flags. -/
def Bare (rest : List Char) : Prop :=
  ∀ flags rest', rest = flags ++ rest' → (∀ c ∈ flags, regexFlags.contains c = true) →
    flags ≠ [] → ¬ Edge flags.getLast? rest'

theorem Bare.of_not_word (h : rest.head?.any Text.Unicode.isWord = false) : Bare rest := by
  rintro flags rest' rfl hflags hne -
  obtain ⟨c, flags, rfl⟩ := List.exists_cons_of_ne_nil hne
  have hc := isWord_of_regexFlags (hflags c List.mem_cons_self)
  exact absurd h (by simp [hc])

/-- Where no flags are taken, their group is empty if it takes part at all. -/
theorem find_bare_flags {s : Spot} (hrest : Bare s.rest) :
    find flagsForm some s = none ∨
      Edge s.before s.rest ∧ find flagsForm some s = some (s.close 2 s.used) := by
  rcases hf : find flagsForm some s with _ | x
  · exact Or.inl rfl
  obtain ⟨t, ⟨m, ⟨m₁, h₁, m₂, ⟨hedge, rfl⟩, hm⟩, rfl⟩, hx⟩ := find_sound _ _ _ _ hf
  obtain ⟨flags, rest', hs, hflags, rfl⟩ := reads_many h₁
  obtain rfl : m = s.past flags rest' := hm
  obtain rfl := Option.some.inj hx
  by_cases hne : flags = []
  · subst hne
    obtain rfl : s.rest = rest' := hs
    rw [s.past_nil] at hedge ⊢
    exact Or.inr ⟨hedge, rfl⟩
  · have hedge' : Edge flags.getLast? rest' := by
      rw [← getLast?_or hne s.before]
      exact hedge
    exact absurd hedge' (hrest flags rest' hs hflags hne)

/-- A regular expression without flags is taken where nothing behind it can be its flags. -/
theorem regex_taken (source : String) (before : Option Char) (hrest : Bare rest) (hne : body ≠ [])
    (hbody : ∀ c ∈ body, regexBody.contains c = true) : ∃ flags, (flags = none ∨ flags = some []) ∧
      (rest.head?.any Text.Unicode.isWord = false → flags = none) ∧
      TokenPattern.segment? ⟨.regex, source, regexForm⟩ before
          ('/' :: (body ++ '/' :: ([] ++ rest))) =
        some ⟨.regex, '/' :: (body ++ ['/']), [some body, flags], rest⟩ := by
  have hmaybe := find_maybe (k := some) (s := ⟨some '/', 1 + body.length + 1, rest,
    [(1, 1, 1 + body.length)]⟩) flagsForm
  rcases find_bare_flags (s := ⟨some '/', 1 + body.length + 1, rest,
    [(1, 1, 1 + body.length)]⟩) hrest with hflags | ⟨hedge, hflags⟩
  · rw [hflags, Option.none_or] at hmaybe
    refine ⟨none, Or.inl rfl, fun _ => rfl, ?_⟩
    exact regex_segment_of_find body [] rest
      ((find_regexForm hne hbody (Option.isSome_of_eq_some hmaybe)).trans hmaybe) rfl
      (regex_captures body [] rest).1
  · rw [hflags, Option.some_or] at hmaybe
    have hword : (false != rest.head?.any Text.Unicode.isWord) = true := hedge
    refine ⟨some [], Or.inr rfl, fun hnot => absurd hword (by rw [hnot]; decide), ?_⟩
    exact regex_segment_of_find body [] rest
      ((find_regexForm hne hbody (Option.isSome_of_eq_some hmaybe)).trans hmaybe) rfl
      (regex_captures body [] rest).2

/-- Flags are a group if no word goes on behind them. -/
theorem regex_taken_with_flags {flags : List Char}
    (hrest : rest.head?.any Text.Unicode.isWord = false) (hne : body ≠ [])
    (hbody : ∀ c ∈ body, regexBody.contains c = true) (hflagsNe : flags ≠ [])
    (hflags : ∀ c ∈ flags, regexFlags.contains c = true) :
    TokenPattern.segment? ⟨.regex, source, regexForm⟩ before
        ('/' :: (body ++ '/' :: (flags ++ rest))) =
      some ⟨.regex, '/' :: (body ++ '/' :: flags), [some body, some flags], rest⟩ := by
  have hback : Edge (flags.getLast?.or (some '/')) rest := by
    rw [Edge, hrest, List.getLast?_eq_some_getLast hflagsNe]
    simpa using isWord_of_regexFlags (hflags _ (List.getLast_mem hflagsNe))
  have hstop : ∀ c ∈ rest.head?, regexFlags.contains c = false := by
    intro c hc
    rw [Bool.eq_false_iff]
    intro hmem
    rw [Option.mem_def.mp hc] at hrest
    exact absurd hrest (by simp [isWord_of_regexFlags hmem])
  have hmaybe : find (maybe flagsForm) some
      ⟨some '/', 1 + body.length + 1, flags ++ rest, [(1, 1, 1 + body.length)]⟩ =
      some ⟨flags.getLast?.or (some '/'), 1 + body.length + 1 + flags.length, rest,
        [(2, 1 + body.length + 1, 1 + body.length + 1 + flags.length),
          (1, 1, 1 + body.length)]⟩ := by
    have hboundary : find (phrase [boundary])
        (fun t => some (t.close 2 (1 + body.length + 1)))
        ⟨flags.getLast?.or (some '/'), 1 + body.length + 1 + flags.length, rest,
          [(1, 1, 1 + body.length)]⟩ = some _ := find_boundary hback
    have hmany := find_many (s := ⟨some '/', 1 + body.length + 1, flags ++ rest,
      [(1, 1, 1 + body.length)]⟩) rfl hflags hstop (Option.isSome_of_eq_some hboundary)
    rw [find_maybe]
    exact congrArg (Option.or · _) (hmany.trans hboundary)
  refine regex_segment_of_find body flags rest
    ((find_regexForm hne hbody ?_).trans hmaybe) rfl (regex_captures body flags rest).2
  exact Option.isSome_of_eq_some hmaybe

/-- In front of no word the flags of a regular expression are a group if there are any. -/
theorem regex_printed {flags : List Char} (hrest : rest.head?.any Text.Unicode.isWord = false)
    (hne : body ≠ []) (hbody : ∀ c ∈ body, regexBody.contains c = true)
    (hflags : ∀ c ∈ flags, regexFlags.contains c = true) :
    TokenPattern.segment? ⟨.regex, source, regexForm⟩ before
        ('/' :: (body ++ '/' :: (flags ++ rest))) =
      some ⟨.regex, '/' :: (body ++ '/' :: flags),
        [some body, if flags = [] then none else some flags], rest⟩ := by
  by_cases hempty : flags = []
  · subst hempty
    obtain ⟨flags, -, hnone, h⟩ := regex_taken source before (Bare.of_not_word hrest) hne hbody
    rw [if_pos rfl, h, hnone hrest]
  · rw [if_neg hempty]
    exact regex_taken_with_flags hrest hne hbody hempty hflags

end Taken

end Grammar

end Precedence
