import Precedence.Proofs.LineScanner.Strings

/-!
# Lexemes in front of a cut

Where a lexeme ends can hang on what follows it: on the next character, and for a numeral or a sign
on the second and third one too. But a blank ends all of them, but for spaces, comments and texts
between quotes. So if a text is cut anywhere behind a lexeme, and goes on with a blank there or
ends, then the lexeme is still read (`lexeme?_stops`).
-/

namespace Precedence.LineScanner

open Text

/-- At its beginning there is a blank, or nothing at all. -/
def BeginsBlank (text : List Char) : Prop :=
  ∀ c ∈ text.head?, c = ' '

/-- If what `f` reads ends at the cut between `u` and `v`, or in front of it, then `f` reads as much
when blanks follow the cut. -/
def StopsAtBlanks (f : List Char → Nat) : Prop :=
  ∀ u v v' : List Char, f (u ++ v) ≤ u.length → BeginsBlank v' → f (u ++ v') = f (u ++ v)

theorem runLength_stops {p : Char → Bool} (hblank : p ' ' = false) :
    StopsAtBlanks (runLength p) := by
  intro u v v' hle hv'
  obtain ⟨w, rest, hwhole, hlength, hw, hstop⟩ := runLength_reads p (u ++ v)
  rw [hlength] at hle ⊢
  obtain ⟨x, rfl⟩ : w <+: u :=
    List.prefix_of_prefix_length_le ⟨rest, hwhole.symm⟩ (List.prefix_append u v) hle
  rw [List.append_assoc, List.append_cancel_left_eq] at hwhole
  subst hwhole
  rw [List.append_assoc]
  refine runLength_append hw fun c hc => ?_
  rcases x with _ | ⟨d, x⟩
  · rw [hv' c hc, hblank]
  · exact hstop c hc

theorem digits_stop : StopsAtBlanks (runLength Unicode.isDigit) :=
  runLength_stops (by decide)

theorem BeginsBlank.ne {text : List Char} (h : BeginsBlank text) {d : Char} (hd : d ≠ ' ') :
    ∀ c ∈ text.head?, c ≠ d :=
  fun c hc => by rw [h c hc]; exact hd.symm

theorem fractionLength_stops : StopsAtBlanks fractionLength := by
  intro u v v' hle hv'
  by_cases hpoint : u.head? = some '.'
  · obtain ⟨u, rfl⟩ := List.head?_eq_some_iff.mp hpoint
    have hdigits : runLength Unicode.isDigit (u ++ v) ≤ u.length := by
      simp only [List.cons_append, fractionLength, List.length_cons] at hle
      split at hle <;> omega
    simp only [List.cons_append, fractionLength, digits_stop u v v' hdigits hv']
  · have hnone : ∀ v : List Char, (u = [] → ∀ c ∈ v.head?, c ≠ '.') →
        fractionLength (u ++ v) = 0 := by
      intro v hv
      refine fractionLength_of_head fun c hc => ?_
      rcases u with _ | ⟨d, u⟩
      · exact hv rfl c hc
      · rintro rfl
        exact hpoint hc
    rw [hnone v' fun _ => hv'.ne (by decide)]
    rcases u with _ | ⟨d, u⟩
    · exact (Nat.le_zero.mp hle).symm
    · exact (hnone v fun h => absurd h (List.cons_ne_nil _ _)).symm

theorem exponentLength_signed {e s : Char} (he : e = 'e' ∨ e = 'E') (hs : s = '+' ∨ s = '-')
    (rest : List Char) : exponentLength (e :: s :: rest) =
      if runLength Unicode.isDigit rest = 0 then 0 else runLength Unicode.isDigit rest + 2 := by
  rcases he with rfl | rfl <;> rcases hs with rfl | rfl <;> rfl

theorem exponentLength_bare {e : Char} (he : e = 'e' ∨ e = 'E') {rest : List Char}
    (hrest : ∀ c ∈ rest.head?, c ≠ '+' ∧ c ≠ '-') : exponentLength (e :: rest) =
      if runLength Unicode.isDigit rest = 0 then 0 else runLength Unicode.isDigit rest + 1 := by
  have hmark : (decide (e = 'e') || decide (e = 'E')) = true := by simpa using he
  simp only [exponentLength, hmark, if_true]
  split
  · exact absurd rfl (hrest '+' rfl).1
  · exact absurd rfl (hrest '-' rfl).2
  · rfl

/-- An exponent has a digit behind its mark. -/
theorem exponentLength_ne_one (text : List Char) : exponentLength text ≠ 1 := by
  rcases text with _ | ⟨e, rest⟩
  · simp [exponentLength]
  by_cases he : e = 'e' ∨ e = 'E'
  · obtain ⟨sign, digits, rfl, hsign, hbare⟩ := exists_sign rest
    rcases hsign with rfl | hsign
    · rw [List.nil_append, exponentLength_bare he (hbare rfl)]
      split <;> omega
    · obtain ⟨s, rfl, hs⟩ : ∃ s, sign = [s] ∧ (s = '+' ∨ s = '-') := by
        rcases hsign with rfl | rfl
        · exact ⟨'+', rfl, Or.inl rfl⟩
        · exact ⟨'-', rfl, Or.inr rfl⟩
      rw [List.singleton_append, exponentLength_signed he hs]
      split <;> omega
  · rw [exponentLength_of_head fun c hc => ?_]
    · decide
    · obtain rfl := Option.some.inj hc
      exact not_or.mp he

theorem exponentLength_stops : StopsAtBlanks exponentLength := by
  intro u v v' hle hv'
  have hbare : ∀ c ∈ v'.head?, c ≠ '+' ∧ c ≠ '-' := fun c hc =>
    ⟨hv'.ne (by decide) c hc, hv'.ne (by decide) c hc⟩
  rcases u with _ | ⟨e, u⟩
  · rw [List.nil_append, List.nil_append, exponentLength_of_head fun c hc => ?_]
    · exact (Nat.le_zero.mp hle).symm
    · exact ⟨hv'.ne (by decide) c hc, hv'.ne (by decide) c hc⟩
  by_cases he : e = 'e' ∨ e = 'E'
  · rw [List.cons_append, List.length_cons] at hle
    rw [List.cons_append, List.cons_append]
    rcases u with _ | ⟨s, u⟩
    · -- the cut is behind the mark, so no digits follow this
      have hnone := exponentLength_ne_one (e :: v)
      have hdigits : runLength Unicode.isDigit ([] ++ v') = 0 :=
        runLength_append (List.forall_mem_nil _) fun c hc => by
          rw [hv' c hc]
          decide
      rw [List.nil_append] at hdigits
      rw [List.nil_append, List.length_nil] at hle
      rw [List.nil_append, List.nil_append, exponentLength_bare he hbare, hdigits, if_pos rfl]
      omega
    by_cases hs : s = '+' ∨ s = '-'
    · rw [List.cons_append, List.length_cons, exponentLength_signed he hs] at hle
      have hdigits : runLength Unicode.isDigit (u ++ v) ≤ u.length := by
        split at hle <;> omega
      rw [List.cons_append, List.cons_append, exponentLength_signed he hs,
        exponentLength_signed he hs, digits_stop u v v' hdigits hv']
    · have hhead : ∀ v, ∀ c ∈ (s :: u ++ v).head?, c ≠ '+' ∧ c ≠ '-' := by
        intro v c hc
        obtain rfl := Option.some.inj hc
        exact not_or.mp hs
      rw [exponentLength_bare he (hhead v)] at hle
      have hdigits : runLength Unicode.isDigit (s :: u ++ v) ≤ (s :: u).length := by
        split at hle <;> omega
      rw [exponentLength_bare he (hhead v), exponentLength_bare he (hhead v'),
        digits_stop (s :: u) v v' hdigits hv']
  · have hnone : ∀ v, exponentLength (e :: u ++ v) = 0 := by
      intro v
      refine exponentLength_of_head fun c hc => ?_
      obtain rfl := Option.some.inj hc
      exact not_or.mp he
    rw [hnone, hnone]

/-- One length behind another. -/
theorem StopsAtBlanks.behind {f g : List Char → Nat} (hf : StopsAtBlanks f)
    (hg : StopsAtBlanks g) : StopsAtBlanks fun text => f text + g (text.drop (f text)) := by
  intro u v v' hle hv'
  have hfirst : f (u ++ v) ≤ u.length := Nat.le_trans (Nat.le_add_right _ _) hle
  simp only [hf u v v' hfirst hv', List.drop_append_of_le_length hfirst] at hle ⊢
  have hrest : g (u.drop (f (u ++ v)) ++ v) ≤ (u.drop (f (u ++ v))).length := by
    rw [List.length_drop]
    omega
  rw [hg _ v v' hrest hv']

theorem numberTailLength_stops : StopsAtBlanks numberTailLength :=
  fractionLength_stops.behind exponentLength_stops

theorem numberLength_stops : StopsAtBlanks numberLength :=
  digits_stop.behind numberTailLength_stops

/-- What holds no blank stands in front of the cut, if blanks follow this. -/
theorem prefix_of_beginsBlank {w u v : List Char} (hw : ∀ c ∈ w, c ≠ ' ') (hv : BeginsBlank v)
    (h : w <+: u ++ v) : w <+: u := by
  rcases List.prefix_or_prefix_of_prefix h (List.prefix_append u v) with hprefix | ⟨x, rfl⟩
  · exact hprefix
  rw [List.prefix_append_right_inj] at h
  rcases x with _ | ⟨c, x⟩
  · simp
  · obtain ⟨rest, rfl⟩ := h
    exact absurd (hv c rfl) (hw c (by simp))

/-- What holds no blank, and does not go beyond the cut, is met when blanks follow the cut just if
it was met before. -/
theorem and_prefix_iff {p : Prop} {w u v v' : List Char} (hw : p → ∀ c ∈ w, c ≠ ' ')
    (hv' : BeginsBlank v') (hlength : p ∧ w <+: u ++ v → w.length ≤ u.length) :
    p ∧ w <+: u ++ v' ↔ p ∧ w <+: u ++ v := by
  refine and_congr_right fun hp => ⟨fun h => ?_, fun h => ?_⟩
  · exact (prefix_of_beginsBlank (hw hp) hv' h).trans (List.prefix_append u v)
  · exact (List.prefix_of_prefix_length_le h (List.prefix_append u v) (hlength ⟨hp, h⟩)).trans
      (List.prefix_append u v')

/-- A sign is told by its first character and by what it goes on with. -/
theorem punctuatorLength_eq (c : Char) (rest : List Char) : punctuatorLength (c :: rest) =
    if (c = '!' ∨ c = '=') ∧ ['=', '='] <+: rest then 3
    else if (c = '&' ∨ c = '|') ∧ [c] <+: rest then 2
    else if (c = '+' ∨ c = '-' ∨ c = '<' ∨ c = '>') ∧ ['='] <+: rest then 2
    else if isSinglePunctuator c then 1 else 0 := by
  unfold punctuatorLength
  split
  case h_9 hbang heq hand hor hplus hminus hless hgreater h =>
    obtain ⟨rfl, rfl⟩ := List.cons.inj h
    refine ((if_neg ?_).trans ((if_neg ?_).trans (if_neg ?_))).symm
    · rintro ⟨rfl | rfl, tail, rfl⟩
      · exact hbang tail rfl rfl
      · exact heq tail rfl rfl
    · rintro ⟨rfl | rfl, tail, rfl⟩
      · exact hand tail rfl rfl
      · exact hor tail rfl rfl
    · rintro ⟨rfl | rfl | rfl | rfl, tail, rfl⟩
      · exact hplus tail rfl rfl
      · exact hminus tail rfl rfl
      · exact hless tail rfl rfl
      · exact hgreater tail rfl rfl
  case h_10 h => exact absurd h (List.cons_ne_nil _ _)
  all_goals
    next h =>
      obtain ⟨rfl, rfl⟩ := List.cons.inj h
      rfl

theorem punctuatorLength_stops : StopsAtBlanks punctuatorLength := by
  intro u v v' hle hv'
  rcases u with _ | ⟨c, u⟩
  · have hnone : punctuatorLength v' = 0 := by
      rcases v' with _ | ⟨d, v'⟩
      · rfl
      · rw [hv' d rfl, punctuatorLength_eq]
        rfl
    rw [List.nil_append, List.nil_append, hnone]
    exact (Nat.le_zero.mp hle).symm
  rw [List.cons_append, punctuatorLength_eq, List.length_cons] at hle
  rw [List.cons_append, List.cons_append, punctuatorLength_eq, punctuatorLength_eq]
  -- each of the longer signs is in front of the cut, or it is not read at all
  have hlong : (c = '!' ∨ c = '=') ∧ ['=', '='] <+: u ++ v' ↔
      (c = '!' ∨ c = '=') ∧ ['=', '='] <+: u ++ v := by
    refine and_prefix_iff (fun _ => by simp) hv' fun h => ?_
    rw [if_pos h] at hle
    exact Nat.le_of_succ_le_succ hle
  have hdouble : (c = '&' ∨ c = '|') ∧ [c] <+: u ++ v' ↔ (c = '&' ∨ c = '|') ∧ [c] <+: u ++ v := by
    refine and_prefix_iff (by rintro (rfl | rfl) <;> simp) hv' fun h => ?_
    split at hle
    · exact Nat.le_of_succ_le (Nat.le_of_succ_le_succ hle)
    · exact Nat.le_of_succ_le_succ hle
  have hcompound : (c = '+' ∨ c = '-' ∨ c = '<' ∨ c = '>') ∧ ['='] <+: u ++ v' ↔
      (c = '+' ∨ c = '-' ∨ c = '<' ∨ c = '>') ∧ ['='] <+: u ++ v := by
    refine and_prefix_iff (fun _ => by simp) hv' fun h => ?_
    split at hle
    · exact Nat.le_of_succ_le (Nat.le_of_succ_le_succ hle)
    split at hle
    · exact Nat.le_of_succ_le_succ hle
    · exact Nat.le_of_succ_le_succ hle
  simp only [hlong, hdouble, hcompound]

/-! ### Lexemes -/

/-- A text between quotes that ends in front of the cut is read, whatever follows. -/
theorem stringTailLength?_stops {u v v' : List Char} {n : Nat}
    (h : stringTailLength? (u ++ v) = some n) (hle : n ≤ u.length) :
    stringTailLength? (u ++ v') = some n := by
  obtain ⟨body, rest, hbody, hwhole, rfl⟩ := stringTailLength?_eq_some h
  have hfront : body ++ ['"'] <+: u := by
    refine List.prefix_of_prefix_length_le ⟨rest, ?_⟩ (List.prefix_append u v) (by simpa using hle)
    rw [hwhole, List.append_assoc]
    rfl
  obtain ⟨x, rfl⟩ := hfront
  rw [List.append_assoc, List.append_assoc, stringTailLength?_append hbody]
  show some (1 + body.length) = _
  rw [Nat.add_comm]

/-- A lexeme in front of the cut is read again when blanks follow the cut, or nothing at all. -/
theorem lexeme?_stops {u v v' : List Char} {lexeme : Lexeme}
    (h : lexeme? (u ++ v) = some lexeme) (hle : lexeme.length ≤ u.length)
    (hspaces : lexeme.kind ≠ .spaces) (hcomment : lexeme.kind ≠ .comment) (hv' : BeginsBlank v') :
    lexeme? (u ++ v') = some lexeme := by
  rcases u with _ | ⟨c, u⟩
  · exact absurd hle (Nat.not_le.mpr lexeme.length_pos)
  rw [List.cons_append] at h ⊢
  have hfirst : c = '/' → (u ++ v).head? ≠ some '/' := by
    rintro rfl hhead
    obtain ⟨rest, hrest⟩ := List.head?_eq_some_iff.mp hhead
    rw [hrest] at h
    obtain rfl := Option.some.inj h
    exact hcomment rfl
  have hfirst' : c = '/' → (u ++ v').head? ≠ some '/' := by
    intro hc hhead
    rcases u with _ | ⟨d, u⟩
    · exact hv'.ne (by decide) _ hhead rfl
    · exact hfirst hc hhead
  rw [lexeme?_eq hfirst] at h
  rw [lexeme?_eq hfirst']
  rw [List.length_cons] at hle
  split_ifs at h ⊢ with hblank hletter hdigit hquote
  · exact absurd (Lexeme.ofLength?_eq_some h).1 hspaces
  · have hrun : runLength isNameChar (u ++ v) ≤ u.length := by
      rw [(Lexeme.ofLength?_eq_some h).2] at hle
      exact Nat.le_of_succ_le_succ hle
    rwa [runLength_stops (by decide) u v v' hrun hv']
  · have hnumber : numberLength (u ++ v) ≤ u.length := by
      rw [(Lexeme.ofLength?_eq_some h).2] at hle
      exact Nat.le_of_succ_le_succ hle
    rwa [numberLength_stops u v v' hnumber hv']
  · obtain ⟨n, hn, h⟩ := Option.bind_eq_some_iff.mp h
    rw [(Lexeme.ofLength?_eq_some h).2] at hle
    rw [stringTailLength?_stops hn (Nat.le_of_succ_le_succ hle)]
    exact h
  · have hsign : punctuatorLength (c :: u ++ v) ≤ (c :: u).length := by
      rwa [(Lexeme.ofLength?_eq_some h).2] at hle
    have hsame := punctuatorLength_stops (c :: u) v v' hsign hv'
    rw [List.cons_append, List.cons_append] at hsame
    rwa [hsame]

/-! ### Lexemes within their text -/

theorem runLength_le (p : Char → Bool) (text : List Char) : runLength p text ≤ text.length :=
  (List.takeWhile_sublist p).length_le

theorem numberLength_le (text : List Char) : numberLength text ≤ text.length := by
  have hdigits := runLength_le Unicode.isDigit text
  obtain ⟨w, rest, hwhole, hlength, -⟩ :=
    numberTailLength_reads (text.drop (runLength Unicode.isDigit text))
  have htail := congrArg List.length hwhole
  rw [List.length_drop, List.length_append] at htail
  rw [numberLength, hlength]
  omega

theorem punctuatorLength_le (text : List Char) : punctuatorLength text ≤ text.length := by
  rcases text with _ | ⟨c, rest⟩
  · exact Nat.le_refl 0
  rw [punctuatorLength_eq, List.length_cons]
  split_ifs with hlong hdouble hcompound
  · exact Nat.succ_le_succ hlong.2.length_le
  · exact Nat.succ_le_succ hdouble.2.length_le
  · exact Nat.succ_le_succ hcompound.2.length_le
  · exact Nat.succ_le_succ (Nat.zero_le _)
  · exact Nat.zero_le _

/-- A lexeme reads no more than there is. -/
theorem lexeme?_length_le {text : List Char} {lexeme : Lexeme} (h : lexeme? text = some lexeme) :
    lexeme.length ≤ text.length := by
  rcases text with _ | ⟨c, rest⟩
  · simp [lexeme?] at h
  rw [List.length_cons]
  by_cases hcomment : c = '/' → rest.head? ≠ some '/'
  · rw [lexeme?_eq hcomment] at h
    split_ifs at h
    · rw [(Lexeme.ofLength?_eq_some h).2]
      exact Nat.succ_le_succ (runLength_le _ rest)
    · rw [(Lexeme.ofLength?_eq_some h).2]
      exact Nat.succ_le_succ (runLength_le _ rest)
    · rw [(Lexeme.ofLength?_eq_some h).2]
      exact Nat.succ_le_succ (numberLength_le rest)
    · obtain ⟨n, hn, h⟩ := Option.bind_eq_some_iff.mp h
      obtain ⟨body, behind, -, rfl, rfl⟩ := stringTailLength?_eq_some hn
      rw [(Lexeme.ofLength?_eq_some h).2]
      simp
    · rw [(Lexeme.ofLength?_eq_some h).2]
      exact punctuatorLength_le (c :: rest)
  · obtain ⟨rfl, hhead⟩ := Classical.not_imp.mp hcomment
    obtain ⟨body, rfl⟩ := List.head?_eq_some_iff.mp (Classical.not_not.mp hhead)
    obtain rfl := Option.some.inj h
    simpa using runLength_le (· != '\n') body

end Precedence.LineScanner
