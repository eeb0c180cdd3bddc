import Mathlib.Tactic.SplitIfs
import Precedence.Classifier
import Precedence.Proofs.Regex.Reads

/-!
# Segments of a text

The segment that a pattern takes from a text is what its expression finds there
(`TokenPattern.segment?_eq_some_iff`), and a pattern whose expression cannot begin with the next
character takes none (`TokenPattern.segment?_eq_none`). The tokens of a text are those of its first
segment and those of what is left behind it (`Classifier.tokensFrom_of_segment`). So
`Classifier.Splits` says that the beginning of a text is split into certain tokens and that the rest
is split as if they were not there; pieces that meet are split one after the other.
-/

namespace Precedence

open Number Regex Text

namespace TokenPattern

variable {p : TokenPattern} {before : Option Char} {text : List Char}

/-- Where the search for a match begins. -/
def spot (before : Option Char) (text : List Char) : Spot :=
  ⟨before, 0, text, []⟩

/-- What the groups with these ends hold. -/
def capturesOf (count : Nat) (text : List Char) (groups : List (Nat × Nat × Nat)) :
    List (Option (List Char)) :=
  (List.range count).map fun i =>
    (groups.lookup (i + 1)).map fun (start, stop) => (text.take stop).drop start

/-- What a group holds that begins behind `a` and reads `b`. -/
theorem drop_take_append (a b c : List Char) :
    ((a ++ (b ++ c)).take (a.length + b.length)).drop a.length = b := by
  rw [← List.append_assoc, ← List.length_append, List.take_left, List.drop_left]

theorem segment?_eq_some_iff {s : Segment} : p.segment? before text = some s ↔
    ∃ t, p.pattern.body.find some (spot before text) = some t ∧ t.used ≠ 0 ∧
      s = ⟨p.kind, text.take t.used, capturesOf p.pattern.groups text t.groups,
        text.drop t.used⟩ := by
  unfold segment? Pattern.matchAt
  rcases hf : p.pattern.body.find some ⟨before, 0, text, []⟩ with _ | t
  · simp [spot, hf]
  · rw [spot, hf, Option.map_some, Option.bind_some]
    constructor
    · intro h
      split_ifs at h with hused
      refine ⟨t, rfl, hused, ?_⟩
      rw [← Option.some.inj h, capturesOf, List.map_map]
      rfl
    · rintro ⟨t', ht, hused, rfl⟩
      obtain rfl := Option.some.inj ht
      rw [if_neg hused, capturesOf, List.map_map]
      rfl

theorem segment?_of_find {w rest : List Char} {t : Spot} (hw : w ≠ [])
    (h : p.pattern.body.find some (spot before (w ++ rest)) = some t) (ht : t.used = w.length) :
    p.segment? before (w ++ rest) =
      some ⟨p.kind, w, capturesOf p.pattern.groups (w ++ rest) t.groups, rest⟩ := by
  refine segment?_eq_some_iff.mpr ⟨t, h, ?_, ?_⟩
  · rw [ht]
    exact fun h0 => hw (List.length_eq_zero_iff.mp h0)
  · rw [ht, List.take_left, List.drop_left]

theorem kind_of_segment {s : Segment} (h : p.segment? before text = some s) : s.kind = p.kind := by
  obtain ⟨t, -, -, rfl⟩ := segment?_eq_some_iff.mp h
  rfl

/-- A segment is not empty, and begins with a character with which its pattern can begin. -/
theorem begins_of_segment {s : Segment} (h : p.segment? before text = some s) :
    ∃ c w rest, text = c :: rest ∧ s.text = c :: w ∧ p.pattern.body.heads.contains c = true := by
  obtain ⟨t, hfind, hused, rfl⟩ := segment?_eq_some_iff.mp h
  obtain ⟨t', hread, ht⟩ := find_sound _ _ _ _ hfind
  obtain rfl := Option.some.inj ht
  rcases hread.begins with ⟨-, hu, -⟩ | ⟨-, c, rest, hs, hc⟩
  · exact absurd hu hused
  · obtain ⟨n, hn⟩ := Nat.exists_eq_succ_of_ne_zero hused
    obtain rfl : text = c :: rest := hs
    exact ⟨c, rest.take n, rest, rfl, by rw [hn]; rfl, hc⟩

theorem segment?_eq_none {c : Char} {cs : List Char}
    (h : p.pattern.body.heads.contains c = false) : p.segment? before (c :: cs) = none := by
  rcases hs : p.segment? before (c :: cs) with _ | s
  · rfl
  · obtain ⟨d, -, rest, htext, -, hd⟩ := begins_of_segment hs
    obtain ⟨rfl, -⟩ := List.cons.inj htext
    rw [hd] at h
    exact Bool.noConfusion h

/-- A pattern without repetitions takes a segment wherever its expression can read something. -/
theorem isSome_of_reads {t : Spot} (hplain : p.pattern.body.plain = true)
    (hnull : p.pattern.body.nullable = false) (h : Reads p.pattern.body (spot before text) t) :
    (p.segment? before text).isSome := by
  obtain ⟨t', ht'⟩ := Option.isSome_iff_exists.mp
    (find_complete _ some _ _ hplain h (Option.isSome_some (a := t)))
  obtain ⟨m, hread, hm⟩ := find_sound _ _ _ _ ht'
  obtain rfl := Option.some.inj hm
  rcases hread.begins with ⟨hn, -⟩ | ⟨hused, -⟩
  · rw [hnull] at hn
    exact Bool.noConfusion hn
  · rw [segment?_eq_some_iff.mpr ⟨m, ht', Nat.ne_of_gt hused, rfl⟩]
    rfl

end TokenPattern

namespace Classifier

variable {classifier : Classifier} {index : LineIndex} {offset : Nat} {before : Option Char}

theorem exists_pattern {text : List Char} {s : Segment}
    (h : classifier.segment? before text = some s) :
    ∃ p ∈ classifier.patterns, p.segment? before text = some s :=
  List.exists_of_findSome?_eq_some h

theorem begins_of_segment {text : List Char} {s : Segment}
    (h : classifier.segment? before text = some s) :
    ∃ c w rest, text = c :: rest ∧ s.text = c :: w := by
  obtain ⟨p, -, hp⟩ := exists_pattern h
  obtain ⟨c, w, rest, htext, hw, -⟩ := TokenPattern.begins_of_segment hp
  exact ⟨c, w, rest, htext, hw⟩

theorem ne_nil_of_segment {text : List Char} {s : Segment}
    (h : classifier.segment? before text = some s) : s.text ≠ [] := by
  obtain ⟨c, w, -, -, hw⟩ := begins_of_segment h
  rw [hw]
  exact List.cons_ne_nil c w

theorem whole_of_segment {text : List Char} {s : Segment}
    (h : classifier.segment? before text = some s) :
    text = s.text ++ s.rest := by
  obtain ⟨p, -, hp⟩ := exists_pattern h
  obtain ⟨t, -, -, rfl⟩ := TokenPattern.segment?_eq_some_iff.mp hp
  exact (List.take_append_drop _ _).symm

theorem tokensFrom_of_segment {text : List Char} {s : Segment}
    (h : classifier.segment? before text = some s) :
    classifier.tokensFrom index offset before text =
      if s.kind = .ignore then
        classifier.tokensFrom index (offset + byteLength s.text) s.text.getLast? s.rest
      else do
        let token ← token index offset s
        return token ::
          (← classifier.tokensFrom index (offset + byteLength s.text) s.text.getLast? s.rest) := by
  obtain ⟨c, -, rest, rfl, -⟩ := begins_of_segment h
  rw [tokensFrom]
  split
  · next hnone => rw [hnone] at h; simp at h
  · next s' hs =>
    obtain rfl := Option.some.inj (hs.symm.trans h)
    rfl

/-- Where a text is split, its first segment was matched, and what it left was split. -/
theorem tokensFrom_cons {c : Char} {cs : List Char} {tokens : List Token}
    (h : classifier.tokensFrom index offset before (c :: cs) = .ok tokens) :
    ∃ s ts, classifier.segment? before (c :: cs) = some s ∧
      classifier.tokensFrom index (offset + byteLength s.text) s.text.getLast? s.rest = .ok ts ∧
      (s.kind = .ignore ∧ tokens = ts ∨
        s.kind ≠ .ignore ∧ ∃ t, token index offset s = .ok t ∧ tokens = t :: ts) := by
  rw [tokensFrom] at h
  split at h
  · simp at h
  next s hs =>
  simp only at h
  split_ifs at h with hkind
  · exact ⟨s, tokens, hs, h, Or.inl ⟨hkind, rfl⟩⟩
  · obtain ⟨t, ht, h⟩ := Failure.bind_eq_ok_iff.mp h
    obtain ⟨ts, hrest, h⟩ := Failure.bind_eq_ok_iff.mp h
    exact ⟨s, ts, hs, hrest, Or.inr ⟨hkind, t, ht, (Except.ok.inj h).symm⟩⟩

/-- What is true at the end of a text, and handed on from what a segment left to the text in front of
it, is true wherever a text is split. -/
theorem tokensFrom_induction {motive : Nat → Option Char → List Char → List Token → Prop}
    (nil : ∀ offset before, motive offset before [] [])
    (ignored : ∀ offset before text s ts, classifier.segment? before text = some s →
      s.kind = .ignore →
      classifier.tokensFrom index (offset + byteLength s.text) s.text.getLast? s.rest = .ok ts →
      motive (offset + byteLength s.text) s.text.getLast? s.rest ts →
      motive offset before text ts)
    (read : ∀ offset before text s ts t, classifier.segment? before text = some s →
      s.kind ≠ .ignore → token index offset s = .ok t →
      classifier.tokensFrom index (offset + byteLength s.text) s.text.getLast? s.rest = .ok ts →
      motive (offset + byteLength s.text) s.text.getLast? s.rest ts →
      motive offset before text (t :: ts))
    {text : List Char} {tokens : List Token}
    (h : classifier.tokensFrom index offset before text = .ok tokens) :
    motive offset before text tokens := by
  -- each segment leaves a shorter text
  induction hn : text.length using Nat.strongRecOn generalizing offset before text tokens with
  | ind n ih =>
  rcases text with _ | ⟨c, cs⟩
  · rw [tokensFrom] at h
    obtain rfl := Except.ok.inj h
    exact nil offset before
  obtain ⟨s, ts, hs, hrest, hcases⟩ := tokensFrom_cons h
  have hmotive := ih _ (hn ▸ length_rest_lt hs) hrest rfl
  rcases hcases with ⟨hkind, rfl⟩ | ⟨hkind, t, ht, rfl⟩
  · exact ignored offset before _ s _ hs hkind hrest hmotive
  · exact read offset before _ s ts t hs hkind ht hrest hmotive

/-- What a segment says about its token. -/
structure IsTokenOf (t : Token) (s : Segment) : Prop where
  kind : t.kind = s.kind
  text : t.text = String.ofList s.text
  value : s.kind ≠ .number → t.value = .text (String.ofList s.primary)
  captures : t.captures = s.captures.map fun c => c.map String.ofList

/-- A segment has a token unless it is a number without a finite value. -/
theorem token_eq_ok_iff {s : Segment} {t : Token} : token index offset s = .ok t ↔
    IsTokenOf t s ∧
      (s.kind = .number → ∃ x, Numeral.value? s.primary = some x ∧ t.value = .number x) ∧
      t.span = ⟨offset, offset + byteLength s.text⟩ ∧ t.position = index.position offset := by
  simp only [token]
  by_cases hk : s.kind = .number
  · rw [if_pos hk]
    rcases hx : Numeral.value? s.primary with _ | x
    · simp [Except.map, hk]
    · constructor
      · intro h
        obtain rfl := Except.ok.inj h
        exact ⟨⟨rfl, rfl, fun hn => absurd hk hn, rfl⟩, fun _ => ⟨x, rfl, rfl⟩, rfl, rfl⟩
      · rintro ⟨⟨hkind, htext, -, hcaptures⟩, hnumber, hspan, hposition⟩
        obtain ⟨y, hy, hvalue⟩ := hnumber hk
        obtain rfl := Option.some.inj hy
        simp only [Except.map, ← hkind, ← htext, ← hcaptures, ← hspan, ← hposition, ← hvalue]
  · rw [if_neg hk]
    constructor
    · intro h
      obtain rfl := Except.ok.inj h
      exact ⟨⟨rfl, rfl, fun _ => rfl, rfl⟩, fun hn => absurd hn hk, rfl, rfl⟩
    · rintro ⟨⟨hkind, htext, hvalue, hcaptures⟩, -, hspan, hposition⟩
      simp only [Except.map, ← hkind, ← htext, ← hcaptures, ← hspan, ← hposition, ← hvalue hk]

theorem isTokenOf_of_token {s : Segment} {t : Token} (h : token index offset s = .ok t) :
    IsTokenOf t s :=
  (token_eq_ok_iff.mp h).1

theorem token_eq_error_iff {s : Segment} {failure : Failure} :
    token index offset s = .error failure ↔
      s.kind = .number ∧ Numeral.value? s.primary = none ∧
        failure = .nonFiniteNumber (String.ofList s.primary)
          { position := index.position offset
            span := some ⟨offset, offset + byteLength s.text⟩ } := by
  simp only [token]
  by_cases hk : s.kind = .number
  · rw [if_pos hk]
    rcases hx : Numeral.value? s.primary with _ | x
    · simp [Except.map, hk, eq_comm]
    · simp [Except.map]
  · simp [Except.map, hk]

/-- A segment of the same kind with the same first group has a token of the same value. -/
theorem exists_token {s s' : Segment} {t : Token} (h : token index offset s = .ok t)
    (hkind : s'.kind = s.kind) (hprimary : s'.primary = s.primary) (index' : LineIndex)
    (offset' : Nat) : ∃ t', token index' offset' s' = .ok t' ∧ t'.value = t.value := by
  simp only [token, hkind, hprimary] at h ⊢
  by_cases hk : s.kind = .number
  · rw [if_pos hk] at h ⊢
    rcases hx : Numeral.value? s.primary with _ | x
    · simp [hx, Except.map] at h
    · simp only [hx, Except.map, Except.ok.injEq] at h ⊢
      subst h
      exact ⟨_, rfl, rfl⟩
  · rw [if_neg hk] at h ⊢
    simp only [Except.map, Except.ok.injEq] at h ⊢
    subst h
    exact ⟨_, rfl, rfl⟩

/-! ### Pieces of a text -/

/-- The text `w` in front of `rest` is split into the tokens `ts`. -/
def Splits (classifier : Classifier) (index : LineIndex) (offset : Nat) (before : Option Char)
    (w rest : List Char) (ts : List Token) : Prop :=
  classifier.tokensFrom index offset before (w ++ rest) =
    (classifier.tokensFrom index (offset + byteLength w) (w.getLast?.or before) rest).map (ts ++ ·)

theorem Splits.nil {rest : List Char} : classifier.Splits index offset before [] rest [] := by
  show classifier.tokensFrom index offset before rest =
    (classifier.tokensFrom index offset before rest).map ([] ++ ·)
  rcases classifier.tokensFrom index offset before rest with failure | ts <;> rfl

theorem Splits.append {w v rest : List Char} {ts us : List Token}
    (h : classifier.Splits index offset before w (v ++ rest) ts)
    (h' : classifier.Splits index (offset + byteLength w) (w.getLast?.or before) v rest us) :
    classifier.Splits index offset before (w ++ v) rest (ts ++ us) := by
  unfold Splits at h h' ⊢
  rw [List.append_assoc, h, h', byteLength_append, Nat.add_assoc, List.getLast?_append,
    Option.or_assoc]
  rcases classifier.tokensFrom index _ _ rest with failure | vs
  · rfl
  · simp [Except.map]

theorem Splits.tokens {w : List Char} {ts : List Token}
    (h : classifier.Splits index offset before w [] ts) :
    classifier.tokensFrom index offset before w = .ok ts := by
  unfold Splits at h
  rw [List.append_nil] at h
  rw [h, tokensFrom]
  simp [Except.map]

section Segments

variable {w rest : List Char} {kind : TokenKind} {captures : List (Option (List Char))}
  (h : classifier.segment? before (w ++ rest) = some ⟨kind, w, captures, rest⟩)

include h

theorem Splits.of_ignored (hkind : kind = .ignore) :
    classifier.Splits index offset before w rest [] := by
  rw [Splits, tokensFrom_of_segment h, if_pos hkind, getLast?_or (ne_nil_of_segment h)]
  rcases classifier.tokensFrom index _ _ rest with failure | vs <;> rfl

theorem Splits.of_token (hkind : kind ≠ .ignore) {t : Token}
    (ht : token index offset ⟨kind, w, captures, rest⟩ = .ok t) :
    classifier.Splits index offset before w rest [t] := by
  rw [Splits, tokensFrom_of_segment h, if_neg hkind, getLast?_or (ne_nil_of_segment h), ht]
  rcases classifier.tokensFrom index _ _ rest with failure | vs <;> rfl

end Segments

end Classifier

end Precedence
