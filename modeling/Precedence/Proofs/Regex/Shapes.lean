import Mathlib.Tactic.SplitIfs
import Precedence.Proofs.Grammar.PatternForms
import Precedence.Proofs.Regex.Reads
import Precedence.Proofs.Text.Classes

/-!
# What the shapes of expressions read

The shapes that patterns are built of read stretches of characters, and leave the groups alone: a
spelled text, or some characters of a set. The search for as many characters of a set as there are
takes all of them, unless what follows cannot do with that (`Regex.find_many_skip`).
-/

namespace Precedence.Regex

open Text

/-! ### Sets -/

theorem contains_anyOf (sets : List CharSet) (c : Char) :
    (anyOf sets).contains c = sets.any (·.contains c) := by
  have h : ∀ (sets : List CharSet) (acc : CharSet),
      (sets.foldl .union acc).contains c = (acc.contains c || sets.any (·.contains c)) := by
    intro sets
    induction sets with
    | nil => simp
    | cons set sets ih => simp [ih, CharSet.contains, Bool.or_assoc]
  rw [anyOf, h, CharSet.contains_empty, Bool.false_or]

theorem contains_noneOf (sets : List CharSet) (c : Char) :
    (noneOf sets).contains c = !sets.any (·.contains c) := by
  rw [noneOf, CharSet.contains, contains_anyOf]

/-- A set of ASCII characters, by the way it is written. -/
def CharSet.inAscii : CharSet → Bool
  | .range _ last => last.toNat < 128
  | .union s t => inAscii s && inAscii t
  | .compl .all => true
  | _ => false

theorem CharSet.isAscii_of_contains {c : Char} : ∀ {set : CharSet}, set.inAscii = true →
    set.contains c = true → Unicode.isAscii c = true
  | .range _ last, h, hc => by
    simp only [inAscii, decide_eq_true_eq] at h
    simp only [contains, Bool.and_eq_true, decide_eq_true_eq] at hc
    simp only [Unicode.isAscii, decide_eq_true_eq]
    exact Nat.lt_of_le_of_lt (Char.le_def.mp hc.2) h
  | .union _ _, h, hc => by
    simp only [inAscii, Bool.and_eq_true] at h
    rcases (Bool.or_eq_true _ _).mp hc with hc | hc
    · exact isAscii_of_contains h.1 hc
    · exact isAscii_of_contains h.2 hc
  | .compl .all, _, hc => absurd hc (by simp [contains])

/-- What holds of the members of a set of ASCII characters can be checked. -/
theorem CharSet.forall_mem {set : CharSet} (hset : set.inAscii = true) {p : Char → Bool}
    (h : ∀ n < 128, (!set.contains (Char.ofNat n) || p (Char.ofNat n)) = true) {c : Char}
    (hc : set.contains c = true) : p c = true := by
  have hall := Unicode.forall_ascii (p := fun c => !set.contains c || p c) h
    (isAscii_of_contains hset hc)
  simpa [hc] using hall

/-- A stretch of members ends where the next character is none. -/
theorem CharSet.not_of_mem_head? {set : CharSet} {l : List Char} {c : Char}
    (h : c ∈ (l.dropWhile set.contains).head?) : set.contains c = false := by
  have hstop := List.head?_dropWhile_not set.contains l
  rwa [Option.mem_def.mp h] at hstop

/-! ### Places behind a stretch -/

namespace Spot

/-- The place behind the stretch `w`, from where `rest` is left. -/
def past (s : Spot) (w rest : List Char) : Spot :=
  ⟨w.getLast?.or s.before, s.used + w.length, rest, s.groups⟩

theorem past_nil (s : Spot) : s.past [] s.rest = s := rfl

theorem past_past (s : Spot) (w v rest rest' : List Char) :
    (s.past w rest).past v rest' = s.past (w ++ v) rest' := by
  simp only [past, List.getLast?_append, Option.or_assoc, List.length_append, Nat.add_assoc]

theorem advance_eq (s : Spot) (c : Char) (rest : List Char) : s.advance c rest = s.past [c] rest :=
  rfl

/-- The place behind all the next characters that are in the set. -/
def skip (set : CharSet) (s : Spot) : Spot :=
  s.past (s.rest.takeWhile set.contains) (s.rest.dropWhile set.contains)

theorem skip_eq {set : CharSet} {s : Spot} {w rest : List Char} (hs : s.rest = w ++ rest)
    (hw : ∀ c ∈ w, set.contains c = true) (hrest : ∀ c ∈ rest.head?, set.contains c = false) :
    s.skip set = s.past w rest := by
  have hstop : rest.takeWhile set.contains = [] ∧ rest.dropWhile set.contains = rest := by
    rcases rest with _ | ⟨c, rest⟩
    · exact ⟨rfl, rfl⟩
    · simp [hrest c rfl]
  rw [skip, hs, List.takeWhile_append_of_pos hw, List.dropWhile_append_of_pos hw, hstop.1, hstop.2,
    List.append_nil]

end Spot

/-- One of the two characters next to a place is a word character, and the other is not. -/
def Edge (before : Option Char) (rest : List Char) : Prop :=
  (before.any Unicode.isWord != rest.head?.any Unicode.isWord) = true

/-! ### What is read -/

variable {set : CharSet} {s t : Spot}

theorem reads_char (h : Reads (char set) s t) :
    ∃ c rest, s.rest = c :: rest ∧ set.contains c = true ∧ t = s.past [c] rest := h

theorem rounds_char : ∀ {n : Nat} {s t : Spot}, Rounds (Reads (char set)) n s t →
    ∃ w rest, w.length = n ∧ s.rest = w ++ rest ∧ (∀ c ∈ w, set.contains c = true) ∧
      t = s.past w rest
  | 0, s, _, rfl => ⟨[], s.rest, rfl, rfl, by simp, s.past_nil.symm⟩
  | n + 1, s, t, ⟨m, hm, h⟩ => by
    obtain ⟨c, rest, hs, hc, rfl⟩ := reads_char hm
    obtain ⟨w, rest', hn, hm, hw, rfl⟩ := rounds_char h
    refine ⟨c :: w, rest', by rw [List.length_cons, hn], ?_, ?_, s.past_past [c] w rest rest'⟩
    · rw [hs, List.cons_append, ← hm]
      rfl
    · intro d hd
      rcases List.mem_cons.mp hd with rfl | hd
      · exact hc
      · exact hw d hd

theorem reads_many (h : Reads (many set) s t) :
    ∃ w rest, s.rest = w ++ rest ∧ (∀ c ∈ w, set.contains c = true) ∧ t = s.past w rest := by
  obtain ⟨n, -, -, h⟩ := h
  obtain ⟨w, rest, -, h⟩ := rounds_char h
  exact ⟨w, rest, h⟩

theorem reads_many1 (h : Reads (many1 set) s t) :
    ∃ w rest, w ≠ [] ∧ s.rest = w ++ rest ∧ (∀ c ∈ w, set.contains c = true) ∧
      t = s.past w rest := by
  obtain ⟨n, hn, -, h⟩ := h
  obtain ⟨w, rest, hlen, h⟩ := rounds_char h
  refine ⟨w, rest, fun hw => ?_, h⟩
  rw [hw] at hlen
  exact absurd hn (by rw [← hlen]; decide)

theorem reads_maybe {r : Regex} (h : Reads (maybe r) s t) : t = s ∨ Reads r s t := by
  obtain ⟨n, -, hn, h⟩ := h
  have hle := hn 1 rfl
  rcases n with _ | _ | n
  · exact Or.inl h
  · obtain ⟨m, hm, ht⟩ := h
    obtain rfl : t = m := ht
    exact Or.inr hm
  · omega

theorem reads_spelled (text : List Char) (rs : List Regex) {s t : Spot} :
    Reads (phrase (text.map (fun c => .char (.single c)) ++ rs)) s t ↔
      ∃ rest, s.rest = text ++ rest ∧ Reads (phrase rs) (s.past text rest) t := by
  induction text generalizing s with
  | nil =>
    constructor
    · exact fun h => ⟨s.rest, rfl, by rwa [s.past_nil]⟩
    · rintro ⟨rest, rfl, h⟩
      rwa [s.past_nil] at h
  | cons c text ih =>
    constructor
    · rintro ⟨m, hm, h⟩
      obtain ⟨d, rest, hs, hd, rfl⟩ := reads_char hm
      obtain rfl : c = d := by rwa [CharSet.contains_single, beq_iff_eq] at hd
      obtain ⟨rest', hrest, h⟩ := ih.mp h
      obtain rfl : rest = text ++ rest' := hrest
      exact ⟨rest', hs, by rwa [s.past_past] at h⟩
    · rintro ⟨rest, hs, h⟩
      refine ⟨s.past [c] (text ++ rest), ⟨c, _, hs, ?_, rfl⟩, ih.mpr ⟨rest, rfl, ?_⟩⟩
      · rw [CharSet.contains_single, beq_self_eq_true]
      · rwa [s.past_past]

theorem reads_oneOf : ∀ {rs : List Regex}, rs ≠ [] →
    (Reads (oneOf rs) s t ↔ ∃ r ∈ rs, Reads r s t)
  | [], h => absurd rfl h
  | [r], _ => by
    rw [oneOf]
    simp
  | r :: q :: rs, _ => by
    have ih : Reads (oneOf (q :: rs)) s t ↔ ∃ r ∈ q :: rs, Reads r s t :=
      reads_oneOf (List.cons_ne_nil q rs)
    show Reads r s t ∨ Reads (oneOf (q :: rs)) s t ↔ _
    rw [ih]
    simp

/-! ### What is found -/

variable {α : Type} {k : Spot → Option α}

theorem find_phrase_nil : find (phrase []) k s = k s := rfl

theorem find_phrase_cons (r : Regex) (rs : List Regex) :
    find (phrase (r :: rs)) k s = find r (find (phrase rs) k) s := rfl

theorem find_group (i : Nat) (r : Regex) :
    find (group i r) k s = find r (fun t => k (t.close i s.used)) s := rfl

/-- The alternatives are tried one after the other. -/
theorem find_oneOf : ∀ {rs : List Regex}, rs ≠ [] →
    find (oneOf rs) k s = rs.findSome? fun r => find r k s
  | [], h => absurd rfl h
  | [r], _ => by
    rw [oneOf, List.findSome?_cons]
    rcases find r k s with _ | x <;> rfl
  | r :: q :: rs, _ => by
    have ih : find (oneOf (q :: rs)) k s = (q :: rs).findSome? fun r => find r k s :=
      find_oneOf (List.cons_ne_nil q rs)
    show (find r k s <|> find (oneOf (q :: rs)) k s) = _
    rw [ih, List.findSome?_cons (a := r)]
    rcases find r k s with _ | x <;> rfl

/-- The places on a run, from the last one back. -/
theorem run_eq (set : CharSet) : ∀ {rest : List Char} {s : Spot} (behind : List Spot),
    s.rest = rest → ∃ spots, s.run set none rest behind = s.skip set :: spots
  | [], s, behind, hs => by
    have hskip : s.skip set = s.past [] s.rest :=
      Spot.skip_eq rfl (by simp) (by simp [hs])
    exact ⟨behind, by rw [hskip, Spot.past_nil, Spot.run]; simp⟩
  | c :: rest, s, behind, hs => by
    by_cases hc : set.contains c = true
    · obtain ⟨spots, h⟩ := run_eq set (s := s.advance c rest) (s :: behind) rfl
      refine ⟨spots, ?_⟩
      rw [Spot.run.eq_3 _ _ _ _ _ _ (by simp), if_pos hc]
      refine h.trans ?_
      rw [Spot.skip, Spot.skip, hs, List.takeWhile_cons_of_pos hc, List.dropWhile_cons_of_pos hc,
        Spot.advance_eq, Spot.past_past]
      rfl
    · refine ⟨behind, ?_⟩
      rw [Spot.run.eq_3 _ _ _ _ _ _ (by simp), if_neg hc, Spot.skip, hs,
        List.takeWhile_cons_of_neg hc,
        List.dropWhile_cons_of_neg hc, ← hs, Spot.past_nil]

theorem chars_eq (h : (k (s.skip set)).isSome) :
    Search.chars true set none k s = k (s.skip set) := by
  obtain ⟨spots, hrun⟩ := run_eq set (s := s) [] rfl
  obtain ⟨x, hx⟩ := Option.isSome_iff_exists.mp h
  unfold Search.chars
  simp only [if_true, hrun, List.findSome?_cons, hx]

/-- As many characters as there are, if what follows can do with that. -/
theorem find_many_skip (h : (k (s.skip set)).isSome) : find (many set) k s = k (s.skip set) :=
  chars_eq h

theorem find_char {c : Char} {rest : List Char} (hs : s.rest = c :: rest)
    (hc : set.contains c = true) : find (char set) k s = k (s.past [c] rest) := by
  unfold find
  rw [hs]
  exact if_pos hc

section Stretch

variable {w rest : List Char} (hs : s.rest = w ++ rest) (hw : ∀ c ∈ w, set.contains c = true)
  (hrest : ∀ c ∈ rest.head?, set.contains c = false) (hk : (k (s.past w rest)).isSome)

include hs hw hrest hk

theorem find_many : find (many set) k s = k (s.past w rest) := by
  rw [← Spot.skip_eq hs hw hrest] at hk ⊢
  exact find_many_skip hk

theorem find_many1 (hne : w ≠ []) : find (many1 set) k s = k (s.past w rest) := by
  obtain ⟨c, w, rfl⟩ := List.exists_cons_of_ne_nil hne
  have hskip : (s.past [c] (w ++ rest)).skip set = s.past (c :: w) rest :=
    (Spot.skip_eq rfl (fun d hd => hw d (List.mem_cons_of_mem c hd)) hrest).trans
      (Spot.past_past s [c] w _ rest)
  rw [← hskip] at hk ⊢
  rw [← chars_eq hk]
  exact find_char hs (hw c List.mem_cons_self)

end Stretch

theorem find_char_none (hs : ∀ c ∈ s.rest.head?, set.contains c = false) :
    find (char set) k s = none := by
  unfold find
  rcases hr : s.rest with _ | ⟨c, rest⟩
  · rfl
  · exact if_neg (by rw [hs c (by rw [hr]; rfl)]; decide)

theorem find_maybe (r : Regex) : find (maybe r) k s = (find r k s).or (k s) := by
  by_cases hr : ∃ set, r = char set
  · obtain ⟨set, rfl⟩ := hr
    show Search.chars true set (some 1) k s = _
    unfold Search.chars find
    rcases hs : s.rest with _ | ⟨c, rest⟩
    · simp [Spot.run]
    · by_cases hc : set.contains c = true
      · have hrun : s.run set (some 1) (c :: rest) [] = [s.advance c rest, s] := by
          rw [Spot.run.eq_3 _ _ _ _ _ _ (by simp), if_pos hc]
          cases rest <;> rfl
        simp only [hrun, if_pos hc, if_true, List.findSome?_cons, List.findSome?_nil]
        rcases k (s.advance c rest) with _ | x
        · rcases k s with _ | y <;> rfl
        · rfl
      · simp [Spot.run, hc]
  · rw [maybe, find_repeated_some fun set hs => hr ⟨set, hs⟩]
    show (find r k s <|> k s) = _
    rw [Option.orElse_eq_orElse, Option.orElse_eq_or]

/-- One character of a set or none, if what follows can do with that. -/
theorem find_maybe_char {w rest : List Char} (hs : s.rest = w ++ rest)
    (hw : w = [] ∧ (∀ c ∈ rest.head?, set.contains c = false) ∨
      ∃ c, w = [c] ∧ set.contains c = true)
    (hk : (k (s.past w rest)).isSome) : find (maybe (char set)) k s = k (s.past w rest) := by
  rw [find_maybe]
  rcases hw with ⟨rfl, hrest⟩ | ⟨c, rfl, hc⟩
  · obtain rfl : s.rest = rest := hs
    rw [find_char_none hrest, Option.none_or, s.past_nil]
  · obtain ⟨x, hx⟩ := Option.isSome_iff_exists.mp hk
    rw [find_char (show s.rest = c :: rest from hs) hc, hx, Option.some_or]

/-- Nothing is found where the expression can neither read nothing nor begin. -/
theorem find_eq_none {r : Regex} (hnull : r.nullable = false)
    (hs : ∀ c ∈ s.rest.head?, r.heads.contains c = false) : find r k s = none := by
  rcases hf : find r k s with _ | x
  · rfl
  · obtain ⟨t, hread, -⟩ := find_sound r k s x hf
    rcases hread.begins with ⟨hn, -⟩ | ⟨-, c, rest, hrest, hc⟩
    · rw [hnull] at hn
      exact Bool.noConfusion hn
    · rw [hs c (by rw [hrest]; rfl)] at hc
      exact Bool.noConfusion hc

theorem find_boundary (h : Edge s.before s.rest) : find boundary k s = k s :=
  if_pos h

end Precedence.Regex
