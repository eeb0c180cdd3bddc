import Precedence.Proofs.Grammar.Segments

/-!
# Segments of numerals

The numerals that the two patterns take. Each of them is taken as a whole wherever it stands between
word boundaries (`decimal_taken`, `hexadecimal_taken`); a decimal one can go on only with characters
of its own, but where it has a point at one of its ends there must be a word character next to it.
-/

namespace Precedence

namespace Grammar

open Regex TokenPattern

variable {before : Option Char} {text : List Char} {s : Segment}

/-- Nothing, or a mark, perhaps a sign, and digits. -/
def IsExponent (w : List Char) : Prop :=
  w = [] ∨ ∃ mark sign digits, w = mark :: (sign ++ digits) ∧ (mark = 'e' ∨ mark = 'E') ∧
    (sign = [] ∨ sign = ['-'] ∨ sign = ['+']) ∧ digits ≠ [] ∧
    ∀ c ∈ digits, digit.contains c = true

/-- Digits, of which some may stand behind a point, and perhaps an exponent. -/
def IsDecimal (w : List Char) : Prop :=
  ∃ whole point fraction exponent, w = whole ++ (point ++ (fraction ++ exponent)) ∧
    (∀ c ∈ whole, digit.contains c = true) ∧ (∀ c ∈ fraction, digit.contains c = true) ∧
    (point = [] ∨ point = ['.']) ∧ (whole ≠ [] ∨ point = ['.'] ∧ fraction ≠ []) ∧
    IsExponent exponent

def IsHexadecimal (w : List Char) : Prop :=
  ∃ mark digits, w = '0' :: mark :: digits ∧ (mark = 'x' ∨ mark = 'X') ∧ digits ≠ [] ∧
    ∀ c ∈ digits, hexDigit.contains c = true

theorem contains_pair {a b c : Char} :
    (anyOf [.single a, .single b]).contains c = true ↔ c = a ∨ c = b := by
  simp only [contains_anyOf, List.any_cons, List.any_nil, CharSet.contains_single, Bool.or_false,
    Bool.or_eq_true, beq_iff_eq]
  exact ⟨Or.imp Eq.symm Eq.symm, Or.imp Eq.symm Eq.symm⟩

/-- The sign of an exponent. -/
def signs : CharSet :=
  .union (.union (.single '-') .empty) (.single '+')

theorem contains_signs {c : Char} : signs.contains c = true ↔ c = '-' ∨ c = '+' := by
  simp only [signs, CharSet.contains, CharSet.contains_single, CharSet.contains_empty,
    Bool.or_false, Bool.or_eq_true, beq_iff_eq]
  exact ⟨Or.imp Eq.symm Eq.symm, Or.imp Eq.symm Eq.symm⟩

theorem signs_of_digit {c : Char} (h : digit.contains c = true) : signs.contains c = false := by
  rw [Bool.eq_false_iff]
  intro hc
  rcases contains_signs.mp hc with rfl | rfl
  · exact absurd h (by decide)
  · exact absurd h (by decide)

theorem reads_exponent {s t : Spot} (h : Reads (maybe exponent) s t) :
    ∃ w rest, s.rest = w ++ rest ∧ IsExponent w ∧ t = s.past w rest := by
  rcases reads_maybe h with rfl | ⟨m₁, h₁, m₂, h₂, m₃, h₃, ht⟩
  · exact ⟨[], t.rest, rfl, Or.inl rfl, t.past_nil.symm⟩
  obtain rfl : t = m₃ := ht
  obtain ⟨mark, rest₁, hs, hmark, rfl⟩ := reads_char h₁
  obtain ⟨sign, rest₂, hrest₁, hsign, rfl⟩ : ∃ sign rest₂, rest₁ = sign ++ rest₂ ∧
      (sign = [] ∨ sign = ['-'] ∨ sign = ['+']) ∧ m₂ = (s.past [mark] rest₁).past sign rest₂ := by
    rcases reads_maybe h₂ with rfl | h₂
    · exact ⟨[], rest₁, rfl, Or.inl rfl, (Spot.past_nil _).symm⟩
    · obtain ⟨c, rest₂, hrest₁, hc, rfl⟩ := reads_char h₂
      refine ⟨[c], rest₂, hrest₁, Or.inr ?_, rfl⟩
      simpa using contains_signs.mp hc
  obtain ⟨digits, rest, hne, hrest₂, hdigits, rfl⟩ := reads_many1 h₃
  obtain rfl : rest₂ = digits ++ rest := hrest₂
  subst hrest₁
  refine ⟨mark :: (sign ++ digits), rest, by simp [hs], Or.inr ⟨mark, sign, digits, rfl,
    contains_pair.mp hmark, hsign, hne, hdigits⟩, ?_⟩
  rw [Spot.past_past, Spot.past_past]
  rfl

/-- What a decimal numeral is made of, without the word boundaries. -/
def decimalBody : Regex :=
  phrase
    [oneOf
      [phrase [many1 digit, maybe (.char (.single '.')), many digit],
        phrase [.char (.single '.'), many1 digit]],
      maybe exponent]

theorem reads_point {s t : Spot} (h : Reads (maybe (.char (.single '.'))) s t) :
    ∃ point rest, s.rest = point ++ rest ∧ (point = [] ∨ point = ['.']) ∧
      t = s.past point rest := by
  rcases reads_maybe h with rfl | h
  · exact ⟨[], t.rest, rfl, Or.inl rfl, t.past_nil.symm⟩
  · obtain ⟨c, rest, hs, hc, rfl⟩ := reads_char h
    obtain rfl : '.' = c := by simpa using hc
    exact ⟨['.'], rest, hs, Or.inr rfl, rfl⟩

theorem reads_decimalBody {s t : Spot} (h : Reads decimalBody s t) :
    ∃ w rest, s.rest = w ++ rest ∧ IsDecimal w ∧ t = s.past w rest := by
  obtain ⟨m, hm, m', h', ht⟩ := h
  obtain rfl : t = m' := ht
  obtain ⟨w, rest, hs, hw, rfl⟩ : ∃ w rest, s.rest = w ++ rest ∧
      (∃ whole point fraction, w = whole ++ (point ++ fraction) ∧
        (∀ c ∈ whole, digit.contains c = true) ∧ (∀ c ∈ fraction, digit.contains c = true) ∧
        (point = [] ∨ point = ['.']) ∧ (whole ≠ [] ∨ point = ['.'] ∧ fraction ≠ [])) ∧
      m = s.past w rest := by
    rcases hm with ⟨m₁, h₁, m₂, h₂, m₃, h₃, hm⟩ | ⟨m₁, h₁, m₂, h₂, hm⟩
    · obtain rfl : m = m₃ := hm
      obtain ⟨whole, rest₁, hne, hs, hwhole, rfl⟩ := reads_many1 h₁
      obtain ⟨point, rest₂, hrest₁, hpoint, rfl⟩ := reads_point h₂
      obtain ⟨fraction, rest, hrest₂, hfraction, rfl⟩ := reads_many h₃
      obtain rfl : rest₁ = point ++ rest₂ := hrest₁
      obtain rfl : rest₂ = fraction ++ rest := hrest₂
      refine ⟨_, rest, by simp [hs], ⟨whole, point, fraction, rfl, hwhole, hfraction, hpoint,
        Or.inl hne⟩, by rw [Spot.past_past, Spot.past_past]⟩
    · obtain rfl : m = m₂ := hm
      obtain ⟨c, rest₁, hs, hc, rfl⟩ := reads_char h₁
      obtain ⟨fraction, rest, hne, hrest₁, hfraction, rfl⟩ := reads_many1 h₂
      obtain rfl : rest₁ = fraction ++ rest := hrest₁
      obtain rfl : '.' = c := by simpa using hc
      exact ⟨_, rest, by simp [hs], ⟨[], ['.'], fraction, rfl, by simp, hfraction, Or.inr rfl,
        Or.inr ⟨rfl, hne⟩⟩, Spot.past_past ..⟩
  obtain ⟨exponent, rest', hrest, hexponent, rfl⟩ := reads_exponent h'
  obtain rfl : rest = exponent ++ rest' := hrest
  obtain ⟨whole, point, fraction, rfl, hwhole, hfraction, hpoint, hsome⟩ := hw
  exact ⟨_, rest', by simp [hs], ⟨whole, point, fraction, exponent, by simp, hwhole, hfraction,
    hpoint, hsome, hexponent⟩, Spot.past_past ..⟩

/-- What a hexadecimal numeral is made of, without the word boundaries. -/
def hexadecimalBody : Regex :=
  phrase [.char (.single '0'), .char (anyOf [.single 'x', .single 'X']), many1 hexDigit]

theorem reads_hexadecimalBody {s t : Spot} (h : Reads hexadecimalBody s t) :
    ∃ w rest, s.rest = w ++ rest ∧ IsHexadecimal w ∧ t = s.past w rest := by
  obtain ⟨m₁, h₁, m₂, h₂, m₃, h₃, ht⟩ := h
  obtain rfl : t = m₃ := ht
  obtain ⟨zero, rest₁, hs, hzero, rfl⟩ := reads_char h₁
  obtain ⟨mark, rest₂, hrest₁, hmark, rfl⟩ := reads_char h₂
  obtain ⟨digits, rest, hne, hrest₂, hdigits, rfl⟩ := reads_many1 h₃
  obtain rfl : rest₁ = mark :: rest₂ := hrest₁
  obtain rfl : rest₂ = digits ++ rest := hrest₂
  obtain rfl : '0' = zero := by simpa using hzero
  refine ⟨_, rest, by simp [hs], ⟨mark, digits, rfl, contains_pair.mp hmark, hne, hdigits⟩, ?_⟩
  rw [Spot.past_past, Spot.past_past]
  rfl

/-- What a decimal numeral can go on with, whatever stands in front. -/
def numeralPart : CharSet :=
  anyOf [.range '0' '9', .single '.', .single 'e', .single 'E']

/-- No decimal numeral goes on with this. -/
def EndsNumeral (rest : List Char) : Prop :=
  ∀ c ∈ rest.head?, numeralPart.contains c = false

theorem EndsNumeral.not_mem {rest : List Char} (h : EndsNumeral rest) {set : CharSet}
    (hset : set.inAscii = true)
    (hpart : ∀ n < 128,
      (!set.contains (Char.ofNat n) || numeralPart.contains (Char.ofNat n)) = true) :
    ∀ c ∈ rest.head?, set.contains c = false := by
  intro c hc
  rw [Bool.eq_false_iff]
  intro hmem
  have hpart' : numeralPart.contains c = true :=
    CharSet.forall_mem (p := numeralPart.contains) hset hpart hmem
  rw [h c hc] at hpart'
  exact Bool.noConfusion hpart'

theorem Closing.endsNumeral {rest : List Char} (h : Closing rest) : EndsNumeral rest :=
  h.not_mem (by decide)

section Found

variable {α : Type} {k : Spot → Option α} {s : Spot} {rest : List Char}

/-- Behind the digits of a numeral comes its exponent, or what ends it. -/
theorem IsExponent.head {w : List Char} (h : IsExponent w) {set : CharSet}
    (hmark : (set.contains 'e' || set.contains 'E') = false)
    (hrest : ∀ c ∈ rest.head?, set.contains c = false) :
    ∀ c ∈ (w ++ rest).head?, set.contains c = false := by
  rw [Bool.or_eq_false_iff] at hmark
  rcases h with rfl | ⟨mark, sign, digits, rfl, hcase, -⟩
  · exact hrest
  · intro c hc
    obtain rfl := Option.some.inj hc
    rcases hcase with rfl | rfl
    · exact hmark.1
    · exact hmark.2

theorem find_exponent {w : List Char} (h : IsExponent w) (hrest : EndsNumeral rest)
    (hs : s.rest = w ++ rest) (hk : (k (s.past w rest)).isSome) :
    find (maybe exponent) k s = k (s.past w rest) := by
  rw [find_maybe]
  rcases h with rfl | ⟨mark, sign, digits, rfl, hmark, hsign, hne, hdigits⟩
  · obtain rfl : s.rest = rest := hs
    have hheads : ∀ c ∈ s.rest.head?, exponent.heads.contains c = false :=
      hrest.not_mem rfl (by decide +kernel)
    rw [find_eq_none rfl hheads, Option.none_or, s.past_nil]
  · have hstop : ∀ c ∈ rest.head?, digit.contains c = false :=
      hrest.not_mem rfl (by decide +kernel)
    have hs₁ : s.rest = mark :: (sign ++ (digits ++ rest)) := by simpa using hs
    have hbehind : ((s.past [mark] (sign ++ (digits ++ rest))).past sign (digits ++ rest)).past
        digits rest = s.past (mark :: (sign ++ digits)) rest := by
      rw [Spot.past_past, Spot.past_past]
      rfl
    rw [← hbehind] at hk ⊢
    have hdigits' := find_many1 (k := find (phrase []) k) rfl hdigits hstop hk hne
    have hsign' : sign = [] ∧ (∀ c ∈ (digits ++ rest).head?, signs.contains c = false) ∨
        ∃ c, sign = [c] ∧ signs.contains c = true := by
      rcases hsign with rfl | rfl | rfl
      · refine Or.inl ⟨rfl, fun c hc => ?_⟩
        obtain ⟨d, digits, rfl⟩ := List.exists_cons_of_ne_nil hne
        obtain rfl := Option.some.inj hc
        exact signs_of_digit (hdigits d List.mem_cons_self)
      · exact Or.inr ⟨'-', rfl, by decide⟩
      · exact Or.inr ⟨'+', rfl, by decide⟩
    have hfind : find exponent k s = k (((s.past [mark] (sign ++ (digits ++ rest))).past sign
        (digits ++ rest)).past digits rest) := by
      rw [exponent, find_phrase_cons, find_char hs₁ (contains_pair.mpr hmark), find_phrase_cons]
      refine (find_maybe_char rfl hsign' ?_).trans hdigits'
      rw [find_phrase_cons, hdigits']
      exact hk
    obtain ⟨x, hx⟩ := Option.isSome_iff_exists.mp hk
    rw [hfind, hx, Option.some_or]

/-- A numeral that begins with a digit. -/
theorem find_decimalBody {whole point fraction exponent : List Char} (hne : whole ≠ [])
    (hwhole : ∀ c ∈ whole, digit.contains c = true)
    (hfraction : ∀ c ∈ fraction, digit.contains c = true)
    (hpoint : point = [] ∧ fraction = [] ∨ point = ['.']) (hexponent : IsExponent exponent)
    (hrest : EndsNumeral rest) (hs : s.rest = whole ++ (point ++ (fraction ++ exponent)) ++ rest)
    (hk : (k (s.past (whole ++ (point ++ (fraction ++ exponent))) rest)).isSome) :
    find decimalBody k s = k (s.past (whole ++ (point ++ (fraction ++ exponent))) rest) := by
  have hbehind : (((s.past whole (point ++ (fraction ++ (exponent ++ rest)))).past point
      (fraction ++ (exponent ++ rest))).past fraction (exponent ++ rest)).past exponent rest =
      s.past (whole ++ (point ++ (fraction ++ exponent))) rest := by
    rw [Spot.past_past, Spot.past_past, Spot.past_past]
  rw [← hbehind] at hk ⊢
  have hdigits : ∀ c ∈ rest.head?, digit.contains c = false :=
    hrest.not_mem rfl (by decide +kernel)
  have hpoints : ∀ c ∈ rest.head?, (CharSet.single '.').contains c = false :=
    hrest.not_mem rfl (by decide +kernel)
  -- from the last piece back: each is found if those behind it are
  have hexponent' := find_exponent hexponent hrest rfl hk
  rw [← hexponent'] at hk ⊢
  have hfraction' := find_many (k := find (phrase [maybe Grammar.exponent]) k) rfl hfraction
    (hexponent.head (by decide) hdigits) hk
  have hpoint' : point = [] ∧ (∀ c ∈ (fraction ++ (exponent ++ rest)).head?,
      (CharSet.single '.').contains c = false) ∨
        ∃ c, point = [c] ∧ (CharSet.single '.').contains c = true := by
    rcases hpoint with ⟨rfl, rfl⟩ | rfl
    · exact Or.inl ⟨rfl, hexponent.head (by decide) hpoints⟩
    · exact Or.inr ⟨'.', rfl, by decide⟩
  have hpoint'' := find_maybe_char (k := find (phrase [many digit])
    (find (phrase [maybe Grammar.exponent]) k)) rfl hpoint'
    (by rw [find_phrase_cons]; exact (congrArg Option.isSome hfraction').trans hk)
  have hstop : ∀ c ∈ (point ++ (fraction ++ (exponent ++ rest))).head?,
      digit.contains c = false := by
    rcases hpoint with ⟨rfl, rfl⟩ | rfl
    · exact hexponent.head (by decide) hdigits
    · intro c hc
      obtain rfl := Option.some.inj hc
      decide
  have htail := hpoint''.trans hfraction'
  have hwhole' := find_many1 (k := find (phrase [maybe (.char (.single '.')), many digit])
    (find (phrase [maybe Grammar.exponent]) k)) (by simpa using hs) hwhole hstop
    ((congrArg Option.isSome htail).trans hk) hne
  have hfirst := hwhole'.trans htail
  obtain ⟨x, hx⟩ := Option.isSome_iff_exists.mp hk
  rw [hx]
  exact congrArg (· <|> find (phrase [.char (.single '.'), many1 digit])
    (find (phrase [maybe Grammar.exponent]) k) s) (hfirst.trans hx)

/-- A numeral that begins with a point. -/
theorem find_decimalBody_of_point {fraction exponent : List Char} (hne : fraction ≠ [])
    (hfraction : ∀ c ∈ fraction, digit.contains c = true) (hexponent : IsExponent exponent)
    (hrest : EndsNumeral rest) (hs : s.rest = '.' :: (fraction ++ exponent) ++ rest)
    (hk : (k (s.past ('.' :: (fraction ++ exponent)) rest)).isSome) :
    find decimalBody k s = k (s.past ('.' :: (fraction ++ exponent)) rest) := by
  have hbehind : ((s.past ['.'] (fraction ++ (exponent ++ rest))).past fraction
      (exponent ++ rest)).past exponent rest = s.past ('.' :: (fraction ++ exponent)) rest := by
    rw [Spot.past_past, Spot.past_past]
    rfl
  rw [← hbehind] at hk ⊢
  have hexponent' := find_exponent hexponent hrest rfl hk
  rw [← hexponent'] at hk ⊢
  have hfraction' := find_many1 (k := find (phrase [maybe Grammar.exponent]) k) rfl hfraction
    (hexponent.head (by decide) (hrest.not_mem rfl (by decide +kernel))) hk hne
  have hs' : s.rest = '.' :: (fraction ++ (exponent ++ rest)) := by simpa using hs
  have hpoint : find (phrase [.char (.single '.'), many1 digit])
      (find (phrase [maybe Grammar.exponent]) k) s =
        find (phrase [maybe Grammar.exponent]) k
          ((s.past ['.'] (fraction ++ (exponent ++ rest))).past fraction (exponent ++ rest)) := by
    rw [find_phrase_cons, find_char hs' (by decide), find_phrase_cons]
    exact hfraction'
  have hnone : find (phrase [many1 digit, maybe (.char (.single '.')), many digit])
      (find (phrase [maybe Grammar.exponent]) k) s = none := by
    refine find_eq_none rfl fun c hc => ?_
    rw [hs] at hc
    obtain rfl := Option.some.inj hc
    decide
  refine (congrArg (· <|> find (phrase [.char (.single '.'), many1 digit])
    (find (phrase [maybe Grammar.exponent]) k) s) hnone).trans ?_
  rw [Option.orElse_eq_orElse, Option.orElse_eq_or, Option.none_or]
  exact hpoint

theorem find_hexadecimalBody {w : List Char} (h : IsHexadecimal w)
    (hstop : ∀ c ∈ rest.head?, hexDigit.contains c = false) (hs : s.rest = w ++ rest)
    (hk : (k (s.past w rest)).isSome) :
    find hexadecimalBody k s = k (s.past w rest) := by
  obtain ⟨mark, digits, rfl, hmark, hne, hdigits⟩ := h
  have hbehind : ((s.past ['0'] (mark :: (digits ++ rest))).past [mark] (digits ++ rest)).past
      digits rest = s.past ('0' :: mark :: digits) rest := by
    rw [Spot.past_past, Spot.past_past]
    rfl
  rw [← hbehind] at hk ⊢
  rw [hexadecimalBody, find_phrase_cons, find_char hs (by simp), find_phrase_cons,
    find_char rfl (contains_pair.mpr hmark), find_phrase_cons]
  exact find_many1 rfl hdigits hstop hk hne

end Found

theorem isWord_of_digit {c : Char} (h : digit.contains c = true) : Text.Unicode.isWord c = true :=
  CharSet.forall_mem rfl (by decide +kernel) h

theorem isWord_of_hexDigit {c : Char} (h : hexDigit.contains c = true) :
    Text.Unicode.isWord c = true :=
  CharSet.forall_mem rfl (by decide +kernel) h

theorem IsExponent.getLast? {w : List Char} (h : IsExponent w) :
    w = [] ∨ ∃ c, w.getLast? = some c ∧ digit.contains c = true := by
  rcases h with rfl | ⟨mark, sign, digits, rfl, -, -, hne, hdigits⟩
  · exact Or.inl rfl
  · refine Or.inr ⟨digits.getLast hne, ?_, hdigits _ (List.getLast_mem hne)⟩
    rw [List.getLast?_cons, List.getLast?_append, List.getLast?_eq_some_getLast hne]
    rfl

/-- A decimal numeral begins with a digit or with a point, and the point has a fraction behind
it. -/
theorem IsDecimal.shape {w : List Char} (h : IsDecimal w) :
    ∃ whole point fraction exponent, w = whole ++ (point ++ (fraction ++ exponent)) ∧
      (∀ c ∈ whole, digit.contains c = true) ∧ (∀ c ∈ fraction, digit.contains c = true) ∧
      IsExponent exponent ∧
      (whole ≠ [] ∧ (point = [] ∧ fraction = [] ∨ point = ['.']) ∨
        whole = [] ∧ point = ['.'] ∧ fraction ≠ []) := by
  obtain ⟨whole, point, fraction, exponent, rfl, hwhole, hfraction, hpoint, hsome, hexponent⟩ := h
  by_cases hne : whole = []
  · obtain ⟨hpoint, hf⟩ := hsome.resolve_left (not_not.mpr hne)
    exact ⟨whole, point, fraction, exponent, rfl, hwhole, hfraction, hexponent,
      Or.inr ⟨hne, hpoint, hf⟩⟩
  rcases hpoint with rfl | hpoint
  · refine ⟨whole ++ fraction, [], [], exponent, by simp, ?_, by simp, hexponent,
      Or.inl ⟨by simp [hne], Or.inl ⟨rfl, rfl⟩⟩⟩
    intro c hc
    rcases List.mem_append.mp hc with hc | hc
    · exact hwhole c hc
    · exact hfraction c hc
  · exact ⟨whole, point, fraction, exponent, rfl, hwhole, hfraction, hexponent,
      Or.inl ⟨hne, Or.inr hpoint⟩⟩

theorem IsDecimal.head {w : List Char} (h : IsDecimal w) :
    ∃ c cs, w = c :: cs ∧ (digit.contains c = true ∨ c = '.') := by
  obtain ⟨whole, point, fraction, exponent, rfl, hwhole, -, -, ⟨hne, -⟩ | ⟨rfl, rfl, -⟩⟩ := h.shape
  · obtain ⟨c, cs, rfl⟩ := List.exists_cons_of_ne_nil hne
    exact ⟨c, _, rfl, Or.inl (hwhole c List.mem_cons_self)⟩
  · exact ⟨'.', _, rfl, Or.inr rfl⟩

theorem IsDecimal.last {w : List Char} (h : IsDecimal w) :
    ∃ c, w.getLast? = some c ∧ (digit.contains c = true ∨ c = '.') := by
  obtain ⟨whole, point, fraction, exponent, rfl, hwhole, hfraction, hexponent, hshape⟩ := h.shape
  rcases hexponent.getLast? with rfl | ⟨c, hc, hd⟩
  · by_cases hf : fraction = []
    · obtain ⟨hne, ⟨rfl, -⟩ | rfl⟩ | ⟨-, -, hne⟩ := hshape
      · exact ⟨whole.getLast hne, by simp [hf, List.getLast?_eq_some_getLast hne],
          Or.inl (hwhole _ (List.getLast_mem hne))⟩
      · exact ⟨'.', by simp [hf], Or.inr rfl⟩
      · exact absurd hf hne
    · exact ⟨fraction.getLast hf, by simp [List.getLast?_append,
        List.getLast?_eq_some_getLast hf], Or.inl (hfraction _ (List.getLast_mem hf))⟩
  · exact ⟨c, by simp [List.getLast?_append, hc], Or.inl hd⟩

theorem decimal_segment {source : String}
    (h : TokenPattern.segment? ⟨.number, source, decimalForm⟩ before text = some s) :
    ∃ w rest, text = w ++ rest ∧ IsDecimal w ∧ w ≠ [] ∧ Edge before text ∧
      Edge w.getLast? rest ∧ s = ⟨.number, w, [some w], rest⟩ :=
  framed_sound (fun _ _ => reads_decimalBody) h

theorem hexadecimal_segment {source : String}
    (h : TokenPattern.segment? ⟨.number, source, hexadecimalForm⟩ before text = some s) :
    ∃ w rest, text = w ++ rest ∧ IsHexadecimal w ∧ w ≠ [] ∧ Edge before text ∧
      Edge w.getLast? rest ∧ s = ⟨.number, w, [some w], rest⟩ :=
  framed_sound (fun _ _ => reads_hexadecimalBody) h

section Taken

variable {source : String} {w rest : List Char}

/-- A decimal numeral is taken as a whole between word boundaries, if none goes on behind it. -/
theorem decimal_taken (h : IsDecimal w) (hfront : Edge before (w ++ rest))
    (hback : Edge w.getLast? rest) (hrest : EndsNumeral rest) :
    TokenPattern.segment? ⟨.number, source, decimalForm⟩ before (w ++ rest) =
      some ⟨.number, w, [some w], rest⟩ := by
  obtain ⟨d, ds, hd, -⟩ := h.head
  have hne : w ≠ [] := fun h0 => List.cons_ne_nil d ds (hd.symm.trans h0)
  obtain ⟨whole, point, fraction, exponent, rfl, hwhole, hfraction, hexponent, hshape⟩ := h.shape
  rcases hshape with ⟨hwhole', hpoint⟩ | ⟨rfl, rfl, hfraction'⟩
  · exact framed_complete hne (fun k hk => find_decimalBody hwhole' hwhole hfraction hpoint
      hexponent hrest rfl hk) hfront hback
  · refine framed_complete hne (fun k hk => ?_) hfront hback
    exact (find_decimalBody_of_point hfraction' hfraction hexponent hrest rfl hk :)

theorem IsHexadecimal.last (h : IsHexadecimal w) :
    ∃ c, w.getLast? = some c ∧ Text.Unicode.isWord c = true := by
  obtain ⟨mark, digits, rfl, -, hne, hdigits⟩ := h
  refine ⟨digits.getLast hne, ?_, isWord_of_hexDigit (hdigits _ (List.getLast_mem hne))⟩
  rw [List.getLast?_cons_cons, List.getLast?_cons, List.getLast?_eq_some_getLast hne]
  rfl

/-- A hexadecimal numeral is taken as a whole between word boundaries. -/
theorem hexadecimal_taken (h : IsHexadecimal w) (hfront : Edge before (w ++ rest))
    (hback : Edge w.getLast? rest) :
    TokenPattern.segment? ⟨.number, source, hexadecimalForm⟩ before (w ++ rest) =
      some ⟨.number, w, [some w], rest⟩ := by
  obtain ⟨last, hlast, hword⟩ := h.last
  have hstop : ∀ c ∈ rest.head?, hexDigit.contains c = false := by
    intro c hc
    rw [Bool.eq_false_iff]
    intro hmem
    rw [Edge, hlast, Option.mem_def.mp hc] at hback
    simp [hword, isWord_of_hexDigit hmem] at hback
  have hne : w ≠ [] := fun h0 => by simp [h0] at hlast
  exact framed_complete hne (fun k hk => find_hexadecimalBody h hstop rfl hk) hfront hback

end Taken

theorem IsDecimal.mem {w : List Char} (h : IsDecimal w) {c : Char} (hc : c ∈ w) :
    digit.contains c = true ∨ c ∈ ['.', 'e', 'E', '-', '+'] := by
  obtain ⟨whole, point, fraction, exponent, rfl, hwhole, hfraction, hpoint, -, hexponent⟩ := h
  rw [List.mem_append, List.mem_append, List.mem_append] at hc
  rcases hc with hc | hc | hc | hc
  · exact Or.inl (hwhole c hc)
  · rcases hpoint with rfl | rfl
    · simp at hc
    · exact Or.inr (List.mem_append_left ['e', 'E', '-', '+'] hc)
  · exact Or.inl (hfraction c hc)
  · rcases hexponent with rfl | ⟨mark, sign, digits, rfl, hmark, hsign, -, hdigits⟩
    · simp at hc
    · rw [List.mem_cons, List.mem_append] at hc
      rcases hc with rfl | hc | hc
      · rcases hmark with rfl | rfl <;> simp
      · rcases hsign with rfl | rfl | rfl <;> simp_all
      · exact Or.inl (hdigits c hc)

theorem decimal_none {source : String} {mark : Char} {cs : List Char}
    (hmark : mark = 'x' ∨ mark = 'X') :
    TokenPattern.segment? ⟨.number, source, decimalForm⟩ before ('0' :: mark :: cs) = none := by
  rcases hs : TokenPattern.segment? ⟨.number, source, decimalForm⟩ before ('0' :: mark :: cs)
    with _ | s
  · rfl
  obtain ⟨w, rest, htext, hw, hne, -, hback, -⟩ := decimal_segment hs
  exfalso
  rcases w with _ | ⟨zero, _ | ⟨c, w⟩⟩
  · exact hne rfl
  · obtain ⟨rfl, rfl⟩ := List.cons.inj htext
    have hword : Text.Unicode.isWord mark = true := by
      rcases hmark with rfl | rfl <;> decide
    have hboth : (true != Text.Unicode.isWord mark) = true := hback
    rw [hword] at hboth
    exact Bool.noConfusion hboth
  · obtain ⟨rfl, -⟩ := List.cons.inj (List.cons.inj htext).2
    have hmem := hw.mem (List.mem_cons_of_mem _ List.mem_cons_self)
    rcases hmark with rfl | rfl
    · exact absurd hmem (by decide)
    · exact absurd hmem (by decide)

end Grammar

end Precedence
