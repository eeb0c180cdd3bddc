import Precedence.Proofs.LineScanner.Sites
import Precedence.Proofs.Number.Range

/-!
# Numerals of the line scanner

A numeral has digits of any script, perhaps some behind a point, and perhaps an exponent
(`NumeralForm`). The scanner reads each one as a lexeme, and nothing else as a lexeme of that kind.
It refuses a numeral for which there is no finite floating-point number, and one with a digit that
is no ASCII character (`NumeralForm.Refused`); whatever else it does not scan is a lexical error
(`refusals_explained`).
-/

namespace Precedence.LineScanner

open Number Text

/-- A row of digits, which may be of any script. -/
structure Digits where
  chars : List Char
  ne_nil : chars ≠ []
  digit : ∀ c ∈ chars, Unicode.isDigit c = true

structure Exponent where
  mark : Char
  mark_eq : mark = 'e' ∨ mark = 'E'
  sign : List Char
  sign_eq : sign = [] ∨ sign = ['+'] ∨ sign = ['-']
  digits : Digits

/-- A numeral by its parts: its first digits, those behind a point, and an exponent. -/
structure NumeralForm where
  whole : Digits
  fraction : Option Digits
  exponent : Option Exponent

def Exponent.text (e : Exponent) : List Char :=
  e.mark :: (e.sign ++ e.digits.chars)

def Exponent.value (e : Exponent) : Int :=
  if e.sign = ['-'] then -digitsValue e.digits.chars else digitsValue e.digits.chars

def fractionText (fraction : Option Digits) : List Char :=
  fraction.elim [] fun ds => '.' :: ds.chars

def exponentText (exponent : Option Exponent) : List Char :=
  exponent.elim [] Exponent.text

namespace NumeralForm

def text (n : NumeralForm) : List Char :=
  n.whole.chars ++ (fractionText n.fraction ++ exponentText n.exponent)

/-- The digits behind the point. -/
def places (n : NumeralForm) : List Char :=
  n.fraction.elim [] Digits.chars

/-- All digits are among the ten of the ASCII characters. -/
structure Ascii (n : NumeralForm) : Prop where
  whole : ∀ c ∈ n.whole.chars, isDigit c = true
  places : ∀ c ∈ n.places, isDigit c = true
  exponent : ∀ e ∈ n.exponent, ∀ c ∈ e.digits.chars, isDigit c = true

/-- The number that a numeral of ASCII digits is written for. -/
def value (n : NumeralForm) : ℚ :=
  (digitsValue n.whole.chars + digitsValue n.places / 10 ^ n.places.length) *
    10 ^ n.exponent.elim 0 Exponent.value

end NumeralForm

/-! ### Reading a numeral -/

theorem digitsValue_append (a b : List Char) :
    digitsValue (a ++ b) = digitsValue a * 10 ^ b.length + digitsValue b := by
  have hfoldl : ∀ start, b.foldl (fun value c => 10 * value + digitValue c) start =
      start * 10 ^ b.length + digitsValue b := by
    unfold digitsValue
    induction b with
    | nil => simp
    | cons c b ih =>
      intro start
      rw [List.foldl_cons, List.foldl_cons, ih, ih (10 * 0 + digitValue c), List.length_cons]
      ring
  rw [digitsValue, List.foldl_append, hfoldl]
  rfl

theorem takeWhile_digits {ds rest : List Char} (hds : ∀ c ∈ ds, isDigit c = true)
    (hrest : ∀ c ∈ rest.head?, isDigit c = false) :
    (ds ++ rest).takeWhile isDigit = ds ∧ (ds ++ rest).dropWhile isDigit = rest := by
  rw [List.takeWhile_append_of_pos hds, List.dropWhile_append_of_pos hds]
  rcases rest with _ | ⟨c, rest⟩
  · simp
  · have hc : ¬ isDigit c = true := by simp [hrest c rfl]
    rw [List.takeWhile_cons_of_neg hc, List.dropWhile_cons_of_neg hc]
    simp

/-- What stands in a numeral besides digits. -/
def numeralMarks : List Char :=
  ['+', '-', '.', 'e', 'E']

theorem not_mark_of_digit {c : Char} (h : Unicode.isDigit c = true ∨ isDigit c = true) :
    c ∉ numeralMarks := by
  have hmarks : numeralMarks.all (fun c => !Unicode.isDigit c && !isDigit c) = true := by decide
  intro hc
  have hc := List.all_eq_true.mp hmarks c hc
  simp only [Bool.and_eq_true, Bool.not_eq_true'] at hc
  simp [hc] at h

theorem readSign_of_digit {text : List Char}
    (h : ∀ c ∈ text.head?, Unicode.isDigit c = true ∨ isDigit c = true) :
    Decimal.readSign text = (false, text) := by
  unfold Decimal.readSign
  split
  · exact absurd (by decide) (not_mark_of_digit (h '-' rfl))
  · exact absurd (by decide) (not_mark_of_digit (h '+' rfl))
  · rfl

section Pieces

variable {whole places exponent : List Char} {x : Int} (hne : whole ≠ [])
  (hwhole : ∀ c ∈ whole, isDigit c = true)
  (hexponent : ∀ c ∈ exponent.head?, isDigit c = false ∧ c ≠ '.')
  (hx : Decimal.readExponent exponent = some x)

include hne hwhole in
theorem readSign_append (rest : List Char) :
    Decimal.readSign (whole ++ rest) = (false, whole ++ rest) := by
  obtain ⟨c, cs, rfl⟩ := List.exists_cons_of_ne_nil hne
  refine readSign_of_digit fun d hd => Or.inr ?_
  obtain rfl := Option.some.inj hd
  exact hwhole c List.mem_cons_self

include hne hwhole hexponent hx

theorem read_of_whole :
    Decimal.read (whole ++ exponent) = some ⟨false, digitsValue whole, x⟩ := by
  obtain ⟨htake, hdrop⟩ := takeWhile_digits hwhole fun c hc => (hexponent c hc).1
  rw [Decimal.read, readSign_append hne hwhole]
  simp only [htake, hdrop]
  split
  · next rest _ => exact absurd rfl (hexponent '.' rfl).2
  · simp [hne, hx]

theorem read_of_point (hplaces : ∀ c ∈ places, isDigit c = true) :
    Decimal.read (whole ++ '.' :: (places ++ exponent)) =
      some ⟨false, digitsValue (whole ++ places), x - places.length⟩ := by
  have hpoint : ∀ c ∈ ('.' :: (places ++ exponent)).head?, isDigit c = false := by
    intro c hc
    obtain rfl := Option.some.inj hc
    decide
  obtain ⟨htake, hdrop⟩ := takeWhile_digits hwhole hpoint
  obtain ⟨htake', hdrop'⟩ := takeWhile_digits hplaces fun c hc => (hexponent c hc).1
  rw [Decimal.read, readSign_append hne hwhole]
  simp [htake, hdrop, htake', hdrop', hne, hx]

end Pieces

theorem Digits.head (ds : Digits) (rest : List Char) :
    ∀ c ∈ (ds.chars ++ rest).head?, Unicode.isDigit c = true := by
  obtain ⟨d, chars, hchars⟩ := List.exists_cons_of_ne_nil ds.ne_nil
  intro c hc
  rw [hchars] at hc
  obtain rfl := Option.some.inj hc
  exact ds.digit _ (hchars ▸ List.mem_cons_self)

theorem Exponent.readSign (e : Exponent) :
    Decimal.readSign (e.sign ++ e.digits.chars) = (decide (e.sign = ['-']), e.digits.chars) := by
  rcases e.sign_eq with h | h | h
  · rw [h, List.nil_append]
    exact readSign_of_digit fun c hc => Or.inl (e.digits.head [] c (by simpa using hc))
  · rw [h]
    rfl
  · rw [h]
    rfl

theorem Exponent.readExponent (e : Exponent) : Decimal.readExponent e.text =
    if e.digits.chars.all isDigit then some e.value else none := by
  have hmark : (decide (e.mark = 'e') || decide (e.mark = 'E')) = true := by simpa using e.mark_eq
  have hne : e.digits.chars.isEmpty = false := by simpa using e.digits.ne_nil
  rw [text, Decimal.readExponent, if_pos hmark, e.readSign]
  by_cases hall : e.digits.chars.all isDigit = true
  · simp [hall, hne, value]
  · simp [hall, hne]

theorem mem_of_readSign (text : List Char) {c : Char} (hc : c ∈ text) :
    c ∈ numeralMarks ∨ c ∈ (Decimal.readSign text).2 := by
  unfold Decimal.readSign
  split
  · rcases List.mem_cons.mp hc with rfl | hc
    · exact Or.inl (by decide)
    · exact Or.inr hc
  · rcases List.mem_cons.mp hc with rfl | hc
    · exact Or.inl (by decide)
    · exact Or.inr hc
  · exact Or.inr hc

theorem digit_of_readExponent {text : List Char} {x : Int}
    (h : Decimal.readExponent text = some x) {c : Char} (hc : c ∈ text) :
    isDigit c = true ∨ c ∈ numeralMarks := by
  rcases text with _ | ⟨mark, rest⟩
  · exact absurd hc List.not_mem_nil
  have hrest : c ∈ rest → c ∈ numeralMarks ∨ c ∈ (Decimal.readSign rest).2 := mem_of_readSign rest
  rw [Decimal.readExponent] at h
  generalize Decimal.readSign rest = signed at h hrest
  obtain ⟨negative, digits⟩ := signed
  simp only at h
  split at h
  case isFalse => simp at h
  next hmark =>
  split at h
  case isTrue => simp at h
  next hdigits =>
  rcases List.mem_cons.mp hc with rfl | hc
  · refine Or.inr ?_
    rcases (by simpa using hmark : c = 'e' ∨ c = 'E') with rfl | rfl <;> decide
  · rcases hrest hc with hc | hc
    · exact Or.inr hc
    · simp only [Bool.or_eq_true, Bool.not_eq_true', not_or, Bool.not_eq_false] at hdigits
      exact Or.inl (List.all_eq_true.mp hdigits.2 c hc)

theorem Exponent.digit_or_mark {e : Exponent} {c : Char} (hc : c ∈ e.text) :
    Unicode.isDigit c = true ∨ c ∈ numeralMarks := by
  have hmark : e.mark ∈ numeralMarks := by
    rcases e.mark_eq with h | h <;> rw [h] <;> decide
  have hsign : ∀ c ∈ e.sign, c ∈ numeralMarks := by
    rcases e.sign_eq with h | h | h <;> simp [h, numeralMarks]
  rcases List.mem_cons.mp hc with rfl | hc
  · exact Or.inr hmark
  rcases List.mem_append.mp hc with hc | hc
  · exact Or.inr (hsign c hc)
  · exact Or.inl (e.digits.digit c hc)

/-- Only what is written with ASCII digits is read. -/
theorem digit_of_read {text : List Char} {d : Decimal} (h : Decimal.read text = some d) {c : Char}
    (hc : c ∈ text) : isDigit c = true ∨ c ∈ numeralMarks := by
  rcases mem_of_readSign text hc with hc | hc
  · exact Or.inr hc
  rw [Decimal.read] at h
  generalize Decimal.readSign text = signed at h hc
  obtain ⟨negative, rest⟩ := signed
  have hrun : ∀ {w : List Char} {c : Char}, c ∈ w → c ∈ w.dropWhile isDigit ∨ isDigit c = true := by
    intro w c hc
    rw [← List.takeWhile_append_dropWhile (p := isDigit) (l := w)] at hc
    exact (List.mem_append.mp hc).symm.imp_right (List.all_eq_true.mp List.all_takeWhile c)
  rcases hrun hc with hc | hc
  · simp only at h
    split at h
    · next tail htail =>
      rw [htail] at hc
      rcases List.mem_cons.mp hc with rfl | hc
      · exact Or.inr (by decide)
      rcases hrun hc with hc | hc
      · simp only at h
        split_ifs at h
        obtain ⟨x, hx, -⟩ := Option.map_eq_some_iff.mp h
        exact digit_of_readExponent hx hc
      · exact Or.inl hc
    · simp only at h
      split_ifs at h
      obtain ⟨x, hx, -⟩ := Option.map_eq_some_iff.mp h
      exact digit_of_readExponent hx hc
  · exact Or.inl hc

theorem head_exponentText (exponent : Option Exponent) :
    ∀ c ∈ (exponentText exponent).head?,
      Unicode.isDigit c = false ∧ isDigit c = false ∧ c ≠ '.' := by
  rcases exponent with _ | e
  · exact fun c hc => absurd hc (Option.not_mem_none c)
  · intro c hc
    obtain rfl : e.mark = c := Option.some.inj hc
    rcases e.mark_eq with h | h <;> rw [h] <;> decide

namespace NumeralForm

variable {n : NumeralForm}

theorem readExponent_exponentText (h : n.Ascii) :
    Decimal.readExponent (exponentText n.exponent) = some (n.exponent.elim 0 Exponent.value) := by
  unfold exponentText
  rcases hexponent : n.exponent with _ | e
  · rfl
  · show Decimal.readExponent e.text = some e.value
    rw [e.readExponent, if_pos (List.all_eq_true.mpr (h.exponent e hexponent))]

theorem read_text (h : n.Ascii) : Decimal.read n.text = some ⟨false,
    digitsValue (n.whole.chars ++ n.places),
    n.exponent.elim 0 Exponent.value - n.places.length⟩ := by
  have hexponent := readExponent_exponentText h
  have hhead := fun c hc => (head_exponentText n.exponent c hc).2
  obtain ⟨whole, _ | ds, exponent⟩ := n
  · have hread := read_of_whole whole.ne_nil h.whole hhead hexponent
    simpa [text, fractionText, places] using hread
  · exact read_of_point whole.ne_nil h.whole hhead hexponent h.places

theorem exists_read (h : n.Ascii) : ∃ d, Decimal.read n.text = some d ∧ d.magnitude = n.value := by
  refine ⟨_, read_text h, ?_⟩
  rw [Decimal.magnitude, value, digitsValue_append, zpow_sub₀ (by norm_num), zpow_natCast]
  push_cast
  field_simp

theorem ascii_of_read {d : Decimal} (h : Decimal.read n.text = some d) : n.Ascii := by
  have hdigit : ∀ c ∈ n.text, Unicode.isDigit c = true → isDigit c = true := fun c hc hdigit =>
    (digit_of_read h hc).resolve_right (not_mark_of_digit (Or.inl hdigit))
  obtain ⟨whole, fraction, exponent⟩ := n
  refine ⟨fun c hc => hdigit c ?_ (whole.digit c hc), fun c hc => ?_, fun e he c hc => ?_⟩
  · exact List.mem_append_left _ hc
  · rcases fraction with _ | ds
    · exact absurd hc List.not_mem_nil
    · refine hdigit c ?_ (ds.digit c hc)
      exact List.mem_append_right _ (List.mem_append_left _ (List.mem_cons_of_mem _ hc))
  · obtain rfl : exponent = some e := he
    refine hdigit c ?_ (e.digits.digit c hc)
    exact List.mem_append_right _ (List.mem_append_right _
      (List.mem_cons_of_mem _ (List.mem_append_right _ hc)))

/-- A numeral has no token if one of its digits is no ASCII character, or if the number that it is
written for is too large for a finite floating-point number. -/
def Refused (n : NumeralForm) : Prop :=
  ¬ n.Ascii ∨ Binary64.overflow ≤ n.value

theorem toBinary64?_eq_none_iff :
    (Decimal.read n.text).bind Decimal.toBinary64? = none ↔ n.Refused := by
  by_cases hascii : n.Ascii
  · obtain ⟨d, hread, hmagnitude⟩ := exists_read hascii
    rw [hread, Option.bind_some, Decimal.toBinary64?_eq_none_iff, hmagnitude]
    exact (or_iff_right (not_not.mpr hascii)).symm
  · rcases hread : Decimal.read n.text with _ | d
    · exact iff_of_true rfl (Or.inl hascii)
    · exact absurd (ascii_of_read hread) hascii

/-- The numeral `1`. -/
def one : NumeralForm where
  whole := ⟨['1'], List.cons_ne_nil _ _, List.all_eq_true.mp (by decide)⟩
  fraction := none
  exponent := none

/-- The numeral `1e400`. -/
def huge : NumeralForm where
  whole := one.whole
  fraction := none
  exponent := some
    { mark := 'e'
      mark_eq := Or.inl rfl
      sign := []
      sign_eq := Or.inl rfl
      digits := ⟨['4', '0', '0'], List.cons_ne_nil _ _, List.all_eq_true.mp (by decide)⟩ }

theorem value_one : one.value = 1 := by
  have hwhole : digitsValue one.whole.chars = 1 := rfl
  have hplaces : digitsValue [] = 0 := rfl
  have hexponent : one.exponent.elim 0 Exponent.value = 0 := rfl
  rw [value, hwhole, hexponent, show one.places = [] from rfl, hplaces]
  norm_num

theorem value_huge : huge.value = 10 ^ (400 : ℤ) := by
  have hwhole : digitsValue huge.whole.chars = 1 := rfl
  have hplaces : digitsValue [] = 0 := rfl
  have hexponent : huge.exponent.elim 0 Exponent.value = 400 := rfl
  rw [value, hwhole, hexponent, show huge.places = [] from rfl, hplaces]
  norm_num

theorem not_refused_one : ¬ one.Refused := by
  rintro (hascii | hlarge)
  · exact hascii ⟨List.forall_mem_singleton.mpr rfl, List.forall_mem_nil _,
      fun e he => absurd he (Option.not_mem_none e)⟩
  · rw [value_one] at hlarge
    exact absurd hlarge (not_le_of_gt Binary64.one_lt_overflow)

theorem refused_huge : huge.Refused := by
  refine Or.inr (Binary64.overflow_le.trans ?_)
  rw [value_huge]
  exact zpow_le_zpow_right₀ (by norm_num) (by decide)

end NumeralForm

/-! ### Numerals are read as lexemes -/

theorem fractionLength_append (fraction : Option Digits) {rest : List Char}
    (hrest : ∀ c ∈ rest.head?, Unicode.isDigit c = false ∧ c ≠ '.') :
    fractionLength (fractionText fraction ++ rest) = (fractionText fraction).length := by
  rcases fraction with _ | ds
  · exact fractionLength_of_head fun c hc => (hrest c hc).2
  · have hrun := runLength_append ds.digit fun c hc => (hrest c hc).1
    have hne : ds.chars.length ≠ 0 := by simpa using ds.ne_nil
    show fractionLength ('.' :: (ds.chars ++ rest)) = ds.chars.length + 1
    rw [fractionLength, hrun, if_neg hne]

theorem exponentLength_append (exponent : Option Exponent) {rest : List Char}
    (hrest : ∀ c ∈ rest.head?, Unicode.isDigit c = false ∧ c ≠ 'e' ∧ c ≠ 'E') :
    exponentLength (exponentText exponent ++ rest) = (exponentText exponent).length := by
  rcases exponent with _ | e
  · exact exponentLength_of_head fun c hc => (hrest c hc).2
  · have hbare : e.sign = [] → ∀ c ∈ (e.digits.chars ++ rest).head?, c ≠ '+' ∧ c ≠ '-' := by
      intro _ c hc
      have hmark := not_mark_of_digit (Or.inl (e.digits.head rest c hc))
      exact ⟨fun h => hmark (h ▸ by decide), fun h => hmark (h ▸ by decide)⟩
    have hlength := exponentLength_eq e.mark_eq e.sign_eq e.digits.digit hbare
      fun c hc => (hrest c hc).1
    have hne : e.digits.chars.length ≠ 0 := by simpa using e.digits.ne_nil
    rw [if_neg hne] at hlength
    show exponentLength (e.mark :: (e.sign ++ e.digits.chars ++ rest)) = _
    rw [List.append_assoc, hlength]
    simp [exponentText, Exponent.text, Nat.add_comm]

theorem exists_fraction (text : List Char) : ∃ fraction rest, text = fractionText fraction ++ rest ∧
    fractionLength text = (fractionText fraction).length := by
  by_cases hpoint : text.head? = some '.'
  · obtain ⟨tail, rfl⟩ := List.head?_eq_some_iff.mp hpoint
    obtain ⟨ds, rest, rfl, hlength, hds, -⟩ := runLength_reads Unicode.isDigit tail
    have hfraction : fractionLength ('.' :: (ds ++ rest)) =
        if ds.length = 0 then 0 else ds.length + 1 := by
      rw [fractionLength, hlength]
    by_cases hne : ds = []
    · exact ⟨none, _, rfl, by rw [hfraction, hne]; rfl⟩
    · refine ⟨some ⟨ds, hne, hds⟩, rest, rfl, ?_⟩
      rw [hfraction, if_neg (by simpa using hne)]
      rfl
  · exact ⟨none, text, rfl, fractionLength_of_head fun c hc hne => hpoint (hne ▸ hc)⟩

theorem exists_exponent (text : List Char) : ∃ exponent rest, text = exponentText exponent ++ rest ∧
    exponentLength text = (exponentText exponent).length := by
  by_cases hmark : ∃ mark ∈ text.head?, mark = 'e' ∨ mark = 'E'
  · obtain ⟨mark, hhead, hmark⟩ := hmark
    obtain ⟨tail, rfl⟩ := List.head?_eq_some_iff.mp hhead
    obtain ⟨sign, digits, rfl, hsign, hbare⟩ := exists_sign tail
    obtain ⟨ds, rest, rfl, -, hds, hrest⟩ := runLength_reads Unicode.isDigit digits
    have hlength := exponentLength_eq hmark hsign hds hbare hrest
    by_cases hne : ds = []
    · exact ⟨none, _, rfl, by rw [hlength, hne]; rfl⟩
    · refine ⟨some ⟨mark, hmark, sign, hsign, ds, hne, hds⟩, rest, ?_, ?_⟩
      · simp [exponentText, Exponent.text]
      · rw [hlength, if_neg (by simpa using hne)]
        simp [exponentText, Exponent.text, Nat.add_comm]
  · exact ⟨none, text, rfl, exponentLength_of_head fun c hc =>
      ⟨fun h => hmark ⟨c, hc, Or.inl h⟩, fun h => hmark ⟨c, hc, Or.inr h⟩⟩⟩

/-- What a lexeme of that kind reads is a numeral. -/
theorem exists_numeral {text : List Char} {lexeme : Lexeme} (h : lexeme? text = some lexeme)
    (hkind : lexeme.kind = .number) : ∃ n : NumeralForm, text.take lexeme.length = n.text := by
  obtain ⟨c, cs, rfl, hc⟩ := (begins_of_lexeme h).2.1 hkind
  obtain ⟨ds, tail, rfl, hlength, hds, -⟩ := runLength_reads Unicode.isDigit cs
  obtain ⟨fraction, tail, rfl, hfraction⟩ := exists_fraction tail
  obtain ⟨exponent, rest, rfl, hexponent⟩ := exists_exponent tail
  have hlexeme :=
    lexeme?_of_digit hc (ds ++ (fractionText fraction ++ (exponentText exponent ++ rest)))
  rw [hlength, List.drop_left, numberTailLength, hfraction, List.drop_left, hexponent] at hlexeme
  obtain rfl := Option.some.inj (hlexeme.symm.trans h)
  refine ⟨⟨⟨c :: ds, List.cons_ne_nil _ _, List.forall_mem_cons.mpr ⟨hc, hds⟩⟩, fraction, exponent⟩,
    ?_⟩
  have hread : c :: (ds ++ (fractionText fraction ++ (exponentText exponent ++ rest))) =
      (c :: ds ++ (fractionText fraction ++ exponentText exponent)) ++ rest := by simp
  rw [hread]
  exact List.take_left' (by simp)

namespace NumeralForm

/-- A numeral is read as a lexeme up to its end. -/
theorem lexeme?_text (n : NumeralForm) : ∃ lexeme, lexeme? n.text = some lexeme ∧
    lexeme.kind = .number ∧ lexeme.length = n.text.length := by
  obtain ⟨⟨chars, hne, hdigits⟩, fraction, exponent⟩ := n
  obtain ⟨c, ds, rfl⟩ := List.exists_cons_of_ne_nil hne
  obtain ⟨hc, hds⟩ := List.forall_mem_cons.mp hdigits
  have hhead := head_exponentText exponent
  have hstop : ∀ d ∈ (fractionText fraction ++ exponentText exponent).head?,
      Unicode.isDigit d = false := by
    refine forall_head?_append (fun d hd => ?_) fun d hd => (hhead d hd).1
    rcases fraction with _ | ds
    · exact absurd hd (Option.not_mem_none d)
    · obtain rfl := Option.some.inj hd
      decide
  have hexponent : exponentLength (exponentText exponent ++ []) = _ :=
    exponentLength_append exponent (by simp)
  rw [List.append_nil] at hexponent
  have hlexeme := lexeme?_of_digit hc (ds ++ (fractionText fraction ++ exponentText exponent))
  rw [runLength_append hds hstop, List.drop_left, numberTailLength,
    fractionLength_append fraction fun d hd => ⟨(hhead d hd).1, (hhead d hd).2.2⟩, List.drop_left,
    hexponent] at hlexeme
  refine ⟨_, hlexeme, rfl, ?_⟩
  simp [text]

theorem digit_or_mark {n : NumeralForm} {c : Char} (hc : c ∈ n.text) :
    Unicode.isDigit c = true ∨ c ∈ numeralMarks := by
  obtain ⟨whole, fraction, exponent⟩ := n
  rcases List.mem_append.mp hc with hc | hc
  · exact Or.inl (whole.digit c hc)
  rcases List.mem_append.mp hc with hc | hc
  · rcases fraction with _ | ds
    · exact absurd hc List.not_mem_nil
    rcases List.mem_cons.mp hc with rfl | hc
    · exact Or.inr (by decide)
    · exact Or.inl (ds.digit c hc)
  · rcases exponent with _ | e
    · exact absurd hc List.not_mem_nil
    · exact e.digit_or_mark hc

theorem inLine_of_mem {n : NumeralForm} {c : Char} (hc : c ∈ n.text) : InLine c := by
  have hdigit := digit_or_mark hc
  constructor <;> rintro rfl <;> exact absurd hdigit (by decide)

end NumeralForm

/-- What the scanner says of a text that it does not scan. -/
inductive Refusal : Failure → Prop
  | lexical (snippet : String) (site : Site) : Refusal (.lexical snippet site)
  | numeral (n : NumeralForm) (h : n.Refused) (site : Site) :
    Refusal (.nonFiniteNumber (String.ofList n.text) site)

theorem refusal_of_token? {place : Place} {text : List Char} {lexeme : Lexeme} {failure : Failure}
    (hlexeme : lexeme? text = some lexeme)
    (h : token? place lexeme.kind (text.take lexeme.length) = .error failure) :
    Refusal failure := by
  cases hkind : lexeme.kind with
  | spaces | comment | name | punctuator => simp [hkind, token?] at h
  | number =>
    obtain ⟨n, hn⟩ := exists_numeral hlexeme hkind
    rw [hkind, hn] at h
    simp only [token?] at h
    split at h
    · simp at h
    · next hnone =>
      obtain rfl := Except.error.inj h
      exact .numeral n (NumeralForm.toBinary64?_eq_none_iff.mp hnone) _
  | string =>
    rw [hkind] at h
    simp only [token?] at h
    split at h
    · simp at h
    · obtain rfl := Except.error.inj h
      exact .lexical _ _

theorem refusal_of_tokensFrom {place : Place} {line : List Char} {failure : Failure}
    (h : tokensFrom place line = .error failure) : Refusal failure := by
  -- each lexeme leaves a shorter line
  induction hn : line.length using Nat.strongRecOn generalizing place line with
  | ind n ih =>
  rcases line with _ | ⟨c, cs⟩
  · simp [tokensFrom] at h
  rcases tokensFrom_cons_error h with rfl | ⟨lexeme, hlexeme, htoken | hlater⟩
  · exact .lexical _ _
  · exact refusal_of_token? hlexeme htoken
  · exact ih _ (hn ▸ length_drop_lexeme lexeme c cs) hlater rfl

theorem refusal_of_tokensOfLines {number : Nat} {lines : List Line} {failure : Failure}
    (h : tokensOfLines number lines = .error failure) : Refusal failure := by
  obtain ⟨p, -, hline⟩ := tokensOfLines_error h
  exact refusal_of_tokensFrom hline

theorem scan_text (n : NumeralForm) : scan (String.ofList n.text) =
    (token? ⟨1, 0, 1⟩ .number n.text).map Option.toList := by
  obtain ⟨lexeme, hlexeme, hkind, hlength⟩ := n.lexeme?_text
  have hlines : splitLines n.text = [⟨0, n.text⟩] :=
    (splitLines_eq _).trans (splitLinesFrom_last (fun _ hc => NumeralForm.inLine_of_mem hc) 0)
  rw [scan, String.toList_ofList, hlines, tokensOfLines, tokensOfLines,
    tokensFrom_of_lexeme hlexeme, hkind, hlength, List.take_length, List.drop_length, tokensFrom]
  rcases token? ⟨1, 0, 1⟩ .number n.text with failure | token
  · rfl
  · simp [bind, Except.bind, pure, Except.pure, Except.map]

theorem span_text (n : NumeralForm) : Place.span ⟨1, 0, 1⟩ n.text = ⟨0, byteLength n.text⟩ := by
  rw [Place.span, Nat.zero_add]

theorem scan_of_refused {n : NumeralForm} (h : n.Refused) :
    scan (String.ofList n.text) = .error (.nonFiniteNumber (String.ofList n.text)
      { position := ⟨1, 1⟩, span := some ⟨0, byteLength n.text⟩ }) := by
  rw [scan_text, token?, span_text, NumeralForm.toBinary64?_eq_none_iff.mpr h]
  rfl

theorem scan_of_not_refused {n : NumeralForm} (h : ¬ n.Refused) :
    ∃ x, scan (String.ofList n.text) =
      .ok [{ kind := .number, text := String.ofList n.text, value := .number x,
             span := ⟨0, byteLength n.text⟩, position := ⟨1, 1⟩ }] := by
  obtain ⟨x, hx⟩ := Option.ne_none_iff_exists'.mp (mt NumeralForm.toBinary64?_eq_none_iff.mp h)
  rw [scan_text, token?, span_text, hx]
  exact ⟨x, rfl⟩

/-- Where a text or a list of lines is not scanned there is no token pattern that matches, or a
numeral with a digit that is no ASCII character or with a magnitude that is too large. As a text
such a numeral is refused, and any other is one token. -/
theorem refusals_explained (source : String ⊕ List String) (n : NumeralForm) :
    (∀ failure, Sum.elim scan scanLines source = .error failure → Refusal failure) ∧
      (n.Refused → scan (String.ofList n.text) = .error (.nonFiniteNumber (String.ofList n.text)
        { position := ⟨1, 1⟩, span := some ⟨0, byteLength n.text⟩ })) ∧
      (¬ n.Refused → ∃ x, scan (String.ofList n.text) =
        .ok [{ kind := .number, text := String.ofList n.text, value := .number x,
               span := ⟨0, byteLength n.text⟩, position := ⟨1, 1⟩ }]) := by
  refine ⟨fun failure h => ?_, scan_of_refused, scan_of_not_refused⟩
  cases source with
  | inl text => exact refusal_of_tokensOfLines h
  | inr lines => exact refusal_of_tokensOfLines h

theorem huge_numeral_explained :
    (∃ failure, scan "1e400" = .error failure ∧ Refusal failure) ∧
      (∃ failure, scanLines ["1e400"] = .error failure ∧ Refusal failure) ∧
      ∃ n : NumeralForm, n.text = "1e400".toList ∧ n.Refused ∧
        scan "1e400" = .error (.nonFiniteNumber "1e400"
          { position := ⟨1, 1⟩, span := some ⟨0, 5⟩ }) ∧
        ∃ n' : NumeralForm, n'.text = "1".toList ∧ ¬ n'.Refused ∧ ∃ x, scan "1" =
          .ok [{ kind := .number, text := "1", value := .number x, span := ⟨0, 1⟩,
                 position := ⟨1, 1⟩ }] := by
  obtain ⟨htext, hscan, -⟩ := refusals_explained (.inl "1e400") NumeralForm.huge
  obtain ⟨hlines, -, hkept⟩ := refusals_explained (.inr ["1e400"]) NumeralForm.one
  have hscan := hscan NumeralForm.refused_huge
  have hkept := hkept NumeralForm.not_refused_one
  have hscanLines : scanLines ["1e400"] = scan "1e400" :=
    scanLines_eq (List.forall_mem_singleton.mpr fun _ hc =>
      NumeralForm.inLine_of_mem (n := NumeralForm.huge) hc)
  exact ⟨⟨_, hscan, htext _ hscan⟩, ⟨_, hscanLines.trans hscan, hlines _ (hscanLines.trans hscan)⟩,
    NumeralForm.huge, rfl, NumeralForm.refused_huge, hscan,
    NumeralForm.one, rfl, NumeralForm.not_refused_one, hkept⟩

/-- A digit of another script is a numeral to the scanner, but it has no value. -/
theorem foreign_digit_refused :
    scan "٣" = .error (.nonFiniteNumber "٣" { position := ⟨1, 1⟩, span := some ⟨0, 2⟩ }) ∧
      ∀ n : NumeralForm, n.text = "٣".toList → ¬ n.Ascii := by
  have hdigit : ∀ c ∈ ['٣'], Unicode.isDigit c = true := List.forall_mem_singleton.mpr (by decide)
  have hascii : ∀ n : NumeralForm, n.text = "٣".toList → ¬ n.Ascii := by
    intro n hn h
    obtain ⟨c, cs, hcs⟩ := List.exists_cons_of_ne_nil n.whole.ne_nil
    have hc := h.whole c (hcs ▸ List.mem_cons_self)
    rw [NumeralForm.text, hcs] at hn
    obtain ⟨rfl, -⟩ := List.cons.inj hn
    exact absurd hc (by decide)
  have hrefused : NumeralForm.Refused ⟨⟨['٣'], List.cons_ne_nil _ _, hdigit⟩, none, none⟩ :=
    Or.inl (hascii _ rfl)
  exact ⟨scan_of_refused hrefused, hascii⟩

end Precedence.LineScanner
