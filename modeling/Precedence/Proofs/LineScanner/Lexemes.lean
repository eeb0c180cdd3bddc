import Precedence.Proofs.LineScanner.Coverage
import Precedence.Proofs.Text.Classes

/-!
# Lexemes of the line scanner

A name or a numeral that was read once is read again, as a whole, in front of a blank or the end of
a line (`isWord_of_name`, `isWord_of_number`), and each token of a text is that of a lexeme in one of
its lines (`lexedIn_of_tokensOfLines`). So words with blanks between them are scanned one after the
other (`ScansTo.joined`).
-/

namespace Precedence.LineScanner

open Number Text

/-! ### What a lexeme reads -/

theorem forall_head?_append {P : Char → Prop} {a b : List Char} (ha : ∀ c ∈ a.head?, P c)
    (hb : ∀ c ∈ b.head?, P c) : ∀ c ∈ (a ++ b).head?, P c := by
  rcases a with _ | ⟨d, a⟩
  · exact hb
  · exact ha

theorem runLength_append {p : Char → Bool} {w rest : List Char} (hw : ∀ c ∈ w, p c = true)
    (hrest : ∀ c ∈ rest.head?, p c = false) : runLength p (w ++ rest) = w.length := by
  have hstop : rest.takeWhile p = [] := by
    rcases rest with _ | ⟨c, rest⟩
    · rfl
    · rw [List.takeWhile_cons_of_neg (by simp [hrest c rfl])]
  rw [runLength, List.takeWhile_append_of_pos hw, hstop, List.append_nil]

/-- A run is read up to the first character that is not of its kind. -/
theorem runLength_reads (p : Char → Bool) (text : List Char) :
    ∃ w rest, text = w ++ rest ∧ runLength p text = w.length ∧ (∀ c ∈ w, p c = true) ∧
      ∀ c ∈ rest.head?, p c = false := by
  refine ⟨text.takeWhile p, text.dropWhile p, (List.takeWhile_append_dropWhile ..).symm, rfl,
    List.all_eq_true.mp List.all_takeWhile, fun c hc => ?_⟩
  have hhead := List.head?_dropWhile_not p text
  rw [Option.mem_def.mp hc] at hhead
  simpa using hhead

theorem fractionLength_of_head {text : List Char} (h : ∀ c ∈ text.head?, c ≠ '.') :
    fractionLength text = 0 := by
  unfold fractionLength
  split
  · exact absurd rfl (h '.' rfl)
  · rfl

/-- What `f` reads of a text, which begins with one of `begins` if it is not empty, is read again in
front of one of `ends`. -/
def ReadsAgain (f : List Char → Nat) (begins : Char → Prop) (ends : Char → Bool)
    (text : List Char) : Prop :=
  ∃ w rest, text = w ++ rest ∧ f text = w.length ∧ (∀ c ∈ w.head?, begins c) ∧
    ∀ rest' : List Char, (∀ c ∈ rest'.head?, ends c = true) → f (w ++ rest') = w.length

theorem readsAgain_of_zero {f : List Char → Nat} {begins : Char → Prop} {ends : Char → Bool}
    {text : List Char} (hends : ∀ rest : List Char, (∀ c ∈ rest.head?, ends c = true) → f rest = 0)
    (h : f text = 0) : ReadsAgain f begins ends text :=
  ⟨[], text, rfl, h, by simp, hends⟩

/-- What cannot go on with a fraction, and what cannot go on with an exponent. -/
def endsFraction (c : Char) : Bool :=
  !Unicode.isDigit c && c != '.'

def endsExponent (c : Char) : Bool :=
  !Unicode.isDigit c && c != 'e' && c != 'E'

theorem fractionLength_reads (text : List Char) :
    ReadsAgain fractionLength (· = '.') endsFraction text := by
  have hnone : fractionLength text = 0 →
      ReadsAgain fractionLength (· = '.') endsFraction text := by
    refine readsAgain_of_zero fun rest hrest => ?_
    refine fractionLength_of_head fun c hc hpoint => ?_
    simpa [endsFraction, hpoint] using hrest c hc
  by_cases hpoint : text.head? = some '.'
  · obtain ⟨tail, rfl⟩ := List.head?_eq_some_iff.mp hpoint
    obtain ⟨ds, rest, rfl, hlength, hds, -⟩ := runLength_reads Unicode.isDigit tail
    have hfraction : ∀ r, runLength Unicode.isDigit (ds ++ r) = ds.length →
        fractionLength ('.' :: (ds ++ r)) = if ds.length = 0 then 0 else ds.length + 1 := by
      intro r hr
      rw [fractionLength, hr]
    by_cases hempty : ds.length = 0
    · exact hnone (by rw [hfraction rest hlength, if_pos hempty])
    · refine ⟨'.' :: ds, rest, rfl, by rw [hfraction rest hlength, if_neg hempty]; rfl, by simp,
        fun rest' hrest' => ?_⟩
      have hstop : ∀ c ∈ rest'.head?, Unicode.isDigit c = false := by
        intro c hc
        have hc := hrest' c hc
        simp only [endsFraction, Bool.and_eq_true, Bool.not_eq_true'] at hc
        exact hc.1
      rw [List.cons_append, hfraction rest' (runLength_append hds hstop), if_neg hempty]
      rfl
  · exact hnone (fractionLength_of_head fun c hc hne => hpoint (hne ▸ hc))

theorem exponentLength_of_head {text : List Char} (h : ∀ c ∈ text.head?, c ≠ 'e' ∧ c ≠ 'E') :
    exponentLength text = 0 := by
  rcases text with _ | ⟨c, text⟩
  · rfl
  · obtain ⟨hlower, hupper⟩ := h c rfl
    simp [exponentLength, hlower, hupper]

/-- An exponent is read from its mark and its sign, if it has digits. -/
theorem exponentLength_eq {e : Char} (he : e = 'e' ∨ e = 'E') {sign ds rest : List Char}
    (hsign : sign = [] ∨ sign = ['+'] ∨ sign = ['-']) (hds : ∀ c ∈ ds, Unicode.isDigit c = true)
    (hbare : sign = [] → ∀ c ∈ (ds ++ rest).head?, c ≠ '+' ∧ c ≠ '-')
    (hrest : ∀ c ∈ rest.head?, Unicode.isDigit c = false) :
    exponentLength (e :: (sign ++ (ds ++ rest))) =
      if ds.length = 0 then 0 else ds.length + sign.length + 1 := by
  have hrun : runLength Unicode.isDigit (ds ++ rest) = ds.length := runLength_append hds hrest
  have hmark : (decide (e = 'e') || decide (e = 'E')) = true := by simpa using he
  rcases hsign with rfl | rfl | rfl
  · simp only [List.nil_append, exponentLength, hmark, if_true]
    split
    · next h => exact absurd rfl (hbare rfl '+' (by rw [h]; rfl)).1
    · next h => exact absurd rfl (hbare rfl '-' (by rw [h]; rfl)).2
    · rw [List.drop_zero, hrun]
      rfl
  · simp only [List.cons_append, List.nil_append, exponentLength, hmark, if_true,
      List.drop_succ_cons, List.drop_zero, hrun]
    rfl
  · simp only [List.cons_append, List.nil_append, exponentLength, hmark, if_true,
      List.drop_succ_cons, List.drop_zero, hrun]
    rfl

theorem exists_sign (text : List Char) :
    ∃ sign rest, text = sign ++ rest ∧ (sign = [] ∨ sign = ['+'] ∨ sign = ['-']) ∧
      (sign = [] → ∀ c ∈ rest.head?, c ≠ '+' ∧ c ≠ '-') := by
  by_cases hplus : text.head? = some '+'
  · obtain ⟨rest, rfl⟩ := List.head?_eq_some_iff.mp hplus
    exact ⟨['+'], rest, rfl, by simp, by simp⟩
  by_cases hminus : text.head? = some '-'
  · obtain ⟨rest, rfl⟩ := List.head?_eq_some_iff.mp hminus
    exact ⟨['-'], rest, rfl, by simp, by simp⟩
  · refine ⟨[], text, rfl, Or.inl rfl, fun _ c hc => ⟨?_, ?_⟩⟩
    · rintro rfl
      exact hplus hc
    · rintro rfl
      exact hminus hc

theorem exponentLength_reads (text : List Char) :
    ReadsAgain exponentLength (fun c => c = 'e' ∨ c = 'E') endsExponent text := by
  have hnone : exponentLength text = 0 →
      ReadsAgain exponentLength (fun c => c = 'e' ∨ c = 'E') endsExponent text := by
    refine readsAgain_of_zero fun rest hrest => ?_
    refine exponentLength_of_head fun c hc => ?_
    have hends := hrest c hc
    simp only [endsExponent, Bool.and_eq_true, bne_iff_ne, ne_eq] at hends
    exact ⟨hends.1.2, hends.2⟩
  by_cases hmark : ∃ e ∈ text.head?, e = 'e' ∨ e = 'E'
  · obtain ⟨e, he, hmark⟩ := hmark
    obtain ⟨tail, rfl⟩ := List.head?_eq_some_iff.mp he
    obtain ⟨sign, digits, rfl, hsign, hbare⟩ := exists_sign tail
    obtain ⟨ds, rest, rfl, -, hds, hrest⟩ := runLength_reads Unicode.isDigit digits
    have hlength := exponentLength_eq hmark hsign hds hbare hrest
    by_cases hempty : ds.length = 0
    · exact hnone (by rw [hlength, if_pos hempty])
    · refine ⟨e :: (sign ++ ds), rest, by simp, ?_, fun c hc => ?_, fun rest' hrest' => ?_⟩
      · rw [hlength, if_neg hempty, List.length_cons, List.length_append, Nat.add_comm ds.length]
      · obtain rfl := Option.some.inj hc
        exact hmark
      · have hstop : ∀ c ∈ rest'.head?, Unicode.isDigit c = false := by
          intro c hc
          have hends := hrest' c hc
          simp only [endsExponent, Bool.and_eq_true, Bool.not_eq_true'] at hends
          exact hends.1.1
        have hbare' : sign = [] → ∀ c ∈ (ds ++ rest').head?, c ≠ '+' ∧ c ≠ '-' := by
          have hne : ds ≠ [] := fun h => hempty (by rw [h]; rfl)
          obtain ⟨d, ds, rfl⟩ := List.exists_cons_of_ne_nil hne
          exact hbare
        rw [List.cons_append, List.append_assoc, exponentLength_eq hmark hsign hds hbare' hstop,
          if_neg hempty, List.length_cons, List.length_append, Nat.add_comm ds.length]
  · exact hnone (exponentLength_of_head fun c hc =>
      ⟨fun h => hmark ⟨c, hc, Or.inl h⟩, fun h => hmark ⟨c, hc, Or.inr h⟩⟩)

/-- What follows the digits of a numeral is read again in front of a blank. -/
theorem numberTailLength_reads (text : List Char) :
    ReadsAgain numberTailLength (Unicode.isDigit · = false) (· == ' ') text := by
  obtain ⟨fraction, tail, rfl, hlength, hpoint, hfraction⟩ := fractionLength_reads text
  obtain ⟨exponent, rest, rfl, hlength', hmark, hexponent⟩ := exponentLength_reads tail
  have hheads : ∀ c ∈ exponent.head?, endsFraction c = true := by
    intro c hc
    rcases hmark c hc with rfl | rfl
    · decide
    · decide
  refine ⟨fraction ++ exponent, rest, (List.append_assoc _ _ _).symm, ?_,
    forall_head?_append (fun c hc => ?_) (fun c hc => ?_), fun rest' hrest' => ?_⟩
  · rw [numberTailLength, hlength, List.drop_left, hlength', List.length_append]
  · rw [hpoint c hc]
    decide
  · rcases hmark c hc with rfl | rfl
    · decide
    · decide
  · have hblank : ∀ c ∈ rest'.head?, endsFraction c = true ∧ endsExponent c = true := by
      intro c hc
      obtain rfl : c = ' ' := by simpa using hrest' c hc
      decide
    rw [List.append_assoc, numberTailLength,
      hfraction _ (forall_head?_append hheads fun c hc => (hblank c hc).1), List.drop_left,
      hexponent _ fun c hc => (hblank c hc).2, List.length_append]

/-- The number of characters of a numeral behind its first digit. -/
def numberLength (text : List Char) : Nat :=
  let digits := runLength Unicode.isDigit text
  digits + numberTailLength (text.drop digits)

/-- The lexeme of that kind and length, if the length is not 0. -/
def Lexeme.ofLength? (kind : LexemeKind) (n : Nat) : Option Lexeme :=
  if h : 0 < n then some ⟨kind, n, h⟩ else none

theorem Lexeme.ofLength?_eq_some {kind : LexemeKind} {n : Nat} {lexeme : Lexeme}
    (h : ofLength? kind n = some lexeme) : lexeme.kind = kind ∧ lexeme.length = n := by
  unfold ofLength? at h
  split at h
  · obtain rfl := Option.some.inj h
    exact ⟨rfl, rfl⟩
  · simp at h

/-- Where no comment begins, the first character tells the kind of the lexeme. -/
theorem lexeme?_eq {c : Char} {rest : List Char} (h : c = '/' → rest.head? ≠ some '/') :
    lexeme? (c :: rest) =
      if c = ' ' then Lexeme.ofLength? .spaces (runLength (· == ' ') rest + 1)
      else if isLetter c then Lexeme.ofLength? .name (runLength isNameChar rest + 1)
      else if Unicode.isDigit c then Lexeme.ofLength? .number (numberLength rest + 1)
      else if c = '"' then
        (stringTailLength? rest).bind fun n => Lexeme.ofLength? .string (n + 1)
      else Lexeme.ofLength? .punctuator (punctuatorLength (c :: rest)) := by
  unfold lexeme?
  split
  · next hnil => exact absurd hnil (List.cons_ne_nil _ _)
  · next hcomment =>
    obtain ⟨rfl, rfl⟩ := List.cons.inj hcomment
    exact absurd rfl (h rfl)
  · next hcons =>
    obtain ⟨rfl, rfl⟩ := List.cons.inj hcons
    split_ifs
    · rfl
    · rfl
    · rfl
    · rcases stringTailLength? rest with _ | n <;> rfl
    · split
      · next hzero => rw [hzero]; rfl
      · next n hsucc => rw [hsucc]; rfl

theorem lexeme?_of_letter {c : Char} (hc : isLetter c = true) (rest : List Char) :
    lexeme? (c :: rest) = some ⟨.name, runLength isNameChar rest + 1, Nat.succ_pos _⟩ := by
  have hslash : c ≠ '/' := ne_of_apply_ne isLetter (by rw [hc]; decide)
  have hblank : c ≠ ' ' := ne_of_apply_ne isLetter (by rw [hc]; decide)
  rw [lexeme?_eq fun h => absurd h hslash, if_neg hblank, if_pos hc]
  rfl

theorem isAscii_of_letter {c : Char} (hc : isLetter c = true) : Unicode.isAscii c = true := by
  simp only [isLetter, Bool.or_eq_true, Bool.and_eq_true, decide_eq_true_eq, Char.le_def] at hc
  have hz : c.toNat ≤ 122 := by
    rcases hc with ⟨-, hc⟩ | ⟨-, hc⟩
    · exact hc
    · exact Nat.le_trans hc (by decide)
  simp only [Unicode.isAscii, decide_eq_true_eq]
  omega

theorem not_letter_of_digit {c : Char} (hc : Unicode.isDigit c = true) : isLetter c = false := by
  rw [Bool.eq_false_iff]
  intro hletter
  have hall := Unicode.forall_ascii (p := fun c => !isLetter c || !Unicode.isDigit c)
    (by decide +kernel) (isAscii_of_letter hletter)
  simp [hletter, hc] at hall

theorem lexeme?_of_digit {c : Char} (hc : Unicode.isDigit c = true) (rest : List Char) :
    lexeme? (c :: rest) = some ⟨.number, runLength Unicode.isDigit rest +
      numberTailLength (rest.drop (runLength Unicode.isDigit rest)) + 1, Nat.succ_pos _⟩ := by
  have hslash : c ≠ '/' := ne_of_apply_ne Unicode.isDigit (by rw [hc]; decide)
  have hblank : c ≠ ' ' := ne_of_apply_ne Unicode.isDigit (by rw [hc]; decide)
  rw [lexeme?_eq fun h => absurd h hslash, if_neg hblank, if_neg (by simp [not_letter_of_digit hc]),
    if_pos hc]
  rfl

/-- Names begin with a letter, numerals with a digit and texts with a quote. -/
theorem begins_of_lexeme {text : List Char} {lexeme : Lexeme} (h : lexeme? text = some lexeme) :
    (lexeme.kind = .name → ∃ c cs, text = c :: cs ∧ isLetter c = true) ∧
      (lexeme.kind = .number → ∃ c cs, text = c :: cs ∧ Unicode.isDigit c = true) ∧
      (lexeme.kind = .string → ∃ cs, text = '"' :: cs) := by
  unfold lexeme? at h
  split at h
  · simp at h
  · obtain rfl := Option.some.inj h
    simp
  · next c rest _ =>
    split_ifs at h with hblank hletter hdigit hquote
    · obtain rfl := Option.some.inj h
      simp
    · obtain rfl := Option.some.inj h
      simpa using hletter
    · obtain rfl := Option.some.inj h
      simpa using hdigit
    · obtain ⟨n, -, rfl⟩ := Option.map_eq_some_iff.mp h
      simpa using hquote
    · split at h
      · simp at h
      · obtain rfl := Option.some.inj h
        simp

/-- In front of a blank, or of nothing, the word is read as a whole, as a lexeme of that kind. -/
def IsWord (kind : LexemeKind) (w : List Char) : Prop :=
  ∀ rest : List Char, (∀ c ∈ rest.head?, c = ' ') →
    ∃ lexeme, lexeme? (w ++ rest) = some lexeme ∧ lexeme.kind = kind ∧ lexeme.length = w.length

theorem isWord_of_name {text : List Char} {lexeme : Lexeme} (h : lexeme? text = some lexeme)
    (hkind : lexeme.kind = .name) : IsWord .name (text.take lexeme.length) := by
  obtain ⟨c, cs, rfl, hc⟩ := (begins_of_lexeme h).1 hkind
  obtain ⟨w, rest, rfl, hlength, hw, -⟩ := runLength_reads isNameChar cs
  obtain rfl := Option.some.inj ((lexeme?_of_letter hc (w ++ rest)).symm.trans h)
  simp only [hlength, List.take_succ_cons, List.take_left]
  intro rest' hrest'
  have hstop : ∀ d ∈ rest'.head?, isNameChar d = false := by
    intro d hd
    rw [hrest' d hd]
    decide
  exact ⟨_, lexeme?_of_letter hc _, rfl, congrArg (· + 1) (runLength_append hw hstop)⟩

theorem isWord_of_number {text : List Char} {lexeme : Lexeme} (h : lexeme? text = some lexeme)
    (hkind : lexeme.kind = .number) : IsWord .number (text.take lexeme.length) := by
  obtain ⟨c, cs, rfl, hc⟩ := (begins_of_lexeme h).2.1 hkind
  obtain ⟨ds, tail, rfl, hlength, hds, hstop⟩ := runLength_reads Unicode.isDigit cs
  obtain ⟨w, rest, rfl, hlength', hhead, hw⟩ := numberTailLength_reads tail
  have hlexeme := lexeme?_of_digit hc (ds ++ (w ++ rest))
  rw [hlength, List.drop_left, hlength'] at hlexeme
  obtain rfl := Option.some.inj (hlexeme.symm.trans h)
  have htake : (c :: (ds ++ (w ++ rest))).take (ds.length + w.length + 1) = c :: (ds ++ w) := by
    rw [List.take_succ_cons, ← List.append_assoc, ← List.length_append, List.take_left]
  rw [htake]
  intro rest' hrest'
  have hblank : ∀ d ∈ rest'.head?, Unicode.isDigit d = false := by
    intro d hd
    rw [hrest' d hd]
    decide
  have hrun : runLength Unicode.isDigit (ds ++ (w ++ rest')) = ds.length :=
    runLength_append hds (forall_head?_append hhead hblank)
  have hagain := lexeme?_of_digit hc (ds ++ (w ++ rest'))
  rw [hrun, List.drop_left, hw rest' (by simpa using hrest')] at hagain
  refine ⟨_, (by simpa using hagain), rfl, ?_⟩
  simp

/-! ### The tokens of a line -/

/-- The token is that of a lexeme in the line. -/
structure LexedIn (t : Token) (line : List Char) : Prop where
  mem : ∀ c ∈ t.text.toList, c ∈ line
  lexeme : ∃ place lexeme text, lexeme? text = some lexeme ∧
    t.text.toList = text.take lexeme.length ∧
    token? place lexeme.kind t.text.toList = .ok (some t)

/-- A token with a number is a numeral, which is a word; one with a text is a name, which is a word
too, or a text between quotes, or a sign. -/
theorem LexedIn.kinds {t : Token} {line : List Char} (h : LexedIn t line) :
    (∃ x, t.value = .number x ∧ t.kind = .number ∧ IsWord .number t.text.toList ∧
        (Decimal.read t.text.toList).bind Decimal.toBinary64? = some x) ∨
      (∃ value, t.value = .text value) ∧
        ((t.kind = .name ∧ IsWord .name t.text.toList) ∨ t.kind = .string ∨
          t.kind = .punctuator) := by
  obtain ⟨place, lexeme, text, hlexeme, htext, htoken⟩ := h.lexeme
  cases hkind : lexeme.kind <;>
    simp only [hkind, token?, Except.ok.injEq, Option.some.injEq, reduceCtorEq] at htoken
  case name =>
    exact Or.inr ⟨⟨_, (congrArg Token.value htoken).symm⟩,
      Or.inl ⟨(congrArg Token.kind htoken).symm, htext ▸ isWord_of_name hlexeme hkind⟩⟩
  case number =>
    split at htoken
    · next x hx =>
      have ht := Option.some.inj (Except.ok.inj htoken)
      exact Or.inl ⟨x, (congrArg Token.value ht).symm, (congrArg Token.kind ht).symm,
        htext ▸ isWord_of_number hlexeme hkind, hx⟩
    · simp at htoken
  case string =>
    split at htoken
    · have ht := Option.some.inj (Except.ok.inj htoken)
      exact Or.inr ⟨⟨_, (congrArg Token.value ht).symm⟩,
        Or.inr (Or.inl (congrArg Token.kind ht).symm)⟩
    · simp at htoken
  case punctuator =>
    exact Or.inr ⟨⟨_, (congrArg Token.value htoken).symm⟩,
      Or.inr (Or.inr (congrArg Token.kind htoken).symm)⟩

theorem length_drop_lexeme (lexeme : Lexeme) (c : Char) (cs : List Char) :
    ((c :: cs).drop lexeme.length).length < (c :: cs).length := by
  have hpos := lexeme.length_pos
  rw [List.length_drop, List.length_cons]
  omega

theorem lexedIn_of_tokensFrom {place : Place} {line : List Char} {tokens : List Token}
    (h : tokensFrom place line = .ok tokens) : ∀ t ∈ tokens, LexedIn t line := by
  -- each lexeme leaves a shorter line
  induction hn : line.length using Nat.strongRecOn generalizing place line tokens with
  | ind n ih =>
  rcases line with _ | ⟨c, cs⟩
  · rw [tokensFrom] at h
    obtain rfl := Except.ok.inj h
    simp
  obtain ⟨lexeme, token, later, hlexeme, htoken, hlater, rfl⟩ := tokensFrom_cons h
  have hless := hn ▸ length_drop_lexeme lexeme c cs
  intro t ht
  rcases List.mem_append.mp ht with ht | ht
  · rcases token?_eq_ok htoken with ⟨rfl, -⟩ | ⟨t', rfl, htext, -⟩
    · simp at ht
    · obtain rfl : t = t' := by simpa using ht
      exact ⟨fun d hd => List.mem_of_mem_take (htext ▸ hd), place, lexeme, c :: cs, hlexeme, htext,
        htext ▸ htoken⟩
  · obtain ⟨hmem, hlexed⟩ := ih _ hless hlater rfl t ht
    exact ⟨fun d hd => List.mem_of_mem_drop (hmem d hd), hlexed⟩

theorem lexedIn_of_tokensOfLines {number : Nat} {lines : List Line} {tokens : List Token}
    (h : tokensOfLines number lines = .ok tokens) :
    ∀ t ∈ tokens, ∃ p ∈ lines.zipIdx number, LexedIn t p.1.text := by
  induction lines generalizing number tokens with
  | nil =>
    obtain rfl := Except.ok.inj h
    simp
  | cons line lines ih =>
    obtain ⟨ts, us, hts, hus, rfl⟩ := tokensOfLines_cons h
    rw [List.zipIdx_cons]
    intro t ht
    rcases List.mem_append.mp ht with ht | ht
    · exact ⟨_, List.mem_cons_self, lexedIn_of_tokensFrom hts t ht⟩
    · obtain ⟨p, hp, hlexed⟩ := ih hus t ht
      exact ⟨p, List.mem_cons_of_mem _ hp, hlexed⟩

/-! ### Pieces of a line -/

/-- The piece `w` of a line in front of `rest` is scanned into the tokens `ts`. -/
def Scans (place : Place) (w rest : List Char) (ts : List Token) : Prop :=
  tokensFrom place (w ++ rest) = (tokensFrom (place.advance w) rest).map (ts ++ ·)

theorem Place.advance_append (place : Place) (a b : List Char) :
    (place.advance a).advance b = place.advance (a ++ b) := by
  simp only [advance, byteLength_append, List.length_append, Nat.add_assoc]

theorem Scans.append {place : Place} {w v rest : List Char} {ts us : List Token}
    (h : Scans place w (v ++ rest) ts) (h' : Scans (place.advance w) v rest us) :
    Scans place (w ++ v) rest (ts ++ us) := by
  unfold Scans at h h' ⊢
  rw [List.append_assoc, h, h', place.advance_append]
  rcases tokensFrom (place.advance (w ++ v)) rest with failure | vs
  · rfl
  · simp [Except.map]

theorem Scans.tokens {place : Place} {w : List Char} {ts : List Token} (h : Scans place w [] ts) :
    tokensFrom place w = .ok ts := by
  unfold Scans at h
  rw [List.append_nil] at h
  rw [h, tokensFrom]
  simp [Except.map]

theorem tokensFrom_of_lexeme {place : Place} {text : List Char} {lexeme : Lexeme}
    (h : lexeme? text = some lexeme) :
    tokensFrom place text = do
      let token ← token? place lexeme.kind (text.take lexeme.length)
      let tokens ← tokensFrom (place.advance (text.take lexeme.length)) (text.drop lexeme.length)
      return token.toList ++ tokens := by
  rcases text with _ | ⟨c, cs⟩
  · simp [lexeme?] at h
  · rw [tokensFrom]
    split
    · next hnone =>
      rw [hnone] at h
      simp at h
    · next lexeme' hlexeme =>
      obtain rfl := Option.some.inj (hlexeme.symm.trans h)
      rfl

/-- A line at whose beginning no lexeme stands is refused there. -/
theorem tokensFrom_of_none {place : Place} {c : Char} {cs : List Char}
    (h : lexeme? (c :: cs) = none) :
    tokensFrom place (c :: cs) = .error (noLexeme place (c :: cs)) := by
  rw [tokensFrom]
  split
  · rfl
  · next lexeme hlexeme => simp [h] at hlexeme

theorem Scans.word {place : Place} {kind : LexemeKind} {w rest : List Char} {t : Token}
    (hw : IsWord kind w) (ht : token? place kind w = .ok (some t))
    (hrest : ∀ c ∈ rest.head?, c = ' ') : Scans place w rest [t] := by
  obtain ⟨lexeme, hlexeme, rfl, hlength⟩ := hw rest hrest
  rw [Scans, tokensFrom_of_lexeme hlexeme, hlength, List.take_left, List.drop_left, ht]
  rcases tokensFrom (place.advance w) rest with failure | ts <;> rfl

theorem tokensFrom_spaces (place : Place) (rest : List Char) :
    tokensFrom place (' ' :: rest) =
      tokensFrom (place.advance (' ' :: rest.take (runLength (· == ' ') rest)))
        (rest.drop (runLength (· == ' ') rest)) := by
  have hlexeme : lexeme? (' ' :: rest) =
      some ⟨.spaces, runLength (· == ' ') rest + 1, Nat.succ_pos _⟩ := rfl
  rw [tokensFrom_of_lexeme hlexeme, List.take_succ_cons, List.drop_succ_cons]
  rcases tokensFrom _ (rest.drop _) with failure | ts <;> rfl

/-- A blank is left out, whether others follow it or not. -/
theorem Scans.blank (place : Place) (rest : List Char) : Scans place [' '] rest [] := by
  have hblank : tokensFrom place (' ' :: rest) = tokensFrom (place.advance [' ']) rest := by
    rw [tokensFrom_spaces]
    by_cases hhead : rest.head? = some ' '
    · obtain ⟨rest, rfl⟩ := List.head?_eq_some_iff.mp hhead
      have hrun : runLength (· == ' ') (' ' :: rest) = runLength (· == ' ') rest + 1 := rfl
      rw [tokensFrom_spaces, place.advance_append, hrun, List.take_succ_cons, List.drop_succ_cons]
      rfl
    · have hrun : runLength (· == ' ') ([] ++ rest) = 0 :=
        runLength_append (List.forall_mem_nil _) fun c hc => by
          simpa using fun hne : c = ' ' => hhead (hne ▸ hc)
      rw [List.nil_append] at hrun
      rw [hrun, List.take_zero, List.drop_zero]
  rw [Scans, List.singleton_append, hblank]
  rcases tokensFrom (place.advance [' ']) rest with failure | ts <;> rfl

theorem tokensOfLines_last {number start : Nat} {w : List Char} (hw : ∀ c ∈ w, InLine c) :
    tokensOfLines number (splitLinesFrom start [] w) = tokensFrom ⟨number, start, 1⟩ w := by
  rw [splitLinesFrom_last hw, tokensOfLines, tokensOfLines]
  rcases tokensFrom ⟨number, start, 1⟩ w with failure | ts
  · rfl
  · simp [bind, Except.bind, pure, Except.pure]

/-- A text without line breaks is one line. -/
theorem scan_of_inLine {text : String} (h : ∀ c ∈ text.toList, InLine c) :
    scan text = tokensFrom ⟨1, 0, 1⟩ text.toList := by
  rw [scan_eq]
  exact tokensOfLines_last h

/-- Wherever the piece stands in a line, with a blank or nothing behind it, it is scanned into
tokens of which `P` holds. -/
def ScansTo (w : List Char) (P : List Token → Prop) : Prop :=
  ∀ place, ∃ ts, P ts ∧ ∀ rest : List Char, (∀ c ∈ rest.head?, c = ' ') → Scans place w rest ts

/-- Two pieces with a blank between them are scanned one after the other. -/
theorem ScansTo.joined {w v : List Char} {P Q : List Token → Prop} (hw : ScansTo w P)
    (hv : ScansTo v Q) :
    ScansTo (w ++ ' ' :: v) fun ts => ∃ a b, P a ∧ Q b ∧ ts = a ++ b := by
  intro place
  obtain ⟨a, ha, hscans⟩ := hw place
  obtain ⟨b, hb, hscans'⟩ := hv ((place.advance w).advance [' '])
  refine ⟨a ++ b, ⟨a, b, ha, hb, rfl⟩, fun rest hrest => ?_⟩
  have hbehind : Scans (place.advance w) ([' '] ++ v) rest ([] ++ b) :=
    .append (.blank _ _) (hscans' rest hrest)
  exact Scans.append (hscans _ fun c hc => (Option.some.inj hc).symm) hbehind

theorem ScansTo.imp {w : List Char} {P Q : List Token → Prop} (h : ScansTo w P)
    (hpq : ∀ ts, P ts → Q ts) : ScansTo w Q := fun place =>
  (h place).imp fun ts hts => ⟨hpq ts hts.1, hts.2⟩

theorem ScansTo.word {kind : LexemeKind} {w : List Char} {P : Token → Prop} (hw : IsWord kind w)
    (h : ∀ place, ∃ t, token? place kind w = .ok (some t) ∧ P t) :
    ScansTo w fun ts => ∃ t, P t ∧ ts = [t] := fun place => by
  obtain ⟨t, ht, hp⟩ := h place
  exact ⟨[t], ⟨t, hp, rfl⟩, fun rest hrest => .word hw ht hrest⟩

/-- Such a piece is a line by itself, if it has no line break. -/
theorem ScansTo.scan {text : String} {P : List Token → Prop} (h : ScansTo text.toList P)
    (hline : ∀ c ∈ text.toList, InLine c) : ∃ tokens, scan text = .ok tokens ∧ P tokens := by
  obtain ⟨ts, hp, hscans⟩ := h ⟨1, 0, 1⟩
  exact ⟨ts, (scan_of_inLine hline).trans (hscans [] (by simp)).tokens, hp⟩

end Precedence.LineScanner
