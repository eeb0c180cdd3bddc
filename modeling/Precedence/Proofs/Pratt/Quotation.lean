import Precedence.Proofs.LineScanner.Strings
import Precedence.Pratt.Term

/-!
# Printed strings

A string is printed so that each of its characters can be seen. The line scanner reads most of them
back, four of them by their escapes (`IsLegible`), but it knows none of the other escapes that are
printed. So the print is scanned as the string again exactly if the scanner reads back each of its
characters, and otherwise no lexeme begins there (`string_reprinted`).
-/

namespace Precedence

namespace LineScanner

open Text

/-- A text between quotes is read as a whole, whatever follows it. -/
theorem isWord_of_string {body : List Char} (hbody : IsStringBody body) :
    IsWord .string ('"' :: (body ++ ['"'])) := by
  intro rest _
  have hwhole : '"' :: (body ++ ['"']) ++ rest = '"' :: (body ++ '"' :: rest) := by simp
  rw [hwhole, lexeme?_quote, stringTailLength?_append hbody]
  refine ⟨_, rfl, rfl, ?_⟩
  show 1 + body.length + 1 = _
  rw [List.length_cons, List.length_append, List.length_singleton, Nat.add_comm 1]

/-- A text between quotes that decodes is scanned by itself. -/
theorem scan_of_decode {text : String} {body value : List Char}
    (htext : text.toList = '"' :: (body ++ ['"'])) (hbody : IsStringBody body)
    (hline : ∀ c ∈ text.toList, InLine c)
    (hvalue : Json.Quoted.decode text.toList = some value) :
    ∃ t, scan text = .ok [t] ∧ t.kind = .string ∧ t.value = .text (String.ofList value) := by
  have hscans : ScansTo text.toList fun ts =>
      ∃ t, (t.kind = .string ∧ t.value = .text (String.ofList value)) ∧ ts = [t] := by
    refine .word (htext ▸ isWord_of_string hbody) fun place => ?_
    simp only [token?, hvalue]
    exact ⟨_, rfl, rfl, rfl⟩
  obtain ⟨_, hscan, t, ⟨hkind, ht⟩, rfl⟩ := hscans.scan hline
  exact ⟨t, hscan, hkind, ht⟩

end LineScanner

namespace Text

open LineScanner

/-- The line scanner reads the character as it is printed. -/
def IsLegible (c : Char) : Prop :=
  c ∈ ['\n', '\r', '"', '\\'] ∨ (Unicode.isPrintable c = true ∧ Unicode.extendsGrapheme c = false)

instance : DecidablePred IsLegible :=
  fun c => inferInstanceAs (Decidable (c ∈ ['\n', '\r', '"', '\\'] ∨
    (Unicode.isPrintable c = true ∧ Unicode.extendsGrapheme c = false)))

theorem le_of_isPrintable {c : Char} (h : Unicode.isPrintable c = true) : 0x20 ≤ c.toNat := by
  rcases hascii : Unicode.isAscii c with _ | _
  · simp only [Unicode.isAscii, decide_eq_false_iff_not] at hascii
    omega
  · simp only [Unicode.isPrintable, hascii, if_true, Bool.and_eq_true, decide_eq_true_eq] at h
    exact h.1

/-- What is printed for a character: an escape that the scanner knows, the character as it is, or
an escape that the scanner does not know. -/
theorem visible_cases (c : Char) :
    (IsLegible c ∧ ∃ letter ∈ escapeLetters, visible c = ['\\', letter] ∧
        Json.Quoted.named? letter = some c) ∨
      (IsLegible c ∧ visible c = [c] ∧ c ≠ '"' ∧ c ≠ '\\' ∧ 0x20 ≤ c.toNat) ∨
      (¬ IsLegible c ∧ (visible c = codeForm c ∨
        ∃ letter ∈ ['0', 't'], visible c = ['\\', letter])) := by
  unfold visible
  split
  · exact Or.inr (Or.inr ⟨by decide, Or.inr ⟨'0', by decide, rfl⟩⟩)
  · exact Or.inr (Or.inr ⟨by decide, Or.inr ⟨'t', by decide, rfl⟩⟩)
  · exact Or.inl ⟨by decide, 'n', by decide, rfl, rfl⟩
  · exact Or.inl ⟨by decide, 'r', by decide, rfl, rfl⟩
  · exact Or.inl ⟨by decide, '"', by decide, rfl, rfl⟩
  · exact Or.inl ⟨by decide, '\\', by decide, rfl, rfl⟩
  · next hfeed hreturn hquote hslash =>
    have hletters : c ∉ ['\n', '\r', '"', '\\'] := by
      simp only [List.mem_cons, List.not_mem_nil, or_false, not_or]
      exact ⟨hfeed, hreturn, hquote, hslash⟩
    refine Or.inr ?_
    split
    · next hhidden =>
      simp only [Bool.or_eq_true, Bool.not_eq_true'] at hhidden
      refine Or.inr ⟨fun hlegible => ?_, Or.inl rfl⟩
      obtain ⟨hprintable, hextends⟩ := hlegible.resolve_left hletters
      rcases hhidden with h | h
      · rw [h] at hextends
        simp at hextends
      · rw [h] at hprintable
        simp at hprintable
    · next hshown =>
      simp only [Bool.or_eq_true, Bool.not_eq_true', not_or, Bool.not_eq_true, Bool.not_eq_false]
        at hshown
      exact Or.inl ⟨Or.inr ⟨hshown.2, hshown.1⟩, rfl, hquote, hslash, le_of_isPrintable hshown.2⟩

theorem isStringBody_of_legible : ∀ {v : List Char}, (∀ c ∈ v, IsLegible c) →
    IsStringBody (v.flatMap visible)
  | [], _ => .nil
  | c :: v, h => by
    obtain ⟨hc, hv⟩ := List.forall_mem_cons.mp h
    have hbody := isStringBody_of_legible hv
    rw [List.flatMap_cons]
    rcases visible_cases c with ⟨-, letter, hletter, hform, -⟩ | ⟨-, hform, hquote, hslash, -⟩ |
        ⟨hillegible, -⟩
    · rw [hform]
      exact .escape hletter hbody
    · rw [hform]
      exact .plain hquote hslash hbody
    · exact absurd hc hillegible

theorem read_letter {letter c : Char} (h : Json.Quoted.named? letter = some c)
    (front rest : List Char) : Json.Quoted.read front ('\\' :: letter :: rest) =
      Json.Quoted.read (c :: front) rest := by
  rw [Json.Quoted.read]
  · rw [h]
  · rintro _ _ _ _ _ rfl
    simp [Json.Quoted.named?] at h

theorem read_plain {c : Char} (hquote : c ≠ '"') (hslash : c ≠ '\\') (hle : 0x20 ≤ c.toNat)
    (front rest : List Char) :
    Json.Quoted.read front (c :: rest) = Json.Quoted.read (c :: front) rest := by
  have hshown : ¬ (decide (c = '\\') || decide (c.toNat < 0x20)) = true := by
    simp only [Bool.or_eq_true, decide_eq_true_eq, not_or]
    exact ⟨hslash, Nat.not_lt.mpr hle⟩
  rw [Json.Quoted.read]
  · rw [if_neg hshown]
  · exact hquote
  · exact fun _ _ _ _ _ h => absurd h hslash
  · exact fun _ _ h => absurd h hslash

/-- What is printed for legible characters stands for them. -/
theorem read_legible : ∀ {v : List Char}, (∀ c ∈ v, IsLegible c) → ∀ front rest : List Char,
    Json.Quoted.read front (v.flatMap visible ++ '"' :: rest) = some (front.reverse ++ v, rest)
  | [], _, front, rest => by
    rw [List.flatMap_nil, List.nil_append, Json.Quoted.read, List.append_nil]
  | c :: v, h, front, rest => by
    obtain ⟨hc, hv⟩ := List.forall_mem_cons.mp h
    have hread := read_legible hv (c :: front) rest
    rw [List.reverse_cons, List.append_assoc, List.singleton_append] at hread
    rw [List.flatMap_cons, List.append_assoc, ← hread]
    rcases visible_cases c with ⟨-, letter, -, hform, hnamed⟩ | ⟨-, hform, hquote, hslash, hle⟩ |
        ⟨hillegible, -⟩
    · rw [hform]
      exact read_letter hnamed front _
    · rw [hform]
      exact read_plain hquote hslash hle front _
    · exact absurd hc hillegible

theorem decode_legible {v : List Char} (h : ∀ c ∈ v, IsLegible c) :
    Json.Quoted.decode (quoteVisibly v) = some v := by
  have hread : Json.Quoted.read [] (v.flatMap visible ++ ['"']) = some (v, []) :=
    read_legible h [] []
  simp only [quoteVisibly, Json.Quoted.decode, List.cons_append, hread]

theorem stringTailLength?_brace (rest : List Char) :
    stringTailLength? ('\\' :: 'u' :: '\x7b' :: rest) = none := by
  rcases rest with _ | ⟨x, _ | ⟨y, _ | ⟨z, rest⟩⟩⟩
  · rfl
  · rfl
  · rfl
  · rw [stringTailLength?_code, if_neg]
    simp [Number.hexDigitValue?, Number.isDigit]

/-- The scanner does not read on where a character is printed that it does not read back. -/
theorem stringTailLength?_illegible {v : List Char} (h : ∃ c ∈ v, ¬ IsLegible c)
    (rest : List Char) : stringTailLength? (v.flatMap visible ++ rest) = none := by
  induction v with
  | nil => simp at h
  | cons c v ih =>
    rw [List.flatMap_cons, List.append_assoc]
    by_cases hc : IsLegible c
    · have hv : ∃ d ∈ v, ¬ IsLegible d := by
        obtain ⟨d, hd, hillegible⟩ := h
        rcases List.mem_cons.mp hd with rfl | hd
        · exact absurd hc hillegible
        · exact ⟨d, hd, hillegible⟩
      have hbody : IsStringBody ([c].flatMap visible) :=
        isStringBody_of_legible (List.forall_mem_singleton.mpr hc)
      rw [List.flatMap_singleton] at hbody
      rw [stringTailLength?_append hbody, ih hv, Option.map_none]
    · rcases visible_cases c with ⟨hlegible, -⟩ | ⟨hlegible, -⟩ |
          ⟨-, hform | ⟨letter, hletter, hform⟩⟩
      · exact absurd hlegible hc
      · exact absurd hlegible hc
      · rw [hform]
        exact stringTailLength?_brace _
      · rw [hform]
        have hunknown : ∀ letter ∈ ['0', 't'], letter ≠ 'u' ∧ ¬ escapeLetters.contains letter := by
          simp [escapeLetters]
        obtain ⟨hcode, hnone⟩ := hunknown letter hletter
        exact (stringTailLength?_letter hcode _).trans (if_neg hnone)

/-- Every digit of a code is a hexadecimal one. -/
theorem exists_of_mem_toDigits {n : Nat} {d : Char} (h : d ∈ Nat.toDigits 16 n) :
    ∃ k < 16, d = Nat.digitChar k := by
  induction n using Nat.strongRecOn with
  | ind n ih =>
  by_cases hn : n < 16
  · rw [Nat.toDigits_of_lt_base hn, List.mem_singleton] at h
    exact ⟨n, hn, h⟩
  · rw [Nat.toDigits_of_base_le (by decide) (Nat.not_lt.mp hn), List.mem_append,
      List.mem_singleton] at h
    rcases h with h | h
    · exact ih _ (by omega) h
    · exact ⟨n % 16, Nat.mod_lt _ (by decide), h⟩

/-- No character is printed by a line break. -/
theorem visible_inLine (c : Char) : ∀ d ∈ visible c, InLine d := by
  have hletters : ∀ letter ∈ ['0', 't'] ++ escapeLetters, InLine letter := by
    simp [escapeLetters, InLine]
  rcases visible_cases c with ⟨-, letter, hletter, hform, -⟩ | ⟨-, hform, -, -, hle⟩ |
      ⟨-, hform | ⟨letter, hletter, hform⟩⟩
  · rw [hform, List.forall_mem_cons, List.forall_mem_singleton]
    exact ⟨by decide, hletters letter (List.mem_append_right _ hletter)⟩
  · rw [hform, List.forall_mem_singleton]
    constructor
    · rintro rfl
      exact absurd hle (by decide)
    · rintro rfl
      exact absurd hle (by decide)
  · rw [hform, codeForm]
    intro d hd
    simp only [List.cons_append, List.mem_cons, List.mem_append, List.not_mem_nil, or_false] at hd
    rcases hd with rfl | rfl | rfl | hd | rfl
    · decide
    · decide
    · decide
    · have hall : ∀ k < 16, InLine (Nat.digitChar k) := by decide
      obtain ⟨k, hk, rfl⟩ := exists_of_mem_toDigits hd
      exact hall k hk
    · decide
  · rw [hform, List.forall_mem_cons, List.forall_mem_singleton]
    exact ⟨by decide, hletters letter (List.mem_append_left _ hletter)⟩

theorem quoteVisibly_inLine (v : List Char) : ∀ d ∈ quoteVisibly v, InLine d := by
  intro d hd
  simp only [quoteVisibly, List.cons_append, List.mem_cons, List.mem_append, List.mem_flatMap,
    List.not_mem_nil, or_false] at hd
  rcases hd with rfl | ⟨c, -, hd⟩ | rfl
  · decide
  · exact visible_inLine c d hd
  · decide

end Text

namespace Pratt

open Text LineScanner

theorem toList_print_string (v : String) :
    (Term.string v).print.toList = '"' :: (v.toList.flatMap visible ++ ['"']) :=
  String.toList_ofList

theorem print_string_inLine (v : String) : ∀ c ∈ (Term.string v).print.toList, InLine c := by
  rw [toList_print_string]
  exact quoteVisibly_inLine v.toList

/-- A string of legible characters is printed as a text between quotes that stands for it. -/
theorem print_legible {v : String} (h : ∀ c ∈ v.toList, IsLegible c) :
    ∃ t, scan (Term.string v).print = .ok [t] ∧ t.kind = .string ∧ t.value = .text v := by
  have hdecode : Json.Quoted.decode (Term.string v).print.toList = some v.toList := by
    rw [toList_print_string]
    exact decode_legible h
  obtain ⟨t, hscan, hkind, hvalue⟩ := scan_of_decode (toList_print_string v)
    (isStringBody_of_legible h) (print_string_inLine v) hdecode
  rw [String.ofList_toList] at hvalue
  exact ⟨t, hscan, hkind, hvalue⟩

/-- No lexeme begins at the print of any other string. -/
theorem print_illegible {v : String} (h : ∃ c ∈ v.toList, ¬ IsLegible c) :
    scan (Term.string v).print = .error (noLexeme ⟨1, 0, 1⟩ (Term.string v).print.toList) := by
  have hnone : lexeme? ('"' :: (v.toList.flatMap visible ++ ['"'])) = none := by
    rw [lexeme?_quote, stringTailLength?_illegible h, Option.map_none]
  rw [scan_of_inLine (print_string_inLine v), toList_print_string]
  exact tokensFrom_of_none hnone

/-- A quoted text is a string, and what is printed for this is scanned as the string again if it has
only characters that the scanner reads as they are printed. Otherwise the print is refused at its
beginning. -/
theorem string_reprinted {text : String} {t : Token} (hscan : scan text = .ok [t])
    (hkind : t.kind = .string) : ∃ v, t.value = .text v ∧
      ((∀ c ∈ v.toList, IsLegible c) →
        ∃ t', scan (Term.string v).print = .ok [t'] ∧ t'.kind = .string ∧ t'.value = .text v) ∧
      ((∃ c ∈ v.toList, ¬ IsLegible c) →
        scan (Term.string v).print =
          .error (noLexeme ⟨1, 0, 1⟩ (Term.string v).print.toList)) := by
  obtain ⟨p, -, hlexed⟩ := lexedIn_of_tokensOfLines hscan t (List.mem_singleton_self t)
  obtain ⟨body, value, hquotes⟩ := hlexed.quotes hkind
  exact ⟨_, hquotes.value, print_legible, print_illegible⟩

/-- The token of `"\"\u0041"`. -/
def quoteToken : Token :=
  { kind := .string, text := "\"\\\"\\u0041\"", value := .text "\"A", span := ⟨0, 10⟩,
    position := ⟨1, 1⟩ }

theorem quote_reprinted : scan "\"\\\"\\u0041\"" = .ok [quoteToken] ∧
    quoteToken.kind = .string ∧ ∃ v, quoteToken.value = .text v ∧ (∀ c ∈ v.toList, IsLegible c) ∧
      ∃ t', scan (Term.string v).print = .ok [t'] ∧ t'.kind = .string ∧ t'.value = .text v := by
  have hscan : scan "\"\\\"\\u0041\"" = .ok [quoteToken] :=
    Failure.eq_ok_of_toOption (by decide +kernel)
  obtain ⟨v, hvalue, hlegible, -⟩ := string_reprinted hscan rfl
  obtain rfl := TokenValue.text.inj hvalue
  have hall : ∀ c ∈ "\"A".toList, IsLegible c :=
    List.forall_mem_cons.mpr ⟨by decide, List.forall_mem_singleton.mpr (by decide)⟩
  exact ⟨hscan, rfl, _, hvalue, hall, hlegible hall⟩

/-- The token of `"\u0009"`. -/
def tabToken : Token :=
  { kind := .string, text := "\"\\u0009\"", value := .text "\t", span := ⟨0, 8⟩,
    position := ⟨1, 1⟩ }

/-- A tab is printed by a letter that the scanner does not know. -/
theorem tab_not_reprinted : scan "\"\\u0009\"" = .ok [tabToken] ∧ tabToken.kind = .string ∧
    tabToken.value = .text "\t" ∧ ∀ t', scan (Term.string "\t").print ≠ .ok [t'] := by
  refine ⟨Failure.eq_ok_of_toOption (by decide +kernel), rfl, rfl, fun t' hscan => ?_⟩
  have hillegible : ¬ IsLegible '\t' := by decide
  rw [print_illegible ⟨'\t', List.mem_singleton_self _, hillegible⟩] at hscan
  cases hscan

end Pratt

end Precedence
