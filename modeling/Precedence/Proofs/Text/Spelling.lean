import Mathlib.Data.List.Forall2
import Precedence.Text.Escape

/-!
# The spellings of a string

Between quotes each character of a string can be spelled in several ways: as itself, by the name of
an escape, by its code, or with a backslash in front (`Spelling`). The spellings are chosen for each
character by itself, and whichever are chosen, unescaping gives the string (`Spells.unescape_eq`).
-/

namespace Precedence.Text

open Number

/-- The letters that stand for characters of their own behind a backslash. -/
def namedEscapes : List (Char × Char) :=
  [('n', '\n'), ('r', '\r'), ('t', '\t'), ('b', '\x08'), ('f', '\x0c'), ('v', '\x0b'),
    ('0', '\x00')]

/-- A hexadecimal digit of either case. -/
def IsHexDigitOf (n : Nat) (c : Char) : Prop :=
  c = Nat.digitChar n ∨ c = (Nat.digitChar n).toUpper

/-- The four hexadecimal digits of a code. -/
def hexDigitsOf (code : Nat) : List Nat :=
  [code / 4096, code / 256 % 16, code / 16 % 16, code % 16]

/-- The ways to spell a character between two quotes of this kind. -/
inductive Spelling (quote c : Char) : List Char → Prop
  | plain (hquote : c ≠ quote) (hslash : c ≠ '\\') : Spelling quote c [c]
  | named (letter : Char) (h : (letter, c) ∈ namedEscapes) : Spelling quote c ['\\', letter]
  | code (digits : List Char) (hc : c.toNat < 0x10000)
    (h : List.Forall₂ IsHexDigitOf (hexDigitsOf c.toNat) digits) :
    Spelling quote c ('\\' :: 'u' :: digits)
  | escaped (hletter : c ∉ 'u' :: namedEscapes.map Prod.fst) (hline : c ≠ '\n') :
    Spelling quote c ['\\', c]

/-- The ways to spell a string, character by character. -/
inductive Spells (quote : Char) : List Char → List Char → Prop
  | nil : Spells quote [] []
  | cons (c : Char) (w : List Char) (h : Spelling quote c w) (s body : List Char)
    (hs : Spells quote s body) : Spells quote (c :: s) (w ++ body)

/-! ### Every string has a spelling -/

theorem exists_spelling {quote : Char} (hquote : quote ∉ '\n' :: 'u' :: namedEscapes.map Prod.fst)
    (c : Char) : ∃ w, Spelling quote c w := by
  by_cases hsame : c = quote ∨ c = '\\'
  · have hc : c ∉ '\n' :: 'u' :: namedEscapes.map Prod.fst := by
      rcases hsame with rfl | rfl
      · exact hquote
      · decide
    exact ⟨['\\', c], .escaped (fun h => hc (List.mem_cons_of_mem _ h))
      fun h => hc (h ▸ List.mem_cons_self)⟩
  · obtain ⟨hplain, hslash⟩ := not_or.mp hsame
    exact ⟨[c], .plain hplain hslash⟩

theorem exists_spells {quote : Char} (hquote : quote ∉ '\n' :: 'u' :: namedEscapes.map Prod.fst) :
    ∀ s, ∃ body, Spells quote s body
  | [] => ⟨[], .nil⟩
  | c :: s => by
    obtain ⟨w, hw⟩ := exists_spelling hquote c
    obtain ⟨body, hbody⟩ := exists_spells hquote s
    exact ⟨w ++ body, .cons c w hw s body hbody⟩

/-! ### Unescaping -/

theorem lt_of_mem_hexDigitsOf {code n : Nat} (hcode : code < 0x10000)
    (hn : n ∈ hexDigitsOf code) : n < 16 := by
  simp only [hexDigitsOf, List.mem_cons, List.not_mem_nil, or_false] at hn
  omega

/-- No hexadecimal digit ends a quoted text or is a backslash. -/
theorem plain_of_hexDigit {n : Nat} {d : Char} (hn : n < 16) (h : IsHexDigitOf n d) :
    d ≠ '\'' ∧ d ≠ '"' ∧ d ≠ '\\' := by
  have hlower : ∀ n < 16, Nat.digitChar n ≠ '\'' ∧ Nat.digitChar n ≠ '"' ∧
      Nat.digitChar n ≠ '\\' := by decide
  have hupper : ∀ n < 16, (Nat.digitChar n).toUpper ≠ '\'' ∧ (Nat.digitChar n).toUpper ≠ '"' ∧
      (Nat.digitChar n).toUpper ≠ '\\' := by decide
  rcases h with rfl | rfl
  · exact hlower n hn
  · exact hupper n hn

theorem plain_of_hexDigits : ∀ {numbers : List Nat} {digits : List Char},
    List.Forall₂ IsHexDigitOf numbers digits → (∀ n ∈ numbers, n < 16) →
      ∀ d ∈ digits, d ≠ '\'' ∧ d ≠ '"' ∧ d ≠ '\\'
  | [], _, .nil, _ => fun _ hd => absurd hd List.not_mem_nil
  | n :: _, d :: _, .cons h hs, hlt => by
    have hfirst : d ≠ '\'' ∧ d ≠ '"' ∧ d ≠ '\\' := plain_of_hexDigit (hlt n List.mem_cons_self) h
    have hbehind := plain_of_hexDigits hs fun m hm => hlt m (List.mem_cons_of_mem n hm)
    exact List.forall_mem_cons.mpr ⟨hfirst, hbehind⟩

theorem hexDigitValue?_of_digit {n : Nat} {c : Char} (hn : n < 16) (h : IsHexDigitOf n c) :
    hexDigitValue? c = some n := by
  have hall : ∀ n < 16, hexDigitValue? (Nat.digitChar n) = some n ∧
      hexDigitValue? (Nat.digitChar n).toUpper = some n := by decide
  rcases h with rfl | rfl
  · exact (hall n hn).1
  · exact (hall n hn).2

/-- Four hexadecimal digits have the value of the code that they are the digits of. -/
theorem hexDigitsValue?_of_code {code : Nat} (hcode : code < 0x10000) {digits : List Char}
    (h : List.Forall₂ IsHexDigitOf (hexDigitsOf code) digits) :
    ∃ d₁ d₂ d₃ d₄, digits = [d₁, d₂, d₃, d₄] ∧ hexDigitsValue? [d₁, d₂, d₃, d₄] = some code := by
  obtain ⟨d₁, _, h₁, hs₁, rfl⟩ := List.forall₂_cons_left_iff.mp h
  obtain ⟨d₂, _, h₂, hs₂, rfl⟩ := List.forall₂_cons_left_iff.mp hs₁
  obtain ⟨d₃, _, h₃, hs₃, rfl⟩ := List.forall₂_cons_left_iff.mp hs₂
  obtain ⟨d₄, _, h₄, hs₄, rfl⟩ := List.forall₂_cons_left_iff.mp hs₃
  obtain rfl := List.forall₂_nil_left_iff.mp hs₄
  refine ⟨d₁, d₂, d₃, d₄, rfl, ?_⟩
  have hlt := fun n => lt_of_mem_hexDigitsOf (n := n) hcode
  have hv₁ := hexDigitValue?_of_digit (hlt _ (by simp [hexDigitsOf])) h₁
  have hv₂ := hexDigitValue?_of_digit (hlt _ (by simp [hexDigitsOf])) h₂
  have hv₃ := hexDigitValue?_of_digit (hlt _ (by simp [hexDigitsOf])) h₃
  have hv₄ := hexDigitValue?_of_digit (hlt _ (by simp [hexDigitsOf])) h₄
  simp only [hexDigitsValue?, List.foldlM_cons, List.foldlM_nil, hv₁, hv₂, hv₃, hv₄,
    Option.map_some, Option.bind_eq_bind, Option.bind_some, Option.pure_def, Option.some.injEq]
  omega

theorem unescape_plain {c : Char} (hc : c ≠ '\\') (rest : List Char) :
    unescape (c :: rest) = c :: unescape rest := by
  rw [unescape]
  · exact fun _ _ _ _ _ h _ => hc h
  · exact fun _ h _ => hc h
  · exact fun _ _ h _ => hc h

theorem unescape_escaped {c : Char} (hc : c ≠ 'u') (rest : List Char) :
    unescape ('\\' :: c :: rest) = escapedChar c :: unescape rest := by
  rw [unescape]
  · exact fun _ _ _ _ _ h _ => hc h
  · exact fun h => hc h

theorem escapedChar_of_not_mem {c : Char} (hc : c ∉ namedEscapes.map Prod.fst) :
    escapedChar c = c := by
  unfold escapedChar
  split
  case h_8 => rfl
  all_goals exact absurd hc (by decide)

theorem charOfCode_toNat (c : Char) : charOfCode c.toNat = c := by
  have hvalid : c.toNat.isValidChar := c.valid
  rw [charOfCode, if_pos hvalid, Char.ofNat_toNat]

/-- A spelling stands for its character, whatever follows it. -/
theorem Spelling.unescape_append {quote c : Char} {w : List Char} (h : Spelling quote c w)
    (rest : List Char) : unescape (w ++ rest) = c :: unescape rest := by
  cases h with
  | plain _ hslash => exact unescape_plain hslash rest
  | named letter h =>
    have hall : ∀ e ∈ namedEscapes, e.1 ≠ 'u' ∧ escapedChar e.1 = e.2 := by decide
    obtain ⟨hu, hchar⟩ := hall _ h
    exact (unescape_escaped hu rest).trans (by rw [hchar])
  | code digits hc h =>
    obtain ⟨d₁, d₂, d₃, d₄, rfl, hvalue⟩ := hexDigitsValue?_of_code hc h
    show unescape ('\\' :: 'u' :: d₁ :: d₂ :: d₃ :: d₄ :: rest) = _
    rw [unescape, hvalue]
    show charOfCode c.toNat :: unescape rest = _
    rw [charOfCode_toNat]
  | escaped hletter _ =>
    have hu : c ≠ 'u' := fun h => hletter (h ▸ List.mem_cons_self)
    exact (unescape_escaped hu rest).trans
      (by rw [escapedChar_of_not_mem fun h => hletter (List.mem_cons_of_mem _ h)])

/-- However a string is spelled, unescaping gives it back. -/
theorem Spells.unescape_eq {quote : Char} {s body : List Char} (h : Spells quote s body) :
    unescape body = s := by
  induction h with
  | nil => rfl
  | cons c w h s body hs ih => rw [h.unescape_append, ih]

end Precedence.Text
