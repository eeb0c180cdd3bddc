import Precedence.Proofs.Grammar.Literals
import Precedence.Proofs.LineScanner.Strings

/-!
# Two ways to read a text between double quotes

The line scanner and the grammar decode such a text by themselves. They agree on every piece of it
that spells one character, but where the codes of two surrogates stand for a character the scanner
reads this, and the grammar a replacement character for each code (`Decodes`). So the values of the
text are the same exactly if there are no such pairs in it (`decoders_compared`).
-/

namespace Precedence

namespace Text

open Number Json.Quoted

/-! ### Codes -/

theorem isAscii_of_hexDigit {x : Char} {v : Nat} (h : hexDigitValue? x = some v) :
    Unicode.isAscii x = true := by
  have hle : x.toNat ≤ 'f'.toNat := by
    unfold hexDigitValue? at h
    split_ifs at h with hdigit hlower hupper
    · simp only [isDigit, Bool.and_eq_true, decide_eq_true_eq, Char.le_def] at hdigit
      exact Nat.le_trans hdigit.2 (by decide)
    · simp only [Bool.and_eq_true, decide_eq_true_eq, Char.le_def] at hlower
      exact hlower.2
    · simp only [Bool.and_eq_true, decide_eq_true_eq, Char.le_def] at hupper
      exact Nat.le_trans hupper.2 (by decide)
  simp only [Unicode.isAscii, decide_eq_true_eq]
  exact Nat.lt_of_le_of_lt hle (by decide)

instance (n : Nat) (c : Char) : Decidable (IsHexDigitOf n c) :=
  inferInstanceAs (Decidable (_ ∨ _))

/-- What has a value as a hexadecimal digit is that digit, in one of the cases. -/
theorem hexDigit_of_value {x : Char} {v : Nat} (h : hexDigitValue? x = some v) :
    v < 16 ∧ IsHexDigitOf v x := by
  have hall := Unicode.forall_ascii
    (p := fun x => (hexDigitValue? x).all fun v => decide (v < 16 ∧ IsHexDigitOf v x))
    (by decide +kernel) (isAscii_of_hexDigit h)
  simpa [h] using hall

/-- Four digits that have a value together are those of a code. -/
theorem hexDigits_of_value {a b c d : Char} {code : Nat}
    (h : hexDigitsValue? [a, b, c, d] = some code) :
    code < 0x10000 ∧ List.Forall₂ IsHexDigitOf (hexDigitsOf code) [a, b, c, d] := by
  simp only [hexDigitsValue?, List.foldlM_cons, List.foldlM_nil, Option.bind_eq_bind,
    Option.pure_def, Option.bind_eq_some_iff, Option.map_eq_some_iff, Option.some.injEq] at h
  obtain ⟨_, ⟨p, hp, rfl⟩, _, ⟨q, hq, rfl⟩, _, ⟨r, hr, rfl⟩, _, ⟨s, hs, rfl⟩, rfl⟩ := h
  obtain ⟨hp, hpdigit⟩ := hexDigit_of_value hp
  obtain ⟨hq, hqdigit⟩ := hexDigit_of_value hq
  obtain ⟨hr, hrdigit⟩ := hexDigit_of_value hr
  obtain ⟨hs, hsdigit⟩ := hexDigit_of_value hs
  have hdigits : hexDigitsOf (16 * (16 * (16 * (16 * 0 + p) + q) + r) + s) = [p, q, r, s] := by
    simp only [hexDigitsOf, List.cons.injEq, and_true]
    omega
  refine ⟨by omega, ?_⟩
  rw [hdigits]
  exact .cons hpdigit (.cons hqdigit (.cons hrdigit (.cons hsdigit .nil)))

/-! ### Bodies -/

/-- The digits are those of a code, in any case. -/
def IsCode (code : Nat) (digits : List Char) : Prop :=
  List.Forall₂ IsHexDigitOf (hexDigitsOf code) digits

/-- Between double quotes the body spells the characters `joined`, some of them by the codes of two
surrogates, `pairs` times; if each code is read by itself, the body spells `apart`. -/
inductive Decodes : (pairs : Nat) → (body joined apart : List Char) → Prop where
  | nil : Decodes 0 [] [] []
  | char {pairs : Nat} {body joined apart w : List Char} {c : Char} : Spelling '"' c w →
    Decodes pairs body joined apart → Decodes pairs (w ++ body) (c :: joined) (c :: apart)
  | pair {pairs high low : Nat} {body joined apart w w' : List Char} :
    isHighSurrogate high = true → isLowSurrogate low = true → IsCode high w → IsCode low w' →
    Decodes pairs body joined apart →
    Decodes (pairs + 1) ('\\' :: 'u' :: (w ++ '\\' :: 'u' :: (w' ++ body)))
      (joinSurrogates high low :: joined)
      (replacementCharacter :: replacementCharacter :: apart)

/-- A surrogate is no character. -/
theorem charOfCode_of_surrogate {code : Nat}
    (h : isHighSurrogate code = true ∨ isLowSurrogate code = true) :
    charOfCode code = replacementCharacter := by
  have hinvalid : ¬ code.isValidChar := by
    simp only [isHighSurrogate, isLowSurrogate, Bool.and_eq_true, decide_eq_true_eq] at h
    simp only [Nat.isValidChar]
    omega
  rw [charOfCode, if_neg hinvalid]

theorem lt_of_surrogate {code : Nat}
    (h : isHighSurrogate code = true ∨ isLowSurrogate code = true) : code < 0x10000 := by
  simp only [isHighSurrogate, isLowSurrogate, Bool.and_eq_true, decide_eq_true_eq] at h
  omega

/-- The code of a surrogate is read as a replacement character, whatever follows it. -/
theorem unescape_surrogate {code : Nat} {digits : List Char}
    (h : isHighSurrogate code = true ∨ isLowSurrogate code = true) (hdigits : IsCode code digits)
    (rest : List Char) :
    unescape ('\\' :: 'u' :: (digits ++ rest)) = replacementCharacter :: unescape rest := by
  obtain ⟨a, b, c, d, rfl, hvalue⟩ := hexDigitsValue?_of_code (lt_of_surrogate h) hdigits
  show unescape ('\\' :: 'u' :: a :: b :: c :: d :: rest) = _
  rw [unescape, hvalue]
  show charOfCode code :: _ = _
  rw [charOfCode_of_surrogate h]

namespace Decodes

variable {pairs : Nat} {body joined apart : List Char}

/-- Unescaping reads the codes by themselves. -/
theorem unescape_eq (h : Decodes pairs body joined apart) : unescape body = apart := by
  induction h with
  | nil => rfl
  | char hspelling _ ih => rw [hspelling.unescape_append, ih]
  | pair hhigh hlow hw hw' _ ih =>
    rw [unescape_surrogate (Or.inl hhigh) hw, unescape_surrogate (Or.inr hlow) hw', ih]

theorem length_eq (h : Decodes pairs body joined apart) :
    apart.length = joined.length + pairs := by
  induction h with
  | nil => rfl
  | char _ _ ih => rw [List.length_cons, List.length_cons, ih, Nat.add_right_comm]
  | pair _ _ _ _ _ ih =>
    simp only [List.length_cons, ih]
    omega

/-- Where there is no pair, it makes no difference how pairs are read. -/
theorem joined_eq_apart_iff (h : Decodes pairs body joined apart) : joined = apart ↔ pairs = 0 := by
  constructor
  · rintro rfl
    have hlength := h.length_eq
    omega
  · rintro rfl
    generalize hnone : 0 = n at h
    induction h with
    | nil => rfl
    | char _ _ ih => rw [ih hnone]
    | pair => exact absurd hnone (Nat.succ_ne_zero _).symm

end Decodes

/-- A letter with a name in JSON spells its character behind a backslash. -/
theorem spelling_of_named {letter c : Char} (h : named? letter = some c) :
    Spelling '"' c ['\\', letter] := by
  unfold named? at h
  split at h
  case h_9 => simp at h
  all_goals obtain rfl := Option.some.inj h
  · exact .escaped (by decide) (by decide)
  · exact .escaped (by decide) (by decide)
  · exact .escaped (by decide) (by decide)
  · exact .named 'b' (by decide)
  · exact .named 'f' (by decide)
  · exact .named 'n' (by decide)
  · exact .named 'r' (by decide)
  · exact .named 't' (by decide)

/-- A code that is no surrogate's spells its character. -/
theorem spelling_of_code {a b c d : Char} {code : Nat}
    (h : hexDigitsValue? [a, b, c, d] = some code) (hhigh : ¬ isHighSurrogate code = true)
    (hlow : ¬ isLowSurrogate code = true) :
    Spelling '"' (Char.ofNat code) ['\\', 'u', a, b, c, d] := by
  obtain ⟨hlt, hdigits⟩ := hexDigits_of_value h
  have hvalid : code.isValidChar := by
    simp only [isHighSurrogate, isLowSurrogate, Bool.and_eq_true, decide_eq_true_eq] at hhigh hlow
    simp only [Nat.isValidChar]
    omega
  have hcode : (Char.ofNat code).toNat = code := by rw [Char.toNat_ofNat, if_pos hvalid]
  exact .code [a, b, c, d] (by rwa [hcode]) (by rwa [hcode])

/-- What is read up to the closing quote is spelled by what stands in front of that. -/
theorem decodes_of_read {front text value rest : List Char}
    (h : Json.Quoted.read front text = some (value, rest)) :
    ∃ pairs body joined apart, text = body ++ '"' :: rest ∧ value = front.reverse ++ joined ∧
      Decodes pairs body joined apart := by
  fun_induction Json.Quoted.read front text with
  | case1 => simp at h
  | case2 front rest' =>
    obtain ⟨rfl, rfl⟩ := Prod.mk.inj (Option.some.inj h)
    exact ⟨0, [], [], [], rfl, (List.append_nil _).symm, .nil⟩
  | case3 => simp at h
  | case4 => simp at h
  | case5 front a b c d high hhigh hhigh' a' b' c' d' rest' low hlow hlow' ih =>
    obtain ⟨pairs, body, joined, apart, rfl, rfl, hbody⟩ := ih h
    exact ⟨pairs + 1, _, _, _, rfl, by simp,
      .pair hhigh' hlow' (hexDigits_of_value hhigh).2 (hexDigits_of_value hlow).2 hbody⟩
  | case6 => simp at h
  | case7 => simp at h
  | case8 => simp at h
  | case9 front a b c d rest' code hcode hhigh hlow ih =>
    obtain ⟨pairs, body, joined, apart, rfl, rfl, hbody⟩ := ih h
    exact ⟨pairs, _, _, _, rfl, by simp, .char (spelling_of_code hcode hhigh hlow) hbody⟩
  | case10 front letter rest' hcode c hnamed ih =>
    obtain ⟨pairs, body, joined, apart, rfl, rfl, hbody⟩ := ih h
    exact ⟨pairs, _, _, _, rfl, by simp, .char (spelling_of_named hnamed) hbody⟩
  | case11 => simp at h
  | case12 => simp at h
  | case13 front c rest' hquote hcode hslash hplain ih =>
    obtain ⟨pairs, body, joined, apart, rfl, rfl, hbody⟩ := ih h
    simp only [Bool.or_eq_true, decide_eq_true_eq, not_or] at hplain
    exact ⟨pairs, c :: body, _, _, rfl, by simp, .char (.plain hquote hplain.1) hbody⟩

/-- What a text between quotes decodes to is spelled by its body. -/
theorem decodes_of_decode {body value : List Char}
    (h : Json.Quoted.decode ('"' :: (body ++ ['"'])) = some value) :
    ∃ pairs apart, Decodes pairs body value apart := by
  unfold Json.Quoted.decode at h
  split at h
  · next rest hrest =>
    obtain rfl := (List.cons.inj hrest).2
    split at h
    · next text hread =>
      obtain rfl := Option.some.inj h
      obtain ⟨pairs, body', joined, apart, hbody, rfl, hdecodes⟩ := decodes_of_read hread
      obtain rfl := List.append_cancel_right hbody
      exact ⟨pairs, apart, hdecodes⟩
    · simp at h
  · simp at h

end Text

namespace Grammar

open Text LineScanner

variable {options : GrammarOptions}

theorem isQuoted_of_decodes {pairs : Nat} {body joined apart : List Char}
    (h : Decodes pairs body joined apart) : IsQuoted '"' body := by
  induction h with
  | nil => exact .nil
  | char hspelling _ ih => exact isQuoted_of_spelling (Or.inr rfl) hspelling ih
  | @pair _ high low _ _ _ w w' hhigh hlow hw hw' _ ih =>
    have hplain : ∀ {code : Nat} {digits : List Char}, code < 0x10000 → IsCode code digits →
        ∀ d ∈ digits, d ≠ '"' ∧ d ≠ '\\' := fun hlt hdigits d hd =>
      (plain_of_hexDigits hdigits (fun _ => lt_of_mem_hexDigitsOf hlt) d hd).2
    have hsecond : IsQuoted '"' ('\\' :: 'u' :: (w' ++ _)) :=
      (ih.append (hplain (lt_of_surrogate (Or.inr hlow)) hw')).escape (by decide)
    exact (hsecond.append (hplain (lt_of_surrogate (Or.inl hhigh)) hw)).escape (by decide)

/-- A text that begins between double quotes has the token of these first. -/
theorem first_of_tokenize {text : String} {body rest : List Char} {t : Token} {ts : List Token}
    (htext : text.toList = '"' :: (body ++ '"' :: rest)) (hbody : IsQuoted '"' body)
    (h : tokenize ⟨options, lexer options⟩ text = .ok (t :: ts)) :
    t.kind = .string ∧ t.text.toList = '"' :: (body ++ ['"']) ∧ t.textValue.toList = body := by
  have hfrom : (lexer options).tokensFrom (.ofText text.toList) 0 none text.toList =
      .ok (t :: ts) := h
  rw [htext] at hfrom
  obtain ⟨s, us, hs, -, hcases⟩ := Classifier.tokensFrom_cons hfrom
  obtain rfl := Option.some.inj ((quoted_taken (Or.inr rfl) hbody none rest).symm.trans hs)
  rcases hcases with ⟨hignored, -⟩ | ⟨-, t', ht', htokens⟩
  · simp at hignored
  obtain ⟨rfl, rfl⟩ := List.cons.inj htokens
  have htoken := Classifier.isTokenOf_of_token ht'
  have hvalue : t.value = .text (String.ofList body) := htoken.value (by simp)
  refine ⟨htoken.kind, ?_, ?_⟩
  · rw [htoken.text, String.toList_ofList]
  · rw [Token.textValue, hvalue]
    exact String.toList_ofList

/-- A text that begins with a double quote begins with its first token. -/
theorem first_of_covered {front text : List Char} {s : Token} {ts : List Token}
    (hquote : text.head? = some '"') (h : Covered front text (s :: ts)) :
    ∃ rest, text = s.text.toList ++ rest ∧ s.text.toList ≠ [] := by
  cases h with
  | space _ => simp at hquote
  | lineBreak hbreak _ => exact absurd (by decide) (hbreak.not_inLine '"' hquote)
  | comment _ _ _ => simp at hquote
  | token hstands _ => exact ⟨_, rfl, hstands.ne_nil⟩

/-- The line scanner reads such a text as the quoted text that it begins with. -/
theorem first_of_scan {text : String} {s : Token} {ts : List Token}
    (hquote : text.toList.head? = some '"') (h : scan text = .ok (s :: ts)) :
    ∃ body value rest, Quotes s body value ∧ text.toList = s.text.toList ++ rest := by
  obtain ⟨rest, htext, hne⟩ := first_of_covered hquote (covered_of_scan h)
  obtain ⟨p, -, hlexed⟩ := lexedIn_of_tokensOfLines h s List.mem_cons_self
  obtain ⟨c, cs, hs⟩ := List.exists_cons_of_ne_nil hne
  obtain rfl : c = '"' := by
    rw [htext, hs] at hquote
    exact Option.some.inj hquote
  obtain ⟨body, value, hquotes⟩ := hlexed.quotes (hlexed.kind_of_quote hs)
  exact ⟨body, value, rest, hquotes, htext⟩

/-- Both tokens of a text between double quotes are of the same piece of it. The value of the one
has a character for each pair of surrogates, and that of the other two replacement characters, so
that these are the same values exactly if there are no such pairs. -/
theorem decoders_compared (h : options.validate = .ok options) :
    ∃ grammar, ofOptions options = .ok grammar ∧ ∀ text s t, text.toList.head? = some '"' →
      scan text = .ok [s] → grammar.tokenize text = .ok [t] →
        s.kind = .string ∧ t.kind = .string ∧ s.text = t.text ∧
          ∃ pairs joined, Decodes pairs t.textValue.toList joined (unescape t.textValue.toList) ∧
            s.value = .text (String.ofList joined) ∧
            (s.value = .text (String.ofList (unescape t.textValue.toList)) ↔ pairs = 0) := by
  have hfault := (GrammarOptions.fault?_of_validate h).1
  refine ⟨_, ofOptions_eq hfault, fun text s t hquote hscan htokens => ?_⟩
  obtain ⟨body, value, rest, hs, htext⟩ := first_of_scan hquote hscan
  obtain ⟨pairs, apart, hdecodes⟩ := decodes_of_decode (hs.text ▸ hs.decode)
  have hwhole : text.toList = '"' :: (body ++ '"' :: rest) := by
    rw [htext, hs.text]
    simp
  obtain ⟨hkind, ht, hbody⟩ := first_of_tokenize hwhole (isQuoted_of_decodes hdecodes) htokens
  obtain rfl := hdecodes.unescape_eq
  rw [hbody]
  refine ⟨hs.kind, hkind, ?_, pairs, value, hdecodes, hs.value, ?_⟩
  · rw [← String.toList_inj, hs.text, ht]
  · rw [hs.value, TokenValue.text.injEq, String.ofList_inj]
    exact hdecodes.joined_eq_apart_iff

/-- A quoted text that decodes is a token by itself. -/
theorem tokenize_of_decode {body value : List Char}
    (h : Json.Quoted.decode ('"' :: (body ++ ['"'])) = some value) :
    ∃ t, tokenize ⟨options, lexer options⟩ (String.ofList ('"' :: (body ++ ['"']))) = .ok [t] ∧
      t.kind = .string ∧ t.textValue.toList = body := by
  obtain ⟨pairs, apart, hdecodes⟩ := decodes_of_decode h
  have htokens : tokenize ⟨options, lexer options⟩ (String.ofList ('"' :: (body ++ ['"']))) =
      .ok [_] :=
    tokenize_of_single (quoted_taken (Or.inr rfl) (isQuoted_of_decodes hdecodes) none [])
      (by decide) rfl
  exact ⟨_, htokens, rfl, String.toList_ofList⟩

/-- The token of `"\u00E9\n"` for the line scanner. -/
def accentToken : Token :=
  { kind := .string, text := "\"\\u00E9\\n\"", value := .text "é\n", span := ⟨0, 10⟩,
    position := ⟨1, 1⟩ }

theorem accent_compared : GrammarOptions.standard.validate = .ok .standard ∧
    ∃ grammar, ofOptions .standard = .ok grammar ∧ ∃ t,
      scan "\"\\u00E9\\n\"" = .ok [accentToken] ∧
      grammar.tokenize "\"\\u00E9\\n\"" = .ok [t] ∧ t.kind = .string ∧ accentToken.text = t.text ∧
      ∃ pairs joined, Decodes pairs t.textValue.toList joined (unescape t.textValue.toList) ∧
        accentToken.value = .text (String.ofList joined) ∧
        (accentToken.value = .text (String.ofList (unescape t.textValue.toList)) ↔ pairs = 0) := by
  obtain ⟨grammar, hgrammar, hall⟩ :=
    decoders_compared (show GrammarOptions.standard.validate = .ok .standard from rfl)
  obtain rfl := Except.ok.inj ((ofOptions_eq rfl).symm.trans hgrammar)
  have hscan : scan "\"\\u00E9\\n\"" = .ok [accentToken] :=
    Failure.eq_ok_of_toOption (by decide +kernel)
  have hdecode : Json.Quoted.decode ('"' :: ("\\u00E9\\n".toList ++ ['"'])) =
      some ['é', '\n'] := by
    decide +kernel
  obtain ⟨t, htokens, -⟩ := tokenize_of_decode hdecode
  obtain ⟨-, hkind, htext, hvalues⟩ := hall _ accentToken t rfl hscan htokens
  exact ⟨rfl, _, hgrammar, t, hscan, htokens, hkind, htext, hvalues⟩

/-- The token of `"\uD83D\uDE00"` for the line scanner. -/
def pairToken : Token :=
  { kind := .string, text := "\"\\uD83D\\uDE00\"", value := .text "😀", span := ⟨0, 14⟩,
    position := ⟨1, 1⟩ }

/-- The codes of two surrogates are one character for the line scanner, and none for the
grammar. -/
theorem pair_decoded_apart : GrammarOptions.standard.validate = .ok .standard ∧
    ∃ grammar, ofOptions .standard = .ok grammar ∧ ∃ t,
      scan "\"\\uD83D\\uDE00\"" = .ok [pairToken] ∧
      grammar.tokenize "\"\\uD83D\\uDE00\"" = .ok [t] ∧ t.kind = .string ∧
      pairToken.value ≠ .text (String.ofList (unescape t.textValue.toList)) := by
  have hscan : scan "\"\\uD83D\\uDE00\"" = .ok [pairToken] :=
    Failure.eq_ok_of_toOption (by decide +kernel)
  have hdecode : Json.Quoted.decode ('"' :: ("\\uD83D\\uDE00".toList ++ ['"'])) =
      some ['😀'] := by
    decide +kernel
  obtain ⟨t, htokens, hkind, hbody⟩ := tokenize_of_decode hdecode
  refine ⟨rfl, _, ofOptions_eq rfl, t, hscan, htokens, hkind, ?_⟩
  rw [hbody]
  decide +kernel

end Grammar

end Precedence
