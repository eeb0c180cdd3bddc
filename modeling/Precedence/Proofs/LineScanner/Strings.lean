import Precedence.Proofs.LineScanner.Lexemes

/-!
# Texts between quotes in a line

What the line scanner takes as the body of a text between quotes: characters that are no quote and
no backslash, four escapes of one letter, and codes of four hexadecimal digits (`IsStringBody`). The
body ends at the first quote that is not part of an escape (`stringTailLength?_eq_some`), and so it
is read the same whatever follows that quote (`stringTailLength?_append`).
-/

namespace Precedence.LineScanner

open Number

/-- The letters that the scanner takes behind a backslash. -/
def escapeLetters : List Char :=
  ['n', 'r', '"', '\\']

/-- What may stand between the quotes. -/
inductive IsStringBody : List Char → Prop where
  | nil : IsStringBody []
  | plain {c : Char} {body : List Char} : c ≠ '"' → c ≠ '\\' → IsStringBody body →
    IsStringBody (c :: body)
  | escape {c : Char} {body : List Char} : c ∈ escapeLetters → IsStringBody body →
    IsStringBody ('\\' :: c :: body)
  | code {a b c d : Char} {body : List Char} :
    (∀ x ∈ [a, b, c, d], (hexDigitValue? x).isSome) → IsStringBody body →
    IsStringBody ('\\' :: 'u' :: a :: b :: c :: d :: body)

theorem stringTailLength?_plain {c : Char} (hquote : c ≠ '"') (hslash : c ≠ '\\')
    (rest : List Char) :
    stringTailLength? (c :: rest) = (stringTailLength? rest).map (· + 1) := by
  rw [stringTailLength?, if_neg hslash]
  · exact hquote
  · exact fun _ _ _ _ _ h => absurd h hslash
  · exact fun _ _ h => absurd h hslash

theorem stringTailLength?_letter {c : Char} (hcode : c ≠ 'u') (rest : List Char) :
    stringTailLength? ('\\' :: c :: rest) =
      if escapeLetters.contains c then (stringTailLength? rest).map (· + 2) else none := by
  rw [stringTailLength?]
  · rfl
  · exact fun _ _ _ _ _ h => absurd h hcode

theorem stringTailLength?_code {a b c d : Char} (rest : List Char) :
    stringTailLength? ('\\' :: 'u' :: a :: b :: c :: d :: rest) =
      if [a, b, c, d].all fun x => (hexDigitValue? x).isSome then
        (stringTailLength? rest).map (· + 6)
      else none := by
  rw [stringTailLength?]

theorem stringTailLength?_append {body : List Char} (h : IsStringBody body) (rest : List Char) :
    stringTailLength? (body ++ rest) = (stringTailLength? rest).map (· + body.length) := by
  induction h with
  | nil => simp
  | plain hquote hslash _ ih =>
    rw [List.cons_append, stringTailLength?_plain hquote hslash, ih, Option.map_map]
    rfl
  | @escape c body hc _ ih =>
    have hcode : c ≠ 'u' := by
      rintro rfl
      exact absurd hc (by decide)
    rw [List.cons_append, List.cons_append, stringTailLength?_letter hcode,
      if_pos (List.contains_iff_mem.mpr hc), ih, Option.map_map]
    rfl
  | code hdigits _ ih =>
    simp only [List.cons_append]
    rw [stringTailLength?_code, if_pos (List.all_eq_true.mpr hdigits), ih, Option.map_map]
    rfl

/-- The body of a text between quotes ends at the first quote outside of its escapes. -/
theorem stringTailLength?_eq_some {text : List Char} {n : Nat}
    (h : stringTailLength? text = some n) :
    ∃ body rest, IsStringBody body ∧ text = body ++ '"' :: rest ∧ n = body.length + 1 := by
  fun_induction stringTailLength? text generalizing n with
  | case1 => simp at h
  | case2 rest =>
    obtain rfl := Option.some.inj h
    exact ⟨[], rest, .nil, rfl, rfl⟩
  | case3 a b c d rest hdigits ih =>
    obtain ⟨k, hk, rfl⟩ := Option.map_eq_some_iff.mp h
    obtain ⟨body, behind, hbody, rfl, rfl⟩ := ih hk
    exact ⟨_, behind, .code (List.all_eq_true.mp hdigits) hbody, rfl, rfl⟩
  | case4 => simp at h
  | case5 c rest _ hc ih =>
    obtain ⟨k, hk, rfl⟩ := Option.map_eq_some_iff.mp h
    obtain ⟨body, behind, hbody, rfl, rfl⟩ := ih hk
    exact ⟨_, behind, .escape (List.contains_iff_mem.mp hc) hbody, rfl, rfl⟩
  | case6 => simp at h
  | case7 => simp at h
  | case8 c rest hquote _ _ hslash ih =>
    obtain ⟨k, hk, rfl⟩ := Option.map_eq_some_iff.mp h
    obtain ⟨body, behind, hbody, rfl, rfl⟩ := ih hk
    exact ⟨c :: body, behind, .plain hquote hslash hbody, rfl, rfl⟩

/-! ### Tokens between quotes -/

theorem lexeme?_quote (rest : List Char) : lexeme? ('"' :: rest) =
    (stringTailLength? rest).map fun n => ⟨.string, n + 1, Nat.succ_pos n⟩ :=
  rfl

/-- A lexeme between quotes is a quote, a body and another quote. -/
theorem string_of_lexeme {text : List Char} {lexeme : Lexeme} (h : lexeme? text = some lexeme)
    (hkind : lexeme.kind = .string) :
    ∃ body, IsStringBody body ∧ text.take lexeme.length = '"' :: (body ++ ['"']) := by
  obtain ⟨rest, rfl⟩ := (begins_of_lexeme h).2.2 hkind
  obtain ⟨n, hn, rfl⟩ := Option.map_eq_some_iff.mp ((lexeme?_quote rest).symm.trans h)
  obtain ⟨body, behind, hbody, rfl, rfl⟩ := stringTailLength?_eq_some hn
  refine ⟨body, hbody, ?_⟩
  have hwhole : body ++ '"' :: behind = (body ++ ['"']) ++ behind := by simp
  have hlength : body.length + 1 = (body ++ ['"']).length := by simp
  rw [List.take_succ_cons, hwhole, hlength, List.take_left]

/-- The token is a text between quotes with the given body, and it has the given value. -/
structure Quotes (t : Token) (body value : List Char) : Prop where
  kind : t.kind = .string
  isBody : IsStringBody body
  text : t.text.toList = '"' :: (body ++ ['"'])
  decode : Json.Quoted.decode t.text.toList = some value
  value : t.value = .text (String.ofList value)

theorem string_iff_of_token? {place : Place} {kind : LexemeKind} {read : List Char} {t : Token}
    (h : token? place kind read = .ok (some t)) : t.kind = .string ↔ kind = .string := by
  cases kind with
  | spaces => simp [token?] at h
  | comment => simp [token?] at h
  | name =>
    obtain rfl := Option.some.inj (Except.ok.inj h)
    simp
  | punctuator =>
    obtain rfl := Option.some.inj (Except.ok.inj h)
    simp
  | number =>
    simp only [token?] at h
    split at h
    · obtain rfl := Option.some.inj (Except.ok.inj h)
      simp
    · simp at h
  | string =>
    simp only [token?] at h
    split at h
    · obtain rfl := Option.some.inj (Except.ok.inj h)
      simp
    · simp at h

theorem LexedIn.kind_of_quote {t : Token} {line rest : List Char} (h : LexedIn t line)
    (htext : t.text.toList = '"' :: rest) : t.kind = .string := by
  obtain ⟨place, lexeme, text, hlexeme, htake, htoken⟩ := h.lexeme
  obtain ⟨tail, rfl⟩ : ∃ tail, text = '"' :: tail := by
    rw [htext] at htake
    rcases text with _ | ⟨c, tail⟩
    · simp at htake
    · obtain ⟨n, hn⟩ := Nat.exists_eq_succ_of_ne_zero (Nat.ne_of_gt lexeme.length_pos)
      rw [hn, List.take_succ_cons] at htake
      exact ⟨tail, by rw [(List.cons.inj htake).1]⟩
  obtain ⟨n, -, rfl⟩ := Option.map_eq_some_iff.mp ((lexeme?_quote tail).symm.trans hlexeme)
  exact (string_iff_of_token? htoken).mpr rfl

theorem LexedIn.quotes {t : Token} {line : List Char} (h : LexedIn t line)
    (hkind : t.kind = .string) : ∃ body value, Quotes t body value := by
  obtain ⟨place, lexeme, text, hlexeme, htake, htoken⟩ := h.lexeme
  have hstring : lexeme.kind = .string := (string_iff_of_token? htoken).mp hkind
  obtain ⟨body, hbody, htext⟩ := string_of_lexeme hlexeme hstring
  rw [hstring] at htoken
  simp only [token?] at htoken
  split at htoken
  · next value hvalue =>
    have ht := Option.some.inj (Except.ok.inj htoken)
    exact ⟨body, value, hkind, hbody, htake.trans htext, hvalue, (congrArg Token.value ht).symm⟩
  · simp at htoken

end Precedence.LineScanner
