import Mathlib.Tactic.SplitIfs
import Precedence.Proofs.Grammar.Derivation
import Precedence.Proofs.Grammar.Lexemes.ReadBack

/-!
# Splitting a text piece by piece

Pieces that meet are split one after the other (`Classifier.Splits.append`), so the tokens of a
printed expression are those of its pieces. Each identifier and each literal of a text is split off
again, with the same meaning, wherever it is printed (`written_of_tokens`).
-/

namespace Precedence

open Text

namespace Grammar

variable {options : GrammarOptions}

/-- The tokens of a text that is split without anything in front of it or behind it. -/
theorem tokenize_of_splits {text : String} {ts : List Token}
    (h : (lexer options).Splits (.ofText text.toList) 0 none text.toList [] ts) :
    tokenize ⟨options, lexer options⟩ text = .ok ts :=
  h.tokens

theorem tokensFrom_of_tokenize {w : List Char} {tokens : List Token}
    (h : tokenize ⟨options, lexer options⟩ (String.ofList w) = .ok tokens) :
    (lexer options).tokensFrom (.ofText w) 0 none w = .ok tokens := by
  have hfrom : (lexer options).tokensFrom (.ofText (String.ofList w).toList) 0 none
      (String.ofList w).toList = .ok tokens := h
  rwa [String.toList_ofList] at hfrom

/-- Wherever it is printed, `w` is a token of that sort. -/
structure PrintsAs (options : GrammarOptions) (P : Token → Prop) (w : List Char) : Prop where
  head : ∃ c cs, w = c :: cs ∧ Unicode.isSpace c = false
  splits : ∀ index offset before rest, Opening before → Closing rest →
    ∃ t, P t ∧ (lexer options).Splits index offset before w rest [t]

/-- A number that is written without a point at one of its ends, or another literal. -/
def Closed (value : LiteralValue) (raw : String) : Prop :=
  ∀ x, value = .number x → raw.toList.head? ≠ some '.' ∧ raw.toList.getLast? ≠ some '.'

/-- What an identifier or a literal means is kept in print. -/
structure Written (options : GrammarOptions) (t : Token) : Prop where
  identifier : t.kind = .identifier →
    PrintsAs options (fun t' => t'.kind = .identifier ∧ t'.textValue = t.textValue)
      t.textValue.toList
  literal : ∀ value raw, literalValue? options t = some (value, raw) → Closed value raw →
    PrintsAs options (fun t' => literalValue? options t' = some (value, raw)) raw.toList

theorem literalValue?_congr {t t' : Token} (hkind : t'.kind = t.kind) (htext : t'.text = t.text)
    (hvalue : t'.value = t.value) (hfirst : t'.capture? 0 = t.capture? 0)
    (hsecond : (t'.capture? 1).getD "" = (t.capture? 1).getD "") :
    literalValue? options t' = literalValue? options t := by
  simp only [literalValue?, finite?, Token.textValue, Token.number?, hkind, htext, hvalue, hfirst,
    hsecond]

theorem literalValue?_of_number {t : Token} {x : Number.Binary64} (hk : t.kind = .number)
    (hvalue : t.value = .number x) (hfinite : x.isFinite = true) :
    literalValue? options t = some (.number x, t.text) := by
  simp only [literalValue?, hk, finite?, Token.number?, hvalue, Option.some_or]
  rw [Option.filter_some, if_pos hfinite]
  rfl

section Pieces

variable (index : LineIndex) (offset : Nat) (before : Option Char) (rest : List Char)

theorem verbatim_splits {w : List Char}
    (h : (lexer options).segment? before (w ++ rest) = some ⟨.verbatim, w, [some w], rest⟩) :
    ∃ t, t.IsVerbatim (String.ofList w) ∧ (lexer options).Splits index offset before w rest [t] :=
  ⟨_, ⟨rfl, rfl⟩, .of_token h (by decide) rfl⟩

theorem bracket_splits {c : Char} (hc : c ∈ ['(', ')', ',']) : ∃ t,
    t.IsVerbatim (String.singleton c) ∧
      (lexer options).Splits index offset before [c] rest [t] :=
  verbatim_splits index offset before rest (bracket_segment hc rest)

theorem blank_splits {c : Char} (hc : Unicode.isSpace c = false) :
    (lexer options).Splits index offset before [' '] (c :: rest) [] :=
  .of_ignored (blank_segment hc rest) rfl

end Pieces

/-! ### The tokens of a text -/

theorem PrintsAs.mono {P Q : Token → Prop} {w : List Char} (h : PrintsAs options P w)
    (hPQ : ∀ t, P t → Q t) : PrintsAs options Q w where
  head := h.head
  splits index offset before rest hbefore hrest := by
    obtain ⟨t, ht, hsplits⟩ := h.splits index offset before rest hbefore hrest
    exact ⟨t, hPQ t ht, hsplits⟩

/-- A token of a regular expression has the pattern and the flags of its segment. -/
theorem captures_of_regex {t : Token} {s : Segment} (htoken : Classifier.IsTokenOf t s)
    {body flags : List Char} (hcaptures : s.captures = [some body, some flags] ∨
      flags = [] ∧ s.captures = [some body, none]) :
    t.capture? 0 = some (String.ofList body) ∧
      (t.capture? 1).getD "" = String.ofList flags := by
  rw [Token.capture?, Token.capture?, htoken.captures]
  rcases hcaptures with hc | ⟨rfl, hc⟩ <;> rw [hc] <;> exact ⟨rfl, rfl⟩

/-- What is put together of the captures of a regular expression is its text again. -/
theorem raw_of_regex {before : Option Char} {text : List Char} {t : Token} {s : Segment}
    (h : (lexer options).segment? before text = some s) (htoken : Classifier.IsTokenOf t s)
    (hk : s.kind = .regex) {value : LiteralValue} {raw : String}
    (hv : literalValue? options t = some (value, raw)) : raw = t.text := by
  rw [literalValue?, htoken.kind, hk] at hv
  by_cases hr : options.regexLiterals = true
  · obtain ⟨body, flags, htext, hcaptures, -⟩ := regex_readsBack h hk hr
    obtain ⟨hbody, hflags⟩ := captures_of_regex htoken hcaptures
    simp only [if_pos hr, hbody, hflags, Option.map_some, Option.some.injEq, Prod.mk.injEq] at hv
    rw [← hv.2, htoken.text, htext, ← String.toList_inj]
    simp
  · simp [hr] at hv

section Segments

variable {index : LineIndex} {offset : Nat} {before : Option Char} {c : Char} {cs : List Char}
  {s : Segment} {t : Token} (h : (lexer options).segment? before (c :: cs) = some s)
  (ht : Classifier.token index offset s = .ok t)

include h ht

/-- A segment that is read back is the same token again, but for its place. -/
theorem printsAs_of_readsBack {captures : List (Option (List Char))}
    (hback : ReadsBack options s.kind s.text captures) (hkind : s.kind ≠ .ignore)
    (hfirst : captures.findSome? id = s.captures.findSome? id) :
    PrintsAs options (fun t' => t'.kind = t.kind ∧ t'.text = t.text ∧ t'.value = t.value ∧
      t'.captures = captures.map fun c => c.map String.ofList) s.text := by
  obtain ⟨d, w, rest, htext, hw⟩ := Classifier.begins_of_segment h
  obtain ⟨rfl, -⟩ := List.cons.inj htext
  refine ⟨⟨c, w, hw, not_space_of_segment h hkind⟩, ?_⟩
  intro index' offset' before' rest' hbefore hrest
  have hprimary : Segment.primary ⟨s.kind, s.text, captures, rest'⟩ = s.primary := by
    rw [Segment.primary, Segment.primary, hfirst]
  have hkind' : Segment.kind ⟨s.kind, s.text, captures, rest'⟩ = s.kind := rfl
  obtain ⟨t', ht', hvalue⟩ := Classifier.exists_token ht hkind' hprimary index' offset'
  have htoken := Classifier.isTokenOf_of_token ht
  have htoken' := Classifier.isTokenOf_of_token ht'
  exact ⟨t', ⟨htoken'.kind.trans htoken.kind.symm, htoken'.text.trans htoken.text.symm, hvalue,
    htoken'.captures⟩, .of_token (hback before' rest' hbefore hrest) hkind ht'⟩

theorem printsAs_literal (hback : ReadsBack options s.kind s.text s.captures)
    (hkind : s.kind ≠ .ignore) {value : LiteralValue} {raw : String} (hraw : raw = t.text)
    (hv : literalValue? options t = some (value, raw)) :
    PrintsAs options (fun t' => literalValue? options t' = some (value, raw)) raw.toList := by
  have htoken := Classifier.isTokenOf_of_token ht
  have htext : raw.toList = s.text := by rw [hraw, htoken.text, String.toList_ofList]
  rw [htext]
  refine (printsAs_of_readsBack h ht hback hkind rfl).mono ?_
  rintro t' ⟨hkind', htext, hvalue, hcaptures⟩
  rw [← htoken.captures] at hcaptures
  rw [← hv]
  exact literalValue?_congr hkind' htext hvalue (by rw [Token.capture?, Token.capture?, hcaptures])
    (by rw [Token.capture?, Token.capture?, hcaptures])

theorem printsAs_regex (hk : s.kind = .regex) (hr : options.regexLiterals = true)
    {value : LiteralValue} {raw : String}
    (hv : literalValue? options t = some (value, raw)) :
    PrintsAs options (fun t' => literalValue? options t' = some (value, raw)) raw.toList := by
  have htoken := Classifier.isTokenOf_of_token ht
  obtain ⟨body, flags, htext, hcaptures, hback⟩ := regex_readsBack h hk hr
  obtain ⟨hbody, hflags⟩ := captures_of_regex htoken hcaptures
  have hraw : raw.toList = s.text := by
    rw [raw_of_regex h htoken hk hv, htoken.text, String.toList_ofList]
  have hfirst : [some body, if flags = [] then none else some flags].findSome? id =
      s.captures.findSome? id := by
    rcases hcaptures with hc | ⟨-, hc⟩ <;> rw [hc] <;> rfl
  rw [hraw]
  refine (printsAs_of_readsBack h ht (hk ▸ hback) (by rw [hk]; decide) hfirst).mono ?_
  rintro t' ⟨hkind', htext', hvalue, hcaptures'⟩
  rw [← hv]
  refine literalValue?_congr hkind' htext' hvalue ?_ ?_
  · rw [hbody, Token.capture?, hcaptures']
    rfl
  · rw [hflags, Token.capture?, hcaptures']
    by_cases hempty : flags = []
    · simp [hempty]
    · simp [hempty]

theorem literal_written {value : LiteralValue} {raw : String}
    (hv : literalValue? options t = some (value, raw)) (hclosed : Closed value raw) :
    PrintsAs options (fun t' => literalValue? options t' = some (value, raw)) raw.toList := by
  have htoken := Classifier.isTokenOf_of_token ht
  have hv' := hv
  unfold literalValue? at hv'
  rw [htoken.kind] at hv'
  cases hk : s.kind with
  | string =>
    rw [hk] at hv'
    obtain ⟨-, rfl⟩ := Prod.mk.inj (Option.some.inj hv')
    exact printsAs_literal h ht (hk ▸ string_readsBack h hk) (by rw [hk]; decide) rfl hv
  | number =>
    rw [hk] at hv'
    obtain ⟨x, -, hx⟩ := Option.map_eq_some_iff.mp hv'
    obtain ⟨rfl, rfl⟩ := Prod.mk.inj hx
    have hends := hclosed x rfl
    rw [htoken.text, String.toList_ofList] at hends
    exact printsAs_literal h ht (hk ▸ number_readsBack h hk hends.1 hends.2)
      (by rw [hk]; decide) rfl hv
  | null =>
    rw [hk] at hv'
    obtain ⟨-, rfl⟩ := Prod.mk.inj (Option.some.inj hv')
    exact printsAs_literal h ht (hk ▸ null_readsBack h hk) (by rw [hk]; decide) rfl hv
  | boolean =>
    rw [hk] at hv'
    obtain ⟨-, rfl⟩ := Prod.mk.inj (Option.some.inj hv')
    exact printsAs_literal h ht (hk ▸ boolean_readsBack h hk) (by rw [hk]; decide) rfl hv
  | regex =>
    rw [hk] at hv'
    by_cases hr : options.regexLiterals = true
    · exact printsAs_regex h ht hk hr hv
    · simp [hr] at hv'
  | _ =>
    rw [hk] at hv'
    simp at hv'

theorem identifier_written (hjoined : Joined before (c :: cs))
    (hrest : ∀ c ∈ s.rest.head?, Unicode.isAscii c = true ∨ Unicode.isSpace c = true)
    (hk : t.kind = .identifier) :
    PrintsAs options (fun t' => t'.kind = .identifier ∧ t'.textValue = t.textValue)
      t.textValue.toList := by
  have htoken := Classifier.isTokenOf_of_token ht
  have hk' : s.kind = .identifier := htoken.kind ▸ hk
  have hback := identifier_readsBack hjoined h hk' hrest
  have hvalue : t.value = .text (String.ofList s.text) := by
    obtain ⟨_, _, _, -, -, -, -, hs⟩ := identifier_segment_iff.mp ((segment_of_kind h).2.2 hk')
    rw [htoken.value (by rw [hk']; decide), hs]
    rfl
  have htext : t.textValue = String.ofList s.text := by rw [Token.textValue, hvalue]
  rw [htext, String.toList_ofList]
  refine (printsAs_of_readsBack h ht (hk' ▸ hback) (by rw [hk']; decide) rfl).mono ?_
  rintro t' ⟨hkind, -, hvalue', -⟩
  exact ⟨hkind.trans hk, by rw [Token.textValue, hvalue', hvalue]⟩

end Segments

theorem head_of_segment {before : Option Char} {text : List Char} {s : Segment}
    (h : (lexer options).segment? before text = some s) :
    ∀ c ∈ text.head?, Unicode.isAscii c = true ∨ Unicode.isSpace c = true := by
  obtain ⟨c, w, rest, rfl, -⟩ := Classifier.begins_of_segment h
  intro d hd
  obtain rfl := Option.some.inj hd
  exact continues_of_segment h

/-- Each token of a text is kept in print. -/
theorem written_of_tokens {index : LineIndex} {offset : Nat} {before : Option Char}
    {text : List Char} {tokens : List Token} (hjoined : Joined before text)
    (h : (lexer options).tokensFrom index offset before text = .ok tokens) :
    (∀ c ∈ text.head?, Unicode.isAscii c = true ∨ Unicode.isSpace c = true) ∧
      ∀ t ∈ tokens, Written options t := by
  -- each segment leaves a text that is joined again
  refine Classifier.tokensFrom_induction (motive := fun _ before text tokens =>
    Joined before text →
      (∀ c ∈ text.head?, Unicode.isAscii c = true ∨ Unicode.isSpace c = true) ∧
        ∀ t ∈ tokens, Written options t) ?nil ?ignored ?read h hjoined
  case nil => simp
  case ignored =>
    intro offset before text s ts hs _ _ ih _
    exact ⟨head_of_segment hs, (ih (joined_of_segment hs)).2⟩
  case read =>
    intro offset before text s ts t hs _ ht _ ih hjoined
    obtain ⟨hnext, hts⟩ := ih (joined_of_segment hs)
    refine ⟨head_of_segment hs, List.forall_mem_cons.mpr ⟨?_, hts⟩⟩
    obtain ⟨c, _, rest, rfl, -⟩ := Classifier.begins_of_segment hs
    exact ⟨fun hk => identifier_written hs ht hjoined hnext hk,
      fun value raw hv hclosed => literal_written hs ht hv hclosed⟩

end Grammar

end Precedence
