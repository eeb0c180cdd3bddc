import Precedence.Proofs.Grammar.Gaps
import Precedence.Proofs.Grammar.Lexemes.Contexts
import Precedence.Proofs.Grammar.Literals

/-!
# Reserved words and other words

A text that is a word is one token, that of a reserved word or an identifier, and no identifier of
a text is a reserved word (`words_tokenized`). A dollar sign is part of a word but no word character
to the patterns, so a reserved word in front of one stands between word boundaries: a text that goes
on with a dollar sign behind a reserved word is split there.
-/

namespace Precedence

namespace Grammar

open Regex TokenPattern Text

variable {options : GrammarOptions} {before : Option Char} {w rest : List Char}

/-- The reserved words, each with the kind of its tokens. -/
def reservedWords : List (String × TokenKind) :=
  [("null", .null), ("true", .boolean), ("false", .boolean), ("NOT", .verbatim),
    ("AND", .verbatim), ("ANY", .verbatim), ("typeof", .verbatim), ("instanceof", .verbatim),
    ("in", .verbatim), ("new", .verbatim)]

/-- The kind of the token that a word is. -/
def kindOfWord (word : String) : TokenKind :=
  (reservedWords.lookup word).getD .identifier

/-- Letters, digits, underscores and dollar signs, the first of them no digit. -/
def IsWord (w : List Char) : Prop :=
  ∃ c cs, w = c :: cs ∧ identifierStart.contains c = true ∧
    ∀ d ∈ cs, identifierPart.contains d = true

theorem keyword_of_reserved {r : String × TokenKind} (hr : r ∈ reservedWords) :
    IsKeyword r.1.toList := by
  have hall : ∀ r ∈ reservedWords, r.1 ∈ ["null"] ++ ["true", "false"] ++ verbatimWords := by
    decide
  exact keywords r.1 (hall r hr)

theorem start_of_reserved {r : String × TokenKind} (hr : r ∈ reservedWords) :
    ∃ c cs, r.1.toList = c :: cs ∧ identifierStart.contains c = true := by
  have hall : ∀ r ∈ reservedWords, r.1.toList.head?.any identifierStart.contains = true := by
    decide
  obtain ⟨c, hc, hstart⟩ := (Option.any_eq_true _ _).mp (hall r hr)
  obtain ⟨cs, hcs⟩ := List.head?_eq_some_iff.mp hc
  exact ⟨c, cs, hcs, hstart⟩

theorem IsKeyword.head (h : IsKeyword w) : w.head?.any Unicode.isWord = true := by
  obtain ⟨hne, hchars⟩ := h
  rw [List.head?_eq_some_head hne]
  exact (hchars _ (List.head_mem hne)).2

theorem IsKeyword.last (h : IsKeyword w) : w.getLast?.any Unicode.isWord = true := by
  obtain ⟨hne, hchars⟩ := h
  rw [List.getLast?_eq_some_getLast hne]
  exact (hchars _ (List.getLast_mem hne)).2

/-- At one place no two words end where no word goes on. -/
theorem IsKeyword.unique {u v rest' : List Char} (hu : IsKeyword u) (hv : IsKeyword v)
    (h : u ++ rest = v ++ rest') (hrest : rest.head?.any Unicode.isWord = false)
    (hrest' : rest'.head?.any Unicode.isWord = false) : u = v := by
  rcases List.append_eq_append_iff.mp h with ⟨a, rfl, rfl⟩ | ⟨a, rfl, rfl⟩
  · rcases a with _ | ⟨d, a⟩
    · rw [List.append_nil]
    · have hd := (hv.2 d (by simp)).2
      simp [hd] at hrest
  · rcases a with _ | ⟨d, a⟩
    · rw [List.append_nil]
    · have hd := (hu.2 d (by simp)).2
      simp [hd] at hrest'

/-! ### Patterns at the beginning of a word -/

theorem mem_earlierForms {q : TokenPattern} (hq : q ∈ patternForms options)
    (hkind : q.kind ≠ .identifier) : q ∈ earlierForms := by
  rcases mem_patternForms hq with rfl | rfl | rfl | rfl | rfl | rfl | rfl | rfl | rfl | rfl | rfl
  all_goals first | exact absurd rfl hkind | simp [earlierForms, firstForms, secondForms]

theorem reserved_of_keywordForms : ∀ f ∈ keywordForms, ∀ v ∈ f.2, (v, f.1) ∈ reservedWords := by
  decide

/-- At a reserved word the patterns for other kinds take nothing. -/
theorem earlierForms_none {q : TokenPattern} (hq : q ∈ earlierForms) {r : String × TokenKind}
    (hr : r ∈ reservedWords) (hkind : q.kind ≠ r.2)
    (hrest : rest.head?.any Unicode.isWord = false) :
    q.segment? before (r.1.toList ++ rest) = none := by
  obtain ⟨c, cs, hcs, hstart⟩ := start_of_reserved hr
  have hkinds : ∀ r ∈ reservedWords, ∀ r' ∈ reservedWords, r.1 = r'.1 → r.2 = r'.2 := by decide
  rcases earlierForms_cases hq with hq | ⟨words, htakes, hwords⟩
  · rw [hcs]
    exact unlikeForms_none hstart q hq
  · rcases hs : q.segment? before (r.1.toList ++ rest) with _ | s
    · rfl
    obtain ⟨u, hu, rest', htext, hback⟩ := htakes.sound hs (by rw [hcs]; rfl) hstart
    have hreserved := reserved_of_keywordForms _ hwords u hu
    have hword := keyword_of_reserved hreserved
    have heq := (keyword_of_reserved hr).unique hword htext hrest
      (not_word_of_last_edge hback hword.last)
    exact absurd (hkinds _ hreserved r hr (String.toList_inj.mp heq.symm)) hkind

/-! ### Reserved words are taken -/

section Reserved

variable (hbefore : before.any Unicode.isWord = false)
  (hrest : rest.head?.any Unicode.isWord = false)

include hbefore hrest

theorem verbatim_word_segment {v : String} (hv : v ∈ verbatimWords) :
    TokenPattern.segment? ⟨.verbatim, verbatim, verbatimForm⟩ before (v.toList ++ rest) =
      some ⟨.verbatim, v.toList, [some v.toList], rest⟩ := by
  have hwords : ∀ v ∈ verbatimWords, IsKeyword v.toList :=
    fun v hv => keywords v (List.mem_append_right _ hv)
  have hword := hwords v hv
  have hsome : (TokenPattern.segment? ⟨.verbatim, verbatim, verbatimForm⟩ before
      (v.toList ++ rest)).isSome :=
    verbatim_isSome_of_word hv hword.1 (edge_of_word hbefore hword.head)
      (edge_of_last_word hrest hword.last)
  obtain ⟨s, hs⟩ := Option.isSome_iff_exists.mp hsome
  obtain ⟨w, rest', htext, rfl, hw⟩ := verbatim_segment hs
  have hne : w ≠ [] := by
    obtain ⟨c, cs, -, -, hcs, -⟩ := begins_of_segment hs
    exact List.ne_nil_of_mem (hcs ▸ List.mem_cons_self)
  obtain ⟨hsign, hsingle⟩ := head_of_word hv htext.symm hne
  rcases hw with ⟨sign, hmem, rfl⟩ | ⟨u, hu, rfl, -, hback⟩ | ⟨c, rfl, hc⟩
  · exact absurd rfl (hsign sign hmem)
  · have heq := hword.unique (hwords u hu) htext hrest
      (not_word_of_last_edge hback (hwords u hu).last)
    rw [← heq] at htext hs
    obtain rfl := List.append_cancel_left htext
    exact hs
  · rw [hsingle c rfl] at hc
    exact Bool.noConfusion hc

/-- Where no word goes on around it, a reserved word is taken. -/
theorem reserved_taken {r : String × TokenKind} (hr : r ∈ reservedWords) :
    (lexer options).segment? before (r.1.toList ++ rest) =
      some ⟨r.2, r.1.toList, [some r.1.toList], rest⟩ := by
  have hword := keyword_of_reserved hr
  have hfront : Edge before (r.1.toList ++ rest) := edge_of_word hbefore hword.head
  have hback : Edge r.1.toList.getLast? rest := edge_of_last_word hrest hword.last
  -- the patterns in front of the one for the word are of other kinds
  have htake : ∀ front p back, patternForms options = front ++ p :: back →
      (∀ q ∈ front, q.kind ≠ .identifier ∧ q.kind ≠ r.2) →
      p.segment? before (r.1.toList ++ rest) = some ⟨r.2, r.1.toList, [some r.1.toList], rest⟩ →
      (lexer options).segment? before (r.1.toList ++ rest) =
        some ⟨r.2, r.1.toList, [some r.1.toList], rest⟩ := by
    intro front p back hforms hkinds h
    refine lexer_segment front hforms (fun q hq => ?_) h
    exact earlierForms_none (mem_earlierForms (by rw [hforms]; simp [hq]) (hkinds q hq).1) hr
      (hkinds q hq).2 hrest
  have hcases : ∀ r ∈ reservedWords, r.2 = .null ∧ r.1 ∈ ["null"] ∨
      r.2 = .boolean ∧ r.1 ∈ ["true", "false"] ∨ r.2 = .verbatim ∧ r.1 ∈ verbatimWords := by
    decide
  rcases hcases r hr with ⟨hkind, hv⟩ | ⟨hkind, hv⟩ | ⟨hkind, hv⟩ <;> rw [hkind] at htake ⊢
  · exact htake (firstForms ++ secondForms.take 2) _ _ rfl (by decide)
      (word_segment_of_edges rfl (by decide) (by decide) hv hfront hback)
  · exact htake (firstForms ++ secondForms.take 3) _ _ rfl (by decide)
      (word_segment_of_edges rfl (by decide) (by decide) hv hfront hback)
  · obtain ⟨front, hforms, hfrontForms⟩ := exists_front options
    refine htake front _ _ hforms (fun q hq => ?_) (verbatim_word_segment hbefore hrest hv)
    have hkinds : ∀ q ∈ firstForms ++ secondForms, q.kind ≠ .identifier ∧ q.kind ≠ .verbatim := by
      decide
    rcases hfrontForms q hq with hq | ⟨-, rfl⟩
    · exact hkinds q hq
    · decide

end Reserved

/-! ### Other words are taken -/

/-- In a word the only character that is no word character is the dollar sign. -/
theorem dollar_of_identifierPart {c : Char} (hc : identifierPart.contains c = true)
    (hword : Unicode.isWord c = false) : c = '$' := by
  have hall := CharSet.forall_mem (p := fun c => Unicode.isWord c || c == '$') rfl
    (by decide +kernel) hc
  simpa [hword] using hall

theorem identifierPart_of_start {c : Char} (hc : identifierStart.contains c = true) :
    identifierPart.contains c = true :=
  CharSet.forall_mem (p := identifierPart.contains) rfl (by decide +kernel) hc

theorem IsWord.part (hw : IsWord w) : ∀ c ∈ w, identifierPart.contains c = true := by
  obtain ⟨c, cs, rfl, hc, hcs⟩ := hw
  exact List.forall_mem_cons.mpr ⟨identifierPart_of_start hc, hcs⟩

/-- A word is taken whole as an identifier if no reserved word ends at a word boundary in it. -/
theorem word_taken (hw : IsWord w) (hstop : ∀ c ∈ rest.head?, identifierPart.contains c = false)
    (hnone : ∀ r ∈ reservedWords, ∀ rest', w ++ rest = r.1.toList ++ rest' →
      ¬ Edge r.1.toList.getLast? rest') :
    (lexer options).segment? before (w ++ rest) = some ⟨.identifier, w, [some w], rest⟩ := by
  obtain ⟨c, cs, rfl, hc, hcs⟩ := hw
  obtain ⟨front, hforms, hfront⟩ := exists_front options
  rw [List.append_cons front _ [_]] at hforms
  have hkinds : ∀ q ∈ front ++ [⟨.verbatim, verbatim, verbatimForm⟩], q.kind ≠ .identifier := by
    have hall : ∀ q ∈ firstForms ++ secondForms, q.kind ≠ .identifier := by decide
    intro q hq
    rcases List.mem_append.mp hq with hq | hq
    · rcases hfront q hq with hq | ⟨-, rfl⟩
      · exact hall q hq
      · decide
    · obtain rfl := List.mem_singleton.mp hq
      decide
  refine lexer_segment _ hforms (fun q hq => ?_)
    (identifier_segment_iff.mpr ⟨c, cs, rest, rfl, hc, hcs, hstop, rfl⟩)
  have hmem : q ∈ patternForms options := hforms ▸ List.mem_append_left _ hq
  rcases earlierForms_cases (mem_earlierForms hmem (hkinds q hq)) with hq | ⟨words, htakes, hwords⟩
  · exact unlikeForms_none hc q hq
  · rcases hs : q.segment? before (c :: cs ++ rest) with _ | s
    · rfl
    obtain ⟨v, hv, rest', htext, hback⟩ := htakes.sound hs rfl hc
    exact absurd hback (hnone _ (reserved_of_keywordForms _ hwords v hv) rest' htext)

/-! ### Texts that are a word -/

/-- The token that the word `w` is behind `front`, in the first line. -/
def wordToken (kind : TokenKind) (front w : List Char) : Token where
  kind
  text := String.ofList w
  value := .text (String.ofList w)
  captures := [some (String.ofList w)]
  span := ⟨byteLength front, byteLength (front ++ w)⟩
  position := ⟨1, front.length + 1⟩

theorem token_of_word (front w rest : List Char) {kind : TokenKind} (hkind : kind ≠ .number)
    (hfront : ∀ c ∈ front, InLine c) :
    Classifier.token (.ofText (front ++ (w ++ rest))) (byteLength front)
      ⟨kind, w, [some w], rest⟩ = .ok (wordToken kind front w) := by
  refine Classifier.token_eq_ok_iff.mpr
    ⟨⟨rfl, rfl, fun _ => rfl, rfl⟩, fun hk => absurd hk hkind, ?_, ?_⟩
  · rw [wordToken, byteLength_append]
  · rw [LineIndex.position_between, positionBetween, Position.past_of_inLine hfront, wordToken,
      Nat.add_comm]

theorem inLine_of_part {c : Char} (hc : identifierPart.contains c = true) : InLine c := by
  have hall := CharSet.forall_mem (p := fun c => decide (InLine c)) rfl (by decide +kernel) hc
  simpa using hall

theorem part_of_reserved {r : String × TokenKind} (hr : r ∈ reservedWords) :
    ∀ c ∈ r.1.toList, identifierPart.contains c = true := by
  have hall : ∀ r ∈ reservedWords, r.1.toList.all identifierPart.contains = true := by decide
  exact List.all_eq_true.mp (hall r hr)

theorem kindOfWord_of_mem {r : String × TokenKind} (hr : r ∈ reservedWords) :
    kindOfWord r.1 = r.2 := by
  have hall : ∀ r ∈ reservedWords, kindOfWord r.1 = r.2 := by decide
  exact hall r hr

theorem kindOfWord_eq_identifier_iff {word : String} :
    kindOfWord word = .identifier ↔ ∀ r ∈ reservedWords, word ≠ r.1 := by
  constructor
  · rintro hkind r hr rfl
    have hall : ∀ r ∈ reservedWords, r.2 ≠ .identifier := by decide
    exact hall r hr ((kindOfWord_of_mem hr).symm.trans hkind)
  · intro h
    have hlookup : reservedWords.lookup word = none :=
      List.lookup_eq_none_iff.mpr fun r hr => by simpa using h r hr
    rw [kindOfWord, hlookup]
    rfl

theorem kindOfWord_ne (word : String) : kindOfWord word ≠ .number ∧ kindOfWord word ≠ .ignore := by
  have hall : ∀ r ∈ reservedWords, r.2 ≠ .number ∧ r.2 ≠ .ignore := by decide
  by_cases hword : ∃ r ∈ reservedWords, word = r.1
  · obtain ⟨r, hr, rfl⟩ := hword
    rw [kindOfWord_of_mem hr]
    exact hall r hr
  · rw [kindOfWord_eq_identifier_iff.mpr fun r hr heq => hword ⟨r, hr, heq⟩]
    decide

/-- A reserved word is followed by a dollar sign at the beginning of the word. -/
def SplitAtDollar (w : List Char) : Prop :=
  ∃ r ∈ reservedWords, ∃ rest, w = r.1.toList ++ '$' :: rest

theorem whole_word_taken (hw : IsWord w) (hdollar : ¬ SplitAtDollar w) :
    (lexer options).segment? none w =
      some ⟨kindOfWord (String.ofList w), w, [some w], []⟩ := by
  by_cases hreserved : ∃ r ∈ reservedWords, String.ofList w = r.1
  · obtain ⟨r, hr, heq⟩ := hreserved
    have htaken : (lexer options).segment? none (r.1.toList ++ []) = _ :=
      reserved_taken rfl rfl hr
    rwa [List.append_nil, ← kindOfWord_of_mem hr, ← heq, String.toList_ofList] at htaken
  · have hnot : ∀ r ∈ reservedWords, String.ofList w ≠ r.1 := fun r hr heq =>
      hreserved ⟨r, hr, heq⟩
    have htaken : (lexer options).segment? none (w ++ []) = _ :=
      word_taken hw (fun _ hc => absurd hc (Option.not_mem_none _)) fun r hr rest' htext hback => by
        rw [List.append_nil] at htext
        have hlast := not_word_of_last_edge hback (keyword_of_reserved hr).last
        rcases rest' with _ | ⟨d, rest'⟩
        · rw [List.append_nil] at htext
          exact hnot r hr (by rw [htext, String.ofList_toList])
        · have hd := hw.part d (by rw [htext]; simp)
          obtain rfl := dollar_of_identifierPart hd hlast
          exact hdollar ⟨r, hr, rest', htext⟩
    rwa [List.append_nil, ← kindOfWord_eq_identifier_iff.mpr hnot] at htaken

theorem whole_word_tokenized (hw : IsWord w) (hdollar : ¬ SplitAtDollar w) :
    tokenize ⟨options, lexer options⟩ (String.ofList w) =
      .ok [wordToken (kindOfWord (String.ofList w)) [] w] := by
  obtain ⟨hnumber, hignore⟩ := kindOfWord_ne (String.ofList w)
  have htoken := token_of_word [] w [] hnumber (List.forall_mem_nil _)
  rw [List.append_nil, List.nil_append] at htoken
  exact tokenize_of_single (whole_word_taken hw hdollar) hignore htoken

theorem IsWord.behind {v : List Char} (hw : IsWord (v ++ '$' :: rest)) : IsWord ('$' :: rest) :=
  ⟨'$', rest, rfl, by decide, fun d hd => hw.part d (by simp [hd])⟩

/-- A reserved word in front of a dollar sign is split off. -/
theorem split_word_tokenized {r : String × TokenKind} (hr : r ∈ reservedWords)
    (hw : IsWord (r.1.toList ++ '$' :: rest)) :
    tokenize ⟨options, lexer options⟩ (String.ofList (r.1.toList ++ '$' :: rest)) =
      .ok [wordToken r.2 [] r.1.toList, wordToken .identifier r.1.toList ('$' :: rest)] := by
  have hkinds : ∀ r ∈ reservedWords, r.2 ≠ .number ∧ r.2 ≠ .ignore := by decide
  obtain ⟨hnumber, hignore⟩ := hkinds r hr
  have hfirst : (lexer options).Splits (.ofText (r.1.toList ++ '$' :: rest)) 0 none r.1.toList
      ('$' :: rest ++ []) [wordToken r.2 [] r.1.toList] := by
    rw [List.append_nil]
    exact .of_token (reserved_taken rfl rfl hr) hignore
      (token_of_word [] _ _ hnumber (List.forall_mem_nil _))
  have hsecond : (lexer options).Splits (.ofText (r.1.toList ++ '$' :: rest))
      (0 + byteLength r.1.toList) (r.1.toList.getLast?.or none) ('$' :: rest) []
      [wordToken .identifier r.1.toList ('$' :: rest)] := by
    have hstart : ∀ r ∈ reservedWords, r.1.toList.head? ≠ some '$' := by decide
    refine .of_token (word_taken hw.behind (fun _ hc => absurd hc (Option.not_mem_none _)) ?_)
      (by decide) ?_
    · intro r' hr' rest' htext
      obtain ⟨c, cs, hcs, -⟩ := start_of_reserved hr'
      rw [hcs] at htext
      obtain ⟨rfl, -⟩ := List.cons.inj htext
      exact absurd (by rw [hcs]; rfl) (hstart r' hr')
    · have hidentifier : TokenKind.identifier ≠ .number := by decide
      have htoken := token_of_word r.1.toList ('$' :: rest) [] hidentifier
        fun c hc => inLine_of_part (part_of_reserved hr c hc)
      rwa [List.append_nil, ← Nat.zero_add (byteLength _)] at htoken
  refine tokenize_of_splits ?_
  rw [String.toList_ofList]
  exact hfirst.append hsecond

/-! ### The identifiers of a text -/

theorem not_reserved_of_isCut {t : Token} (h : IsCut options before t rest)
    (hk : t.kind = .identifier) : ∀ r ∈ reservedWords, t.text ≠ r.1 := by
  intro r hr htext
  obtain ⟨index, offset, s, hs, rfl, -, ht⟩ := h.segment
  have hkind := (Classifier.isTokenOf_of_token ht).kind.symm.trans hk
  have hjoined := h.joined
  obtain ⟨c, cs, hcs, -⟩ := start_of_reserved hr
  have hword := keyword_of_reserved hr
  have hc := hword.2 c (hcs ▸ List.mem_cons_self)
  rw [htext] at hs hjoined
  have htaken : (lexer options).segment? before (r.1.toList ++ s.rest) = _ :=
    reserved_taken (hjoined c (by rw [hcs]; rfl) hc.1 hc.2)
      (not_word_of_identifier hs hkind h.next) hr
  have hs' := Option.some.inj (hs.symm.trans htaken)
  rw [hs'] at hkind
  have hkinds : ∀ r ∈ reservedWords, r.2 ≠ .identifier := by decide
  exact hkinds r hr hkind

theorem not_reserved_of_tokenize {text : String} {tokens : List Token}
    (h : tokenize ⟨options, lexer options⟩ text = .ok tokens) :
    ∀ t ∈ tokens, t.kind = .identifier → ∀ r ∈ reservedWords, t.text ≠ r.1 := by
  intro t ht hk
  obtain ⟨before', rest', hcut⟩ := isCut_of_tokenize h t ht
  exact not_reserved_of_isCut hcut hk

/-- A text that is a word is one token, an identifier unless the word is reserved. Only where a
dollar sign follows a reserved word at its beginning is it split in front of that. No identifier of
any text is a reserved word. -/
theorem words_tokenized (h : options.validate = .ok options) :
    ∃ grammar, ofOptions options = .ok grammar ∧
      (∀ w, IsWord w →
        (¬ SplitAtDollar w → grammar.tokenize (String.ofList w) =
          .ok [wordToken (kindOfWord (String.ofList w)) [] w]) ∧
        (kindOfWord (String.ofList w) = .identifier ↔
          ∀ r ∈ reservedWords, String.ofList w ≠ r.1) ∧
        ∀ r ∈ reservedWords, ∀ rest, w = r.1.toList ++ '$' :: rest →
          grammar.tokenize (String.ofList w) =
            .ok [wordToken r.2 [] r.1.toList, wordToken .identifier r.1.toList ('$' :: rest)]) ∧
      ∀ text tokens, grammar.tokenize text = .ok tokens →
        ∀ t ∈ tokens, t.kind = .identifier → ∀ r ∈ reservedWords, t.text ≠ r.1 := by
  have hfault := (GrammarOptions.fault?_of_validate h).1
  refine ⟨_, ofOptions_eq hfault, fun w hw => ⟨whole_word_tokenized hw,
    kindOfWord_eq_identifier_iff, ?_⟩, fun text tokens => not_reserved_of_tokenize⟩
  rintro r hr rest rfl
  exact split_word_tokenized hr hw

theorem reserved_beginning_tokenized : GrammarOptions.extended.validate = .ok .extended ∧
    ∃ grammar, ofOptions .extended = .ok grammar ∧
      (IsWord "inner".toList ∧ ¬ SplitAtDollar "inner".toList ∧
        grammar.tokenize "inner" = .ok [wordToken .identifier [] "inner".toList]) ∧
      ∃ tokens, grammar.tokenize "in$new" = .ok tokens ∧
        tokens = [wordToken .verbatim [] "in".toList,
          wordToken .identifier "in".toList "$new".toList] ∧
        ∀ t ∈ tokens, t.kind = .identifier → ∀ r ∈ reservedWords, t.text ≠ r.1 := by
  have hinner : IsWord "inner".toList := ⟨'i', "nner".toList, rfl, by decide,
    List.all_eq_true.mp (by decide)⟩
  have hsplit : IsWord "in$new".toList := ⟨'i', "n$new".toList, rfl, by decide,
    List.all_eq_true.mp (by decide)⟩
  have hdollar : ¬ SplitAtDollar "inner".toList := by
    rintro ⟨r, -, rest, htext⟩
    have hmem : '$' ∈ "inner".toList := by
      rw [htext]
      simp
    exact absurd hmem (by decide)
  obtain ⟨grammar, hgrammar, hwords, hidentifiers⟩ :=
    words_tokenized (show GrammarOptions.extended.validate = .ok .extended from rfl)
  have htokens := (hwords _ hsplit).2.2 ("in", .verbatim) (by decide) "new".toList rfl
  exact ⟨rfl, grammar, hgrammar, ⟨hinner, hdollar, (hwords _ hinner).1 hdollar⟩, _, htokens, rfl,
    hidentifiers _ _ htokens⟩

/-- A word with a dollar sign behind a reserved word is not one token. -/
theorem dollar_word_split : GrammarOptions.standard.validate = .ok .standard ∧
    ∃ grammar, ofOptions .standard = .ok grammar ∧ IsWord "null$".toList ∧
      (∀ r ∈ reservedWords, "null$" ≠ r.1) ∧ ∀ t, grammar.tokenize "null$" ≠ .ok [t] := by
  have hw : IsWord ("null".toList ++ '$' :: []) :=
    ⟨'n', "ull$".toList, rfl, by decide, List.all_eq_true.mp (by decide)⟩
  refine ⟨rfl, _, ofOptions_eq rfl, hw, by decide, fun t htokens => ?_⟩
  have hsplit : tokenize ⟨.standard, lexer .standard⟩ "null$" = .ok _ :=
    split_word_tokenized (r := ("null", .null)) (by decide) hw
  exact absurd (Except.ok.inj (hsplit.symm.trans htokens)) (by simp)

end Grammar

end Precedence
