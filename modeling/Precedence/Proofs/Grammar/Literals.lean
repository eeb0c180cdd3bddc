import Precedence.Proofs.Grammar.Correctness
import Precedence.Proofs.Grammar.Lexemes.Points
import Precedence.Proofs.Grammar.Splitting
import Precedence.Proofs.Number.Finite
import Precedence.Proofs.Text.Positions
import Precedence.Proofs.Text.Spelling

/-!
# Literals by themselves

A text that is nothing but a literal is one token and is parsed as that literal. A quoted text is,
however the characters of its string are spelled (`quoted_parsed`), and a numeral is, unless it
begins or ends with a point: such a text is never parsed (`numeral_parsed`).
-/

namespace Precedence

namespace Grammar

open Number Regex Text TokenPattern

variable {options : GrammarOptions} {w : List Char}

/-- A text that is one segment is one token. -/
theorem tokenize_of_single {kind : TokenKind} {captures : List (Option (List Char))} {t : Token}
    (h : (lexer options).segment? none w = some ⟨kind, w, captures, []⟩) (hkind : kind ≠ .ignore)
    (ht : Classifier.token (.ofText w) 0 ⟨kind, w, captures, []⟩ = .ok t) :
    tokenize ⟨options, lexer options⟩ (String.ofList w) = .ok [t] := by
  refine tokenize_of_splits ?_
  rw [String.toList_ofList]
  exact .of_token (by rwa [List.append_nil]) hkind ht

theorem parse_of_single (hfault : options.fault? = none) {text : String} {t : Token}
    (htokens : tokenize ⟨options, lexer options⟩ text = .ok [t]) {value : LiteralValue}
    {raw : String} (hv : literalValue? options t = some (value, raw)) :
    parse ⟨options, lexer options⟩ text = .ok (.literal value raw t.span) :=
  parse_of_unary hfault htokens (.primary 0 _ _ (.literal t value raw hv)) (Nat.zero_le _)

theorem position_zero (w : List Char) : (LineIndex.ofText w).position 0 = ⟨1, 1⟩ :=
  LineIndex.position_between [] w

/-! ### Strings -/

theorem isQuoted_of_spelling {quote c : Char} (hquote : quote = '\'' ∨ quote = '"')
    (h : Spelling quote c w) {body : List Char} (hbody : IsQuoted quote body) :
    IsQuoted quote (w ++ body) := by
  cases h with
  | plain hplain hslash => exact hbody.cons ⟨hplain, hslash⟩
  | named letter h =>
    have hall : ∀ e ∈ namedEscapes, e.1 ≠ '\n' := by decide
    exact hbody.escape (hall _ h)
  | code digits hc h =>
    have hplain := plain_of_hexDigits h fun _ => lt_of_mem_hexDigitsOf hc
    refine (hbody.append fun d hd => ?_).escape (by decide)
    obtain ⟨hsingle, hdouble, hslash⟩ := hplain d hd
    rcases hquote with rfl | rfl
    · exact ⟨hsingle, hslash⟩
    · exact ⟨hdouble, hslash⟩
  | escaped _ hline => exact hbody.escape hline

theorem isQuoted_of_spells {quote : Char} (hquote : quote = '\'' ∨ quote = '"') {s body : List Char}
    (h : Spells quote s body) : IsQuoted quote body := by
  induction h with
  | nil => exact .nil
  | cons c w h s body hs ih => exact isQuoted_of_spelling hquote h ih

/-- What stands between two quotes is taken up to the second one. -/
theorem quoted_taken {quote : Char} (hquote : quote = '\'' ∨ quote = '"') {body : List Char}
    (h : IsQuoted quote body) (before : Option Char) (rest : List Char) :
    (lexer options).segment? before (quote :: (body ++ quote :: rest)) =
      some ⟨.string, quote :: (body ++ [quote]), [some body], rest⟩ := by
  rcases hquote with rfl | rfl
  · exact lexer_segment [_, _] rfl (none_of_heads (by decide))
      ((quoted_segment_iff (by decide)).mpr ⟨body, rest, rfl, h, rfl⟩)
  · exact lexer_segment [_, _, _] rfl (none_of_heads (by decide))
      ((quoted_segment_iff (by decide)).mpr ⟨body, rest, rfl, h, rfl⟩)

/-- Every string can be spelled between quotes of either kind, and however its characters are
spelled, the text is parsed as a literal that holds the string. -/
theorem quoted_parsed (h : options.validate = .ok options) :
    ∃ grammar, ofOptions options = .ok grammar ∧ ∀ quote, quote = '\'' ∨ quote = '"' → ∀ s,
      (∃ body, Spells quote s body) ∧ ∀ body, Spells quote s body →
        unescape body = s ∧ grammar.parse (String.ofList (quote :: (body ++ [quote]))) =
          .ok (.literal (.string (String.ofList s)) (String.ofList (quote :: (body ++ [quote])))
            ⟨0, byteLength (quote :: (body ++ [quote]))⟩) := by
  have hfault := (GrammarOptions.fault?_of_validate h).1
  refine ⟨_, ofOptions_eq hfault, fun quote hquote s => ⟨?_, fun body hbody => ?_⟩⟩
  · refine exists_spells ?_ s
    rcases hquote with rfl | rfl <;> decide
  have hvalue := hbody.unescape_eq
  refine ⟨hvalue, ?_⟩
  have htokens : tokenize ⟨options, lexer options⟩ (String.ofList (quote :: (body ++ [quote]))) =
      .ok [⟨.string, String.ofList (quote :: (body ++ [quote])), .text (String.ofList body),
        [some (String.ofList body)], ⟨0, 0 + byteLength (quote :: (body ++ [quote]))⟩,
        (LineIndex.ofText (quote :: (body ++ [quote]))).position 0⟩] :=
    tokenize_of_single (quoted_taken hquote (isQuoted_of_spells hquote hbody) none []) (by decide)
      rfl
  rw [Nat.zero_add] at htokens
  refine parse_of_single hfault htokens ?_
  show some (LiteralValue.string (String.ofList (unescape (String.ofList body).toList)), _) = _
  rw [String.toList_ofList, hvalue]

theorem mixed_spelling_parsed : GrammarOptions.standard.validate = .ok .standard ∧
    ∃ grammar, ofOptions .standard = .ok grammar ∧
      Spells '\'' "\x001'\nA2".toList "\\01\\'\\n\\u00412".toList ∧
      unescape "\\01\\'\\n\\u00412".toList = "\x001'\nA2".toList ∧
      grammar.parse "'\\01\\'\\n\\u00412'" =
        .ok (.literal (.string "\x001'\nA2") "'\\01\\'\\n\\u00412'" ⟨0, 16⟩) := by
  have hspells : Spells '\'' "\x001'\nA2".toList "\\01\\'\\n\\u00412".toList :=
    .cons '\x00' ['\\', '0'] (.named '0' (by decide)) _ _
      (.cons '1' ['1'] (.plain (by decide) (by decide)) _ _
        (.cons '\'' ['\\', '\''] (.escaped (by decide) (by decide)) _ _
          (.cons '\n' ['\\', 'n'] (.named 'n' (by decide)) _ _
            (.cons 'A' ['\\', 'u', '0', '0', '4', '1']
              (.code _ (by decide) (.cons (Or.inl rfl) (.cons (Or.inl rfl)
                (.cons (Or.inl rfl) (.cons (Or.inl rfl) .nil))))) _ _
              (.cons '2' ['2'] (.plain (by decide) (by decide)) _ _ .nil)))))
  obtain ⟨grammar, hgrammar, hall⟩ :=
    quoted_parsed (show GrammarOptions.standard.validate = .ok .standard from rfl)
  obtain ⟨hvalue, hparse⟩ := (hall '\'' (Or.inl rfl) _).2 _ hspells
  exact ⟨rfl, grammar, hgrammar, hspells, hvalue, hparse⟩

/-! ### Numerals -/

theorem literal_of_numeral {x : Binary64} (hx : Numeral.value? w = some x) (index : LineIndex)
    (offset : Nat) : Classifier.token index offset ⟨.number, w, [some w], []⟩ = .ok
      ⟨.number, String.ofList w, .number x, [some (String.ofList w)],
        ⟨offset, offset + byteLength w⟩, index.position offset⟩ :=
  Classifier.token_eq_ok_iff.mpr
    ⟨⟨rfl, rfl, fun hk => absurd rfl hk, rfl⟩, fun _ => ⟨x, hx, rfl⟩, rfl, rfl⟩

/-- A point at one of its ends. -/
def HasPointAtEnd (w : List Char) : Prop :=
  w.head? = some '.' ∨ w.getLast? = some '.'

theorem numeral_taken (hw : IsDecimal w ∨ IsHexadecimal w) (hpoint : ¬ HasPointAtEnd w) :
    (lexer options).segment? none w = some ⟨.number, w, [some w], []⟩ := by
  obtain ⟨⟨c, cs, hc, hhead⟩, d, hd, hlast⟩ := ends_of_numeral hw
  obtain ⟨hnotHead, hnotLast⟩ := not_or.mp hpoint
  have hfirst : w.head?.any Unicode.isWord = true := by
    rw [hc]
    refine hhead.resolve_right fun h => hnotHead ?_
    rw [hc, h]
    rfl
  have hend : w.getLast?.any Unicode.isWord = true := by
    rw [hd]
    refine hlast.resolve_right fun h => hnotLast ?_
    rw [hd, h]
  have hfront : Edge none (w ++ []) := edge_of_word rfl hfirst
  have hback : Edge w.getLast? [] := edge_of_last_word rfl hend
  have htaken : (lexer options).segment? none (w ++ []) = some ⟨.number, w, [some w], []⟩ :=
    number_taken hw hfront hback fun _ hc => absurd hc (Option.not_mem_none _)
  rwa [List.append_nil] at htaken

theorem numeral_lost (hw : IsDecimal w ∨ IsHexadecimal w) (hpoint : HasPointAtEnd w)
    {tokens : List Token} (h : tokenize ⟨options, lexer options⟩ (String.ofList w) = .ok tokens) :
    ∃ t ∈ tokens, t.IsVerbatim "." := by
  have hdecimal : IsDecimal w := by
    refine hw.resolve_right fun hhex => ?_
    obtain ⟨d, hd, hword⟩ := hhex.last
    obtain ⟨mark, digits, rfl, -⟩ := hhex
    refine not_point_of_ends rfl hd ⟨by decide, ?_⟩ hpoint
    rintro rfl
    exact absurd hword (by decide)
  have hfrom := tokensFrom_of_tokenize h
  rw [← List.append_nil w] at hfrom
  rcases hpoint with hhead | hlast
  · exact leading_point_lost hdecimal hhead rfl hfrom
  · exact trailing_point_lost hdecimal hlast (fun _ hc => absurd hc (Option.not_mem_none _)) hfrom

theorem numeral_refused (hfault : options.fault? = none) (hw : IsDecimal w ∨ IsHexadecimal w)
    (hpoint : HasPointAtEnd w) (e : Expr) :
    parse ⟨options, lexer options⟩ (String.ofList w) ≠ .ok e := by
  intro hparse
  obtain ⟨tokens, htokens, hparse⟩ := parse_eq_ok hparse
  obtain ⟨d, -, hderived⟩ :=
    (parseTokens_eq_ok_iff (GrammarOptions.table_of_fault?_eq_none hfault).1).mp hparse
  exact not_derived_of_point (numeral_lost hw hpoint htokens) hderived

/-- A numeral with a finite value is one token, and is parsed as a literal of that value, unless
there is a point at one of its ends, in which case the point is a token of its own and the text is
refused. -/
theorem numeral_parsed (h : options.validate = .ok options) :
    ∃ grammar, ofOptions options = .ok grammar ∧ ∀ w x, IsDecimal w ∨ IsHexadecimal w →
      Numeral.value? w = some x →
        (¬ HasPointAtEnd w →
          grammar.tokenize (String.ofList w) = .ok [⟨.number, String.ofList w, .number x,
            [some (String.ofList w)], ⟨0, byteLength w⟩, ⟨1, 1⟩⟩] ∧
          grammar.parse (String.ofList w) =
            .ok (.literal (.number x) (String.ofList w) ⟨0, byteLength w⟩)) ∧
        (HasPointAtEnd w →
          (∀ tokens, grammar.tokenize (String.ofList w) = .ok tokens →
            ∃ t ∈ tokens, t.IsVerbatim ".") ∧
          ∀ e, grammar.parse (String.ofList w) ≠ .ok e) := by
  have hfault := (GrammarOptions.fault?_of_validate h).1
  refine ⟨_, ofOptions_eq hfault, fun w x hw hx => ⟨fun hpoint => ?_, fun hpoint => ?_⟩⟩
  · have htokens : tokenize ⟨options, lexer options⟩ (String.ofList w) = .ok [_] :=
      tokenize_of_single (numeral_taken hw hpoint) (by decide) (literal_of_numeral hx _ 0)
    rw [Nat.zero_add, position_zero] at htokens
    exact ⟨htokens, parse_of_single hfault htokens
      (literalValue?_of_number rfl rfl (Numeral.isFinite_of_value? hx))⟩
  · exact ⟨fun _ => numeral_lost hw hpoint, numeral_refused hfault hw hpoint⟩

theorem inner_point_parsed : GrammarOptions.standard.validate = .ok .standard ∧
    ∃ grammar, ofOptions .standard = .ok grammar ∧ IsDecimal "5.e3".toList ∧ ∃ x,
      Numeral.value? "5.e3".toList = some x ∧
      grammar.tokenize "5.e3" =
        .ok [⟨.number, "5.e3", .number x, [some "5.e3"], ⟨0, 4⟩, ⟨1, 1⟩⟩] ∧
      grammar.parse "5.e3" = .ok (.literal (.number x) "5.e3" ⟨0, 4⟩) := by
  have hw : IsDecimal "5.e3".toList :=
    ⟨['5'], ['.'], [], ['e', '3'], rfl, List.forall_mem_singleton.mpr rfl, List.forall_mem_nil _,
      Or.inr rfl, Or.inl (by decide), Or.inr ⟨'e', [], ['3'], rfl, Or.inl rfl, Or.inl rfl,
        by decide, List.forall_mem_singleton.mpr rfl⟩⟩
  have hpoint : ¬ HasPointAtEnd "5.e3".toList := not_point_of_ends rfl rfl (by decide)
  obtain ⟨x, hx⟩ := Option.isSome_iff_exists.mp
    (show (Numeral.value? "5.e3".toList).isSome by decide +kernel)
  obtain ⟨grammar, hgrammar, hall⟩ :=
    numeral_parsed (show GrammarOptions.standard.validate = .ok .standard from rfl)
  obtain ⟨htokens, hparse⟩ := (hall _ x (Or.inl hw) hx).1 hpoint
  exact ⟨rfl, grammar, hgrammar, hw, x, hx, htokens, hparse⟩

/-- A numeral that begins with a point is no token. -/
theorem point_numeral_refused : GrammarOptions.standard.validate = .ok .standard ∧
    ∃ grammar, ofOptions .standard = .ok grammar ∧ IsDecimal ".5".toList ∧
      (Numeral.value? ".5".toList).isSome ∧
      (∀ t : Token, t.kind = .number → grammar.tokenize ".5" ≠ .ok [t]) ∧
      ∀ e, grammar.parse ".5" ≠ .ok e := by
  have hw : IsDecimal ".5".toList :=
    ⟨[], ['.'], ['5'], [], rfl, List.forall_mem_nil _, List.forall_mem_singleton.mpr rfl,
      Or.inr rfl, Or.inr (by decide), Or.inl rfl⟩
  have hpoint : HasPointAtEnd ".5".toList := Or.inl rfl
  refine ⟨rfl, _, ofOptions_eq rfl, hw, by decide +kernel, fun t hk htokens => ?_,
    numeral_refused rfl (Or.inl hw) hpoint⟩
  obtain ⟨u, hu, hverbatim⟩ := numeral_lost (Or.inl hw) hpoint htokens
  obtain rfl := List.mem_singleton.mp hu
  exact absurd (hk.symm.trans hverbatim.1) (by decide)

end Grammar

end Precedence
