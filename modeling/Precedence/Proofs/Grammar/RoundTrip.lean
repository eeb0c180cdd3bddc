import Precedence.Proofs.Grammar.Chains

/-!
# What is printed is parsed again

The printed form of an expression that a grammar made of a text is split into tokens, and they are
derived with the same expression, but for its spans (`derived_of_print`). So the grammar makes the
same expression of it, unless its parentheses nest deeper than the limit. A chain of operators has
no parentheses as a text, but one pair for each operator in print, so there are texts whose printed
forms are refused.
-/

namespace Precedence

namespace Grammar

open Text

variable {options : GrammarOptions} {e : Expr}

theorem derived_of_print (hfault : options.fault? = none) {text : String}
    (h : parse ⟨options, lexer options⟩ text = .ok e)
    (hclosed : ∀ l ∈ e.literals, Closed l.1 l.2) :
    ∃ tokens e', tokenize ⟨options, lexer options⟩ e.print = .ok tokens ∧
      Compound options .program e.printedDepth tokens e' ∧ e'.withoutSpans = e.withoutSpans := by
  obtain ⟨hnodup, hslash⟩ := GrammarOptions.table_of_fault?_eq_none hfault
  obtain ⟨tokens, htokens, hparse⟩ := parse_eq_ok h
  obtain ⟨d, -, hd⟩ := (parseTokens_eq_ok_iff hnodup).mp hparse
  obtain ⟨-, hwritten⟩ := written_of_tokens (Joined.of_before rfl) htokens
  have hreparses := (hd.printable hwritten).reparses hslash hclosed
  obtain ⟨ts, e', hs, hprimary, hspans⟩ := hreparses.splits (.ofText e.print.toList) 0 none []
    opening_none closing_nil
  exact ⟨ts, e', tokenize_of_splits hs, hprimary.expression.compound .program, hspans⟩

theorem grammar_eq (h : options.validate = .ok options) {grammar : Grammar}
    (hg : ofOptions options = .ok grammar) :
    options.fault? = none ∧ grammar = ⟨options, lexer options⟩ := by
  obtain ⟨hfault, -⟩ := GrammarOptions.fault?_of_validate h
  exact ⟨hfault, Except.ok.inj (hg.symm.trans (ofOptions_eq hfault))⟩

/-! ### Texts of the standard options -/

theorem name_reparses : Reparses .standard (.identifier "x" (.point 0)) := by
  have hsegment : (lexer .standard).segment? none ['x'] =
      some ⟨.identifier, ['x'], [some ['x']], []⟩ := rfl
  have htoken : Classifier.token (.ofText []) 0 ⟨.identifier, ['x'], [some ['x']], []⟩ =
      .ok ⟨.identifier, "x", .text "x", [some "x"], ⟨0, 1⟩, ⟨1, 1⟩⟩ := rfl
  exact .identifier (identifier_written hsegment htoken (Joined.of_before rfl)
    (fun c hc => absurd hc (Option.not_mem_none c)) rfl)

theorem number_reparses : ∃ x, Reparses .standard (.literal (.number x) "2.5" (.point 0)) := by
  have hsegment : (lexer .standard).segment? none ['2', '.', '5'] =
      some ⟨.number, ['2', '.', '5'], [some ['2', '.', '5']], []⟩ := rfl
  obtain ⟨x, hx⟩ := Option.isSome_iff_exists.mp
    (show (Number.Numeral.value? ['2', '.', '5']).isSome by decide +kernel)
  have hfinite : (Number.Numeral.value? ['2', '.', '5']).all (·.isFinite) = true := by
    decide +kernel
  rw [hx] at hfinite
  have htoken : ∃ t, Classifier.token (.ofText []) 0
      ⟨.number, ['2', '.', '5'], [some ['2', '.', '5']], []⟩ = .ok t ∧
      literalValue? .standard t = some (.number x, "2.5") := by
    have hprimary : Segment.primary ⟨.number, ['2', '.', '5'], [some ['2', '.', '5']], []⟩ =
        ['2', '.', '5'] := rfl
    simp only [Classifier.token, hprimary, hx, if_true, Except.map, Except.ok.injEq,
      exists_eq_left']
    have hnumber : finite? ⟨.number, "2.5", .number x, [some "2.5"], ⟨0, 3⟩, ⟨1, 1⟩⟩ = some x :=
      Option.filter_eq_some_iff.mpr ⟨rfl, hfinite⟩
    exact congrArg (Option.map fun x => (LiteralValue.number x, "2.5")) hnumber
  obtain ⟨t, ht, hv⟩ := htoken
  refine ⟨x, .literal (literal_written hsegment ht hv fun y _ => ?_)⟩
  decide

/-! ### The printed form of what was made of a text -/

/-- The printed form of what was made of a text is parsed as the same expression, but for its spans,
or else its parentheses nest too deep, and it is refused for that. -/
theorem parse_print (h : options.validate = .ok options) {grammar : Grammar}
    (hg : ofOptions options = .ok grammar) {text : String} (hparse : grammar.parse text = .ok e)
    (hclosed : ∀ l ∈ e.literals, Closed l.1 l.2) :
    ∃ tokens e', grammar.tokenize e.print = .ok tokens ∧
      Compound options .program e.printedDepth tokens e' ∧ e'.withoutSpans = e.withoutSpans ∧
      (e.printedDepth ≤ nestingLimit → grammar.parse e.print = .ok e') ∧
      (nestingLimit < e.printedDepth →
        ∃ i, grammar.parse e.print = .error (tooDeep tokens.toArray i)) := by
  obtain ⟨hfault, rfl⟩ := grammar_eq h hg
  obtain ⟨hnodup, -⟩ := GrammarOptions.table_of_fault?_eq_none hfault
  obtain ⟨tokens, e', htokens, hd, hspans⟩ := derived_of_print hfault hparse hclosed
  refine ⟨tokens, e', htokens, hd, hspans, fun hlimit => ?_, fun hlimit => ?_⟩
  · rw [parse_of_tokenize htokens]
    exact (parseTokens_eq_ok_iff hnodup).mpr ⟨_, hlimit, hd⟩
  · rw [parse_of_tokenize htokens]
    exact parseTokens_of_tooDeep hnodup hd hlimit

theorem sum_parse_print : GrammarOptions.standard.validate = .ok .standard ∧
    ∃ grammar, ofOptions .standard = .ok grammar ∧ ∃ e,
      grammar.parse "2.5 + 2.5 + 2.5" = .ok e ∧ (∀ l ∈ e.literals, Closed l.1 l.2) ∧
      e.print = "((2.5 + 2.5) + 2.5)" ∧ ∃ e',
        grammar.parse "((2.5 + 2.5) + 2.5)" = .ok e' ∧ e'.withoutSpans = e.withoutSpans := by
  obtain ⟨x, hx⟩ := number_reparses
  have hop : BinaryOperator.add ∈ GrammarOptions.standard.precedence.flatten := by decide
  obtain ⟨e, hparse, hspans⟩ := chain_parses rfl hop hx (Nat.zero_le _) 2
  have hends : "2.5".toList.head? ≠ some '.' ∧ "2.5".toList.getLast? ≠ some '.' := by decide
  have hclosed : ∀ l ∈ e.literals, Closed l.1 l.2 := by
    intro l hl y _
    obtain rfl := List.mem_singleton.mp (Expr.literals_of_chained hspans hl)
    exact hends
  have hdepth : e.printedDepth ≤ nestingLimit := by
    rw [Expr.printedDepth_of_chained hspans]
    exact (by decide : 0 + 2 ≤ nestingLimit)
  have hprint : e.print = "((2.5 + 2.5) + 2.5)" := Expr.print_congr hspans
  obtain ⟨-, e', -, -, hspans', hparse', -⟩ := parse_print rfl (ofOptions_eq rfl) hparse hclosed
  exact ⟨rfl, _, ofOptions_eq rfl, e, hparse, hclosed, hprint, e', hprint ▸ hparse' hdepth, hspans'⟩

/-- The printed form has tokens, and is its own printed form, or else nests too deep. -/
theorem print_accepted (h : options.validate = .ok options) {grammar : Grammar}
    (hg : ofOptions options = .ok grammar) {text : String} (hparse : grammar.parse text = .ok e)
    (hclosed : ∀ l ∈ e.literals, Closed l.1 l.2) :
    ∃ tokens, grammar.tokenize e.print = .ok tokens ∧
      if e.printedDepth ≤ nestingLimit then
        ∃ e', grammar.parse e.print = .ok e' ∧ e'.print = e.print
      else ∃ i, grammar.parse e.print = .error (tooDeep tokens.toArray i) := by
  obtain ⟨hfault, rfl⟩ := grammar_eq h hg
  obtain ⟨hnodup, -⟩ := GrammarOptions.table_of_fault?_eq_none hfault
  obtain ⟨tokens, e', htokens, hd, hspans⟩ := derived_of_print hfault hparse hclosed
  refine ⟨tokens, htokens, ?_⟩
  rw [parse_of_tokenize htokens]
  split_ifs with hlimit
  · exact ⟨e', (parseTokens_eq_ok_iff hnodup).mpr ⟨_, hlimit, hd⟩, Expr.print_congr hspans⟩
  · exact parseTokens_of_tooDeep hnodup hd (Nat.not_le.mp hlimit)

theorem conjunction_print_accepted : GrammarOptions.standard.validate = .ok .standard ∧
    ∃ grammar, ofOptions .standard = .ok grammar ∧ ∃ e,
      grammar.parse "x AND x AND x" = .ok e ∧ (∀ l ∈ e.literals, Closed l.1 l.2) ∧
      ∃ e', grammar.parse "((x AND x) AND x)" = .ok e' ∧ e'.print = "((x AND x) AND x)" := by
  have hop : BinaryOperator.and ∈ GrammarOptions.standard.precedence.flatten := by decide
  obtain ⟨e, hparse, hspans⟩ := chain_parses rfl hop name_reparses (Nat.zero_le _) 2
  have hclosed : ∀ l ∈ e.literals, Closed l.1 l.2 :=
    fun l hl => absurd (Expr.literals_of_chained hspans hl) List.not_mem_nil
  have hdepth : e.printedDepth ≤ nestingLimit := by
    rw [Expr.printedDepth_of_chained hspans]
    exact (by decide : 0 + 2 ≤ nestingLimit)
  have hprint : e.print = "((x AND x) AND x)" := Expr.print_congr hspans
  obtain ⟨_, -, haccepted⟩ := print_accepted rfl (ofOptions_eq rfl) hparse hclosed
  rw [if_pos hdepth, hprint] at haccepted
  exact ⟨rfl, _, ofOptions_eq rfl, e, hparse, hclosed, haccepted⟩

/-- A chain with more operators than there are levels is parsed, but its printed form nests too
deep. -/
theorem chain_print_refused (hfault : options.fault? = none) {op : BinaryOperator}
    (hop : op ∈ options.precedence.flatten) (he : Reparses options e)
    (hclosed : ∀ l ∈ e.literals, Closed l.1 l.2) (hdepth : e.printedDepth ≤ nestingLimit) {n : Nat}
    (hn : nestingLimit < e.printedDepth + n) :
    ∃ e', parse ⟨options, lexer options⟩ (e.chain op n) = .ok e' ∧
      ∃ tokens i, parse ⟨options, lexer options⟩ e'.print = .error (tooDeep tokens i) := by
  obtain ⟨hnodup, -⟩ := GrammarOptions.table_of_fault?_eq_none hfault
  obtain ⟨e', hparse, hspans⟩ := chain_parses hfault hop he hdepth n
  have hclosed' : ∀ l ∈ e'.literals, Closed l.1 l.2 :=
    fun l hl => hclosed l (Expr.literals_of_chained hspans hl)
  have hdeep : nestingLimit < e'.printedDepth := by
    rwa [Expr.printedDepth_of_chained hspans]
  obtain ⟨tokens, e'', htokens, hd, -⟩ := derived_of_print hfault hparse hclosed'
  obtain ⟨i, hi⟩ : ∃ i, parseTokens ⟨options, lexer options⟩ tokens =
      .error (tooDeep tokens.toArray i) := parseTokens_of_tooDeep hnodup hd hdeep
  exact ⟨e', hparse, _, i, (parse_of_tokenize htokens).trans hi⟩

theorem long_conjunction_print_refused : GrammarOptions.standard.validate = .ok .standard ∧
    ∃ grammar, ofOptions .standard = .ok grammar ∧ ∃ e,
      grammar.parse (Expr.chain .and (.identifier "x" (.point 0)) 33) = .ok e ∧
      ∃ tokens i, grammar.parse e.print = .error (tooDeep tokens i) := by
  have hop : BinaryOperator.and ∈ GrammarOptions.standard.precedence.flatten := by decide
  exact ⟨rfl, _, ofOptions_eq rfl, chain_print_refused rfl hop name_reparses
    (fun l hl => absurd hl List.not_mem_nil) (Nat.zero_le _) (by decide)⟩

end Grammar

end Precedence
