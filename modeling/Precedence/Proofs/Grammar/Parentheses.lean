import Precedence.Proofs.Grammar.Strategies

/-!
# Parentheses around a program

A compound in parentheses derives what a whole program derives, only one level deeper
(`compound_group_iff`). Hence each pair of parentheses around a program adds one level to its
derivation and nothing to its tree, so that as many pairs are admitted as the derivation leaves
levels (`parenthesized_exactly`). The two rules for compounds accept the same, but for the one level:
behind an opening parenthesis, the rule for what stands there reads what a parse of just that reads,
with the same tree (`parseInside_eq_ok_iff`).
-/

namespace Precedence.Grammar

variable {options : GrammarOptions}

/-! ### What compounds derive -/

section Compounds

variable {place : Place} {d : Nat} {ts : List Token} {e : Expr} {es : List Expr}

/-- At the other place an assignable is as many levels deeper as the place is. -/
theorem Assignable.elsewhere (h : Assignable options place d ts e) (place' : Place) :
    ∃ d', Assignable options place' d' ts e ∧ d' + place.levels = d + place'.levels := by
  rcases h with ⟨_, d, ts, e, h⟩ | ⟨_, ha, t, equals, hk, he, d, ts, e, h⟩
  · exact ⟨_, .expression place' d ts e h, by omega⟩
  · exact ⟨_, .assignment place' ha t equals hk he d ts e h, by omega⟩

/-- So are further elements, if there are any; behind a first element this is all the same. -/
theorem Elements.elsewhere (place' : Place) : ∀ {d : Nat} {ts : List Token} {es : List Expr},
    Elements options place d ts es → ∃ d', Elements options place' d' ts es ∧
      ∀ n n', n' + place.levels = n + place'.levels →
        max n' d' + place.levels = max n d + place'.levels
  | _, _, _, .nil _ => ⟨0, .nil place', fun n n' hn => by simpa using hn⟩
  | _, _, _, .cons _ comma hc commas hcs d ts e h d' us es h' => by
    obtain ⟨d₁, h₁, hd₁⟩ := h.elsewhere place'
    obtain ⟨d₂, h₂, hd₂⟩ := Elements.elsewhere place' h'
    refine ⟨_, .cons place' comma hc commas hcs d₁ ts e h₁ d₂ us es h₂, fun n n' hn => ?_⟩
    have hmax := hd₂ (max n d) (max n' d₁) (by omega)
    omega

theorem Compound.elsewhere (h : Compound options place d ts e) (place' : Place) :
    ∃ d', Compound options place' d' ts e ∧ d' + place.levels = d + place'.levels := by
  obtain ⟨_, d, ts, e, h, d', us, es, h'⟩ := h
  obtain ⟨d₁, h₁, hd₁⟩ := h.elsewhere place'
  obtain ⟨d₂, h₂, hd₂⟩ := h'.elsewhere place'
  exact ⟨_, .elements place' d₁ ts e h₁ d₂ us es h₂, hd₂ d d₁ hd₁⟩

theorem compound_group_iff :
    Compound options .group (d + 1) ts e ↔ Compound options .program d ts e := by
  constructor
  · intro h
    obtain ⟨d', h', hd'⟩ := h.elsewhere .program
    obtain rfl : d' = d := Nat.add_right_cancel hd'
    exact h'
  · intro h
    obtain ⟨d', h', rfl⟩ := h.elsewhere .group
    exact h'

end Compounds

/-! ### Pairs of parentheses -/

/-- Tokens within pairs of tokens, the outermost pair first. -/
def enclose (ts : List Token) : List (Token × Token) → List Token
  | [] => ts
  | (left, right) :: pairs => left :: (enclose ts pairs ++ [right])

/-- An opening and a closing parenthesis. -/
def AreParentheses (pair : Token × Token) : Prop :=
  pair.1.IsVerbatim "(" ∧ pair.2.IsVerbatim ")"

/-- Each pair adds one level, and nothing to the tree. -/
theorem Compound.enclosed {d : Nat} {ts : List Token} {e : Expr}
    (h : Compound options .program d ts e) : ∀ {pairs : List (Token × Token)},
    (∀ pair ∈ pairs, AreParentheses pair) →
      Compound options .program (d + pairs.length) (enclose ts pairs) e
  | [], _ => h
  | (left, right) :: pairs, hpairs => by
    obtain ⟨hl, hr⟩ := hpairs (left, right) List.mem_cons_self
    have hinner := Compound.enclosed h fun pair hpair => hpairs pair (List.mem_cons_of_mem _ hpair)
    have hgroup : Primary options (d + pairs.length + 1) (enclose ts ((left, right) :: pairs)) e :=
      .group left right hl hr _ _ e (compound_group_iff.mpr hinner)
    exact hgroup.expression.compound .program

/-! ### The rule for what stands in parentheses -/

/-- What the rule for compounds in parentheses says of tokens that stand behind an opening one. -/
def parseInside (grammar : Grammar) (left : Token) (tokens : List Token) : Except Failure Expr :=
  let (result, s) := (graph grammar.options).apply (compound grammar.options .group nested)
    ((grammar.options.strategy.start (left :: tokens).toArray).restore 1)
  verdict result s

theorem parseInside_eq (grammar : Grammar) {left : Token} (hl : left.IsVerbatim "(")
    (tokens : List Token) :
    grammar.parseInside left tokens = verdictOf (left :: tokens).toArray
      (attempt grammar.options (left :: tokens).toArray nestingLimit
        (compound grammar.options .group nested) 1) := by
  have hframes : Enclosing.framesAt (left :: tokens).toArray 1 = [.group] :=
    (Enclosing.framesAt_succ rfl).trans (Enclosing.pass_open hl)
  have hkeyed : Keyed grammar.options (compound grammar.options .group nested) :=
    (built_compound (.reference 0)).keyed
  exact verdict_eq hkeyed grammar.options.strategy
    (compound_nests .group (nested_nests nestingLimit) 1 (by rw [hframes]; rfl)
      (by rw [hframes]; exact Nat.add_comm 1 nestingLimit)).visits

/-- Neither the strategy nor the classifier matters there. -/
theorem parseInside_withStrategy (strategy : Strategy) (classifier classifier' : Classifier)
    {left : Token} (hl : left.IsVerbatim "(") (tokens : List Token) :
    parseInside ⟨withStrategy options strategy, classifier⟩ left tokens =
      parseInside ⟨options, classifier'⟩ left tokens := by
  have h := sameOutcome_of_plain options strategy
    (plain_compound options strategy .group (rfl : nested.plain = nested.plain))
    (left :: tokens).toArray nestingLimit 1
  rw [parseInside_eq _ hl, parseInside_eq _ hl, verdictOf, verdictOf, h.result_eq, h.failures_eq]

theorem parseInside_eq_ok_iff {grammar : Grammar}
    (hnodup : grammar.options.precedence.flatten.Nodup) {left : Token} (hl : left.IsVerbatim "(")
    {tokens : List Token} {e : Expr} :
    grammar.parseInside left tokens = .ok e ↔
      ∃ d < nestingLimit, Compound grammar.options .program d tokens e := by
  rw [parseInside_eq grammar hl, verdictOf_eq_ok_iff]
  constructor
  · rintro ⟨c, q, hread, hq, hc⟩
    obtain ⟨d, ts, e', hd, he, hs, rfl⟩ := compound_sound (nested_sound nestingLimit) 1 c q hread
    obtain rfl : e' = e := by simpa [Part.expr?] using hc
    -- Whatever is read up to the end is all that stands behind the parenthesis.
    obtain ⟨hts, -⟩ := (Spans.whole_iff (hs.le_size (by simp))).mp ⟨.cons rfl hs, hq⟩
    obtain rfl : ts = tokens := (List.cons.inj hts).2
    obtain ⟨d', he', hd'⟩ := he.elsewhere .program
    have hd' : d' + 1 = d := hd'
    exact ⟨d', by omega, he'⟩
  · rintro ⟨d, hd, he⟩
    have hs : Spans (left :: tokens).toArray 1 tokens (1 + tokens.length) :=
      Spans.of_drop (List.append_nil tokens).symm
    have hread := Compound.complete hnodup (compound_group_iff.mpr he) nestingLimit hs
      fun t ht => by simp [Nat.add_comm] at ht
    exact ⟨_, _, hread.1 hd, by simp [Nat.add_comm], rfl⟩

/-- With either strategy, tokens with a tree have a derivation of one depth, and within pairs of
parentheses they have the same tree as long as the depth and the pairs do not exceed the nesting
limit; otherwise it is the nesting that is reported. The rule for what stands in parentheses accepts
the same programs as the rule for programs, with the same trees, but for one level. -/
theorem parenthesized_exactly (h : options.validate = .ok options) (strategy : Strategy) :
    ∃ grammar, ofOptions (withStrategy options strategy) = .ok grammar ∧
      (∀ tokens e, grammar.parseTokens tokens = .ok e → ∃ d,
        (∀ d' e', Compound options .program d' tokens e' ↔ d' = d ∧ e' = e) ∧
        ∀ pairs, (∀ pair ∈ pairs, AreParentheses pair) →
          if d + pairs.length ≤ nestingLimit then
            grammar.parseTokens (enclose tokens pairs) = .ok e
          else
            ∃ i, grammar.parseTokens (enclose tokens pairs) =
              .error (tooDeep (enclose tokens pairs).toArray i)) ∧
      ∀ left : Token, left.IsVerbatim "(" → ∀ tokens e,
        (grammar.parseTokens tokens = .ok e ↔
          ∃ d ≤ nestingLimit, Compound options .program d tokens e) ∧
        (grammar.parseInside left tokens = .ok e ↔
          ∃ d < nestingLimit, Compound options .program d tokens e) := by
  have hfault := (GrammarOptions.fault?_of_validate h).1
  have hnodup := GrammarOptions.nodup_of_fault?_eq_none hfault
  have hparse : ∀ tokens, parseTokens
      ⟨withStrategy options strategy, ⟨patternForms (withStrategy options strategy)⟩⟩ tokens =
        parseTokens ⟨options, ⟨patternForms options⟩⟩ tokens :=
    parseTokens_withStrategy strategy _ _
  refine ⟨_, ofOptions_eq (validate_withStrategy h strategy), fun tokens e hok => ?_,
    fun left hl tokens e => ⟨?_, ?_⟩⟩
  · rw [hparse] at hok
    obtain ⟨d, -, hderived⟩ := (parseTokens_eq_ok_iff hnodup).mp hok
    refine ⟨d, fun d' e' => ⟨fun h' => h'.unique hnodup hderived, ?_⟩, fun pairs hpairs => ?_⟩
    · rintro ⟨rfl, rfl⟩
      exact hderived
    · have henclosed := hderived.enclosed hpairs
      rw [hparse]
      by_cases hd : d + pairs.length ≤ nestingLimit
      · rw [if_pos hd]
        exact (parseTokens_eq_ok_iff hnodup).mpr ⟨_, hd, henclosed⟩
      · rw [if_neg hd]
        exact parseTokens_of_tooDeep hnodup henclosed (Nat.not_le.mp hd)
  · rw [hparse]
    exact parseTokens_eq_ok_iff hnodup
  · rw [parseInside_withStrategy strategy _ ⟨patternForms options⟩ hl]
    exact parseInside_eq_ok_iff hnodup hl

/-- The tokens of `x`. -/
def loneName : List Token :=
  [⟨.identifier, "x", .text "x", [], ⟨0, 1⟩, ⟨1, 1⟩⟩]

/-- That many pairs of parentheses. -/
def parentheses (n : Nat) : List (Token × Token) :=
  .replicate n
    (⟨.verbatim, "(", .text "(", [], ⟨0, 1⟩, ⟨1, 1⟩⟩,
      ⟨.verbatim, ")", .text ")", [], ⟨0, 1⟩, ⟨1, 1⟩⟩)

/-- A name is admitted within as many pairs of parentheses as there are levels. -/
theorem name_parenthesized_exactly : GrammarOptions.standard.validate = .ok .standard ∧
    ∃ grammar, ofOptions (withStrategy .standard .backtracking) = .ok grammar ∧
      grammar.parseTokens (enclose loneName (parentheses 32)) = .ok (.identifier "x" ⟨0, 1⟩) ∧
      ∃ i, grammar.parseTokens (enclose loneName (parentheses 33)) =
        .error (tooDeep (enclose loneName (parentheses 33)).toArray i) := by
  have hvalidate : GrammarOptions.standard.validate = .ok .standard := rfl
  refine ⟨hvalidate, ?_⟩
  obtain ⟨grammar, hgrammar, hall, -⟩ := parenthesized_exactly hvalidate .backtracking
  refine ⟨grammar, hgrammar, ?_⟩
  obtain rfl : ⟨_, _⟩ = grammar := Except.ok.inj
    ((ofOptions_eq (validate_withStrategy rfl .backtracking)).symm.trans hgrammar)
  have hderived : Compound .standard .program 0 loneName (.identifier "x" ⟨0, 1⟩) :=
    (Primary.identifier _ rfl).expression.compound .program
  have hnodup : (withStrategy .standard .backtracking).precedence.flatten.Nodup := by decide
  obtain ⟨d, hd, hpairs⟩ := hall loneName (.identifier "x" ⟨0, 1⟩)
    ((parseTokens_eq_ok_iff hnodup).mpr ⟨0, Nat.zero_le _,
      (Primary.identifier _ rfl).expression.compound .program⟩)
  obtain ⟨rfl, -⟩ := (hd 0 _).mp hderived
  have hpair : ∀ n, ∀ pair ∈ parentheses n, AreParentheses pair := fun n pair hpair => by
    obtain rfl := List.eq_of_mem_replicate hpair
    exact ⟨⟨rfl, rfl⟩, rfl, rfl⟩
  exact ⟨hpairs (parentheses 32) (hpair 32), hpairs (parentheses 33) (hpair 33)⟩

end Precedence.Grammar
