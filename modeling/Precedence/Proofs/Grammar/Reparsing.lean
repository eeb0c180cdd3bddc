import Precedence.Proofs.Expr.Printed
import Precedence.Proofs.Grammar.Printed

/-!
# Printed expressions are derived again

The printed form of a printable expression is split into tokens from which the same expression is
derived, but for its spans, as deep as its parentheses nest (`Printable.reparses`). Every form but a
leaf is printed in parentheses, so it is a primary wherever it stands, and the levels of the
operators play no part.
-/

namespace Precedence

namespace Grammar

open Text

variable {options : GrammarOptions}

section Lifting

variable {d : Nat} {ts : List Token} {e : Expr}

theorem exists_operatorsAt {op : BinaryOperator} (h : op ∈ options.precedence.flatten) :
    ∃ k, k < options.precedence.length ∧ op ∈ operatorsAt options k := by
  obtain ⟨level, hlevel, hop⟩ := List.mem_flatten.mp h
  obtain ⟨k, hk, rfl⟩ := List.mem_iff_getElem.mp hlevel
  refine ⟨k, hk, ?_⟩
  rwa [operatorsAt, List.getD_eq_getElem?_getD, List.getElem?_eq_getElem hk]

theorem Level.expression {k : Nat} (h : Level options (k + 1) d ts e)
    (hk : k < options.precedence.length) : Expression options d ts e := by
  have hlift := h.lift (options.precedence.length - (k + 1))
  rw [Nat.add_sub_cancel' hk] at hlift
  exact .test d ts e hlift

/-- An operator of the table between two operands. -/
theorem binary_expression {op : BinaryOperator} (hop : op ∈ options.precedence.flatten)
    {t : Token} (ht : t.IsVerbatim op.symbol) {d' : Nat} {us : List Token} {e' : Expr}
    (h : Primary options d ts e) (h' : Primary options d' us e') :
    Expression options (max d d') (ts ++ t :: us) (.binary op e e') := by
  obtain ⟨k, hk, hop⟩ := exists_operatorsAt hop
  have hoperands := Operands.cons k t op hop ht d' us e' (h'.level k) 0 [] [] (.nil k)
  rw [Nat.max_zero, List.append_nil] at hoperands
  exact (Level.chain k d ts e (h.level k) _ _ _ hoperands).expression hk

end Lifting

/-- The printed form is split into tokens from which the expression is derived again. -/
structure Reparses (options : GrammarOptions) (e : Expr) : Prop where
  head : ∃ c cs, e.print.toList = c :: cs ∧ Unicode.isSpace c = false
  splits : ∀ index offset before rest, Opening before → Closing rest →
    ∃ ts e', (lexer options).Splits index offset before e.print.toList rest ts ∧
      Primary options e.printedDepth ts e' ∧ e'.withoutSpans = e.withoutSpans

/-- Between parentheses the printed form is a compound. -/
theorem Reparses.of_group {e : Expr} {w : List Char} (hprint : e.print.toList = '(' :: (w ++ [')']))
    (h : ∀ index offset rest, ∃ ts e',
      (lexer options).Splits index offset (some '(') w (')' :: rest) ts ∧
        Compound options .group e.printedDepth ts e' ∧ e'.withoutSpans = e.withoutSpans) :
    Reparses options e where
  head := ⟨'(', _, hprint, by decide⟩
  splits index offset before rest _ _ := by
    obtain ⟨ts, e', hin, hcompound, hspans⟩ := h index (offset + byteLength ['(']) rest
    obtain ⟨left, hl, hleft⟩ : ∃ t, t.IsVerbatim "(" ∧
        (lexer options).Splits index offset before ['('] (w ++ [')'] ++ rest) [t] :=
      bracket_splits (c := '(') index offset before _ (by decide)
    obtain ⟨right, hr, hright⟩ : ∃ t, t.IsVerbatim ")" ∧
        (lexer options).Splits index (offset + byteLength ['('] + byteLength w)
          (w.getLast?.or (some '(')) [')'] rest [t] :=
      bracket_splits (c := ')') index _ _ rest (by decide)
    refine ⟨left :: (ts ++ [right]), e', ?_, .group left right hl hr _ ts e' hcompound, hspans⟩
    rw [hprint]
    exact hleft.append (hin.append hright)

section Behind

variable {e : Expr} (h : Reparses options e) (index : LineIndex) (offset : Nat)
  (before : Option Char) {rest : List Char} (hrest : Closing rest)

include h hrest

theorem Reparses.behind_blank : ∃ ts e',
    (lexer options).Splits index offset before (' ' :: e.print.toList) rest ts ∧
      Primary options e.printedDepth ts e' ∧ e'.withoutSpans = e.withoutSpans := by
  obtain ⟨c, cs, hprint, hc⟩ := h.head
  obtain ⟨ts, e', hs, hd, he⟩ := h.splits index (offset + byteLength [' ']) (some ' ') rest
    opening_blank hrest
  have hblank : (lexer options).Splits index offset before [' '] (e.print.toList ++ rest) [] := by
    rw [hprint]
    exact blank_splits index offset before _ hc
  exact ⟨ts, e', hblank.append hs, hd, he⟩

/-- Behind a sign or a word that stands between blanks. -/
theorem Reparses.behind_sign {w : List Char}
    (hsign : ∀ rest, (lexer options).segment? (some ' ') (w ++ ' ' :: rest) =
      some ⟨.verbatim, w, [some w], ' ' :: rest⟩) : ∃ t ts e', t.IsVerbatim (String.ofList w) ∧
    (lexer options).Splits index offset before (' ' :: (w ++ ' ' :: e.print.toList)) rest
      (t :: ts) ∧ Primary options e.printedDepth ts e' ∧ e'.withoutSpans = e.withoutSpans := by
  obtain ⟨c, v, rfl⟩ := List.exists_cons_of_ne_nil (Classifier.ne_nil_of_segment (hsign []))
  have hc : Unicode.isSpace c = false :=
    not_space_of_segment (hsign []) fun hk => TokenKind.noConfusion hk
  have hblank : (lexer options).Splits index offset before [' ']
      (c :: v ++ ' ' :: e.print.toList ++ rest) [] := blank_splits index offset before _ hc
  obtain ⟨t, ht, hword⟩ := verbatim_splits index (offset + byteLength [' ']) (some ' ')
    (' ' :: e.print.toList ++ rest) (hsign _)
  obtain ⟨ts, e', hs, hd, he⟩ := h.behind_blank index
    (offset + byteLength [' '] + byteLength (c :: v)) ((c :: v).getLast?.or (some ' ')) hrest
  exact ⟨t, ts, e', ht, hblank.append (hword.append hs), hd, he⟩

end Behind

/-! ### The elements of a compound -/

/-- One more comma in front of the elements is one more hole. -/
theorem Elements.hole {place : Place} {d : Nat} {ts : List Token} {es : List Expr}
    (h : Elements options place d ts es) (hne : es ≠ []) {comma : Token}
    (hc : comma.IsVerbatim ",") : Elements options place d (comma :: ts) (.hole :: es) := by
  cases h with
  | nil => exact absurd rfl hne
  | cons _ comma' hc' commas hcs d ts e h d' us es h' =>
    exact .cons place comma hc (comma' :: commas)
      (List.forall_mem_cons.mpr ⟨hc', hcs⟩) d ts e h d' us es h'

theorem closing_printRest (leaves : List Expr) {rest : List Char} (hrest : Closing rest) :
    Closing ((Expr.printRest leaves).toList ++ rest) := by
  rcases leaves with _ | ⟨leaf, leaves⟩
  · simpa [Expr.printRest] using hrest
  by_cases hleaf : leaf = .hole
  · subst hleaf
    have hprint : (Expr.printRest (.hole :: leaves)).toList =
        ',' :: (Expr.printRest leaves).toList := by simp [Expr.printRest]
    rw [hprint]
    exact closing_comma _
  · have hprint : (Expr.printRest (leaf :: leaves)).toList =
        ',' :: ' ' :: (leaf.print.toList ++ (Expr.printRest leaves).toList) := by
      simp [Expr.printRest_cons hleaf]
    rw [hprint]
    exact closing_comma _

theorem printRest_splits (index : LineIndex) {rest : List Char} (hrest : Closing rest) :
    ∀ (leaves : List Expr) (offset : Nat) (before : Option Char),
      (∀ leaf ∈ leaves, leaf ≠ .hole → Reparses options leaf) →
      leaves.getLast? ≠ some .hole →
      ∃ ts es, (lexer options).Splits index offset before (Expr.printRest leaves).toList rest ts ∧
        Elements options .group (Expr.printedDepthOfLeaves leaves) ts es ∧
        Expr.withoutSpansOfAll es = Expr.withoutSpansOfAll leaves
  | [], offset, before, _, _ => ⟨[], [], .nil, .nil .group, rfl⟩
  | leaf :: leaves, offset, before, h, hlast => by
    have hlast' : leaves.getLast? ≠ some .hole := by
      intro hhole
      rw [List.getLast?_cons, hhole] at hlast
      exact hlast rfl
    by_cases hleaf : leaf = .hole
    · subst hleaf
      obtain ⟨ts, es, hs, hes, hspans⟩ := printRest_splits index hrest leaves
        (offset + byteLength [',']) (some ',')
        (fun leaf hl => h leaf (List.mem_cons_of_mem _ hl)) hlast'
      obtain ⟨comma, hc, hcomma⟩ : ∃ t, t.IsVerbatim "," ∧ (lexer options).Splits index offset
          before [','] ((Expr.printRest leaves).toList ++ rest) [t] :=
        bracket_splits (c := ',') index offset before _ (by decide)
      have hne : es ≠ [] := by
        rintro rfl
        rcases leaves with _ | ⟨leaf, leaves⟩
        · exact hlast rfl
        · simp [Expr.withoutSpansOfAll] at hspans
      have hprint : (Expr.printRest (.hole :: leaves)).toList =
          [','] ++ (Expr.printRest leaves).toList := by simp [Expr.printRest]
      refine ⟨comma :: ts, .hole :: es, ?_, hes.hole hne hc, ?_⟩
      · rw [hprint]
        exact hcomma.append hs
      · rw [Expr.withoutSpansOfAll, Expr.withoutSpansOfAll, hspans]
    · obtain ⟨comma, hc, hcomma⟩ : ∃ t, t.IsVerbatim "," ∧ (lexer options).Splits index offset
          before [','] (' ' :: leaf.print.toList ++ (Expr.printRest leaves).toList ++ rest) [t] :=
        bracket_splits (c := ',') index offset before _ (by decide)
      obtain ⟨ts, e', hs, hd, he⟩ := (h leaf List.mem_cons_self hleaf).behind_blank index
        (offset + byteLength [',']) (some ',') (closing_printRest leaves hrest)
      obtain ⟨us, es, hs', hes, hspans⟩ := printRest_splits index hrest leaves
        (offset + byteLength [','] + byteLength (' ' :: leaf.print.toList))
        ((' ' :: leaf.print.toList).getLast?.or (some ','))
        (fun leaf hl => h leaf (List.mem_cons_of_mem _ hl)) hlast'
      have hprint : (Expr.printRest (leaf :: leaves)).toList =
          [','] ++ (' ' :: leaf.print.toList ++ (Expr.printRest leaves).toList) := by
        simp [Expr.printRest_cons hleaf]
      have helement := Assignable.expression .group _ ts e' hd.expression
      refine ⟨comma :: (ts ++ us), e' :: es, ?_, ?_, ?_⟩
      · rw [hprint]
        exact hcomma.append (hs.append hs')
      · rw [Expr.printedDepthOfLeaves_cons hleaf]
        exact .cons .group comma hc [] (List.forall_mem_nil _) _ ts e' helement _ us es hes
      · rw [Expr.withoutSpansOfAll, Expr.withoutSpansOfAll, he, hspans]

/-! ### Every form -/

section Forms

variable {e e₁ e₂ e₃ : Expr} {name : String} {span : Span}

theorem Reparses.identifier
    (h : PrintsAs options (fun t => t.kind = .identifier ∧ t.textValue = name) name.toList) :
    Reparses options (.identifier name span) where
  head := h.head
  splits index offset before rest hbefore hrest := by
    obtain ⟨t, ⟨hk, rfl⟩, hs⟩ := h.splits index offset before rest hbefore hrest
    exact ⟨[t], _, hs, .identifier t hk, rfl⟩

theorem Reparses.literal {value : LiteralValue} {raw : String}
    (h : PrintsAs options (fun t => literalValue? options t = some (value, raw)) raw.toList) :
    Reparses options (.literal value raw span) where
  head := h.head
  splits index offset before rest hbefore hrest := by
    obtain ⟨t, hv, hs⟩ := h.splits index offset before rest hbefore hrest
    exact ⟨[t], _, hs, .literal t value raw hv, rfl⟩

theorem Reparses.unary {op : UnaryOperator} (hop : op ∈ options.unaryOperators)
    (h : Reparses options e) : Reparses options (.unary op e) := by
  refine .of_group (w := op.symbol.toList ++ ' ' :: e.print.toList) (by simp [Expr.print]) ?_
  intro index offset rest
  obtain ⟨t, ht, hsign⟩ := verbatim_splits index offset (some '(')
    (' ' :: e.print.toList ++ ')' :: rest) (unary_segment op _)
  obtain ⟨ts, e', hs, hd, he⟩ := h.behind_blank index (offset + byteLength op.symbol.toList)
    (op.symbol.toList.getLast?.or (some '(')) (closing_bracket rest)
  rw [String.ofList_toList] at ht
  have hunary := Unary.apply t op hop ht _ ts e' (.primary _ ts e' hd)
  have hexpression : Expression options e.printedDepth (t :: ts) (.unary op e') :=
    .test _ _ _ (hunary.level _)
  exact ⟨t :: ts, .unary op e', hsign.append hs, hexpression.compound .group,
    congrArg (Expr.unary op) he⟩

theorem Reparses.binary {op : BinaryOperator} (hop : op ∈ options.precedence.flatten)
    (hslash : op = .divide → options.regexLiterals = false) (h₁ : Reparses options e₁)
    (h₂ : Reparses options e₂) : Reparses options (.binary op e₁ e₂) := by
  refine .of_group
    (w := e₁.print.toList ++ ' ' :: (op.symbol.toList ++ ' ' :: e₂.print.toList))
    (by simp [Expr.print]) ?_
  intro index offset rest
  obtain ⟨ts, e₁', hs₁, hd₁, he₁⟩ := h₁.splits index offset (some '(')
    (' ' :: (op.symbol.toList ++ ' ' :: e₂.print.toList) ++ ')' :: rest)
    opening_bracket (closing_blank _)
  obtain ⟨t, us, e₂', ht, hs₂, hd₂, he₂⟩ := h₂.behind_sign index
    (offset + byteLength e₁.print.toList) (e₁.print.toList.getLast?.or (some '('))
    (closing_bracket rest) (binary_segment op hslash)
  rw [String.ofList_toList] at ht
  refine ⟨ts ++ t :: us, .binary op e₁' e₂', hs₁.append hs₂,
    (binary_expression hop ht hd₁ hd₂).compound .group, ?_⟩
  rw [Expr.withoutSpans, he₁, he₂, Expr.withoutSpans]

theorem Reparses.conditional (h₁ : Reparses options e₁) (h₂ : Reparses options e₂)
    (h₃ : Reparses options e₃) : Reparses options (.conditional e₁ e₂ e₃) := by
  refine .of_group (w := e₁.print.toList ++ (' ' :: (['?'] ++ ' ' :: e₂.print.toList) ++
    ' ' :: ([':'] ++ ' ' :: e₃.print.toList))) (by simp [Expr.print]) ?_
  intro index offset rest
  obtain ⟨ts, e₁', hs₁, hd₁, he₁⟩ := h₁.splits index offset (some '(')
    (' ' :: (['?'] ++ ' ' :: e₂.print.toList) ++ ' ' :: ([':'] ++ ' ' :: e₃.print.toList) ++
      ')' :: rest) opening_bracket (closing_blank _)
  obtain ⟨question, us, e₂', hq, hs₂, hd₂, he₂⟩ := h₂.behind_sign (w := ['?']) index
    (offset + byteLength e₁.print.toList) (e₁.print.toList.getLast?.or (some '('))
    (closing_blank ([':'] ++ ' ' :: e₃.print.toList ++ ')' :: rest))
    (mark_segment (by decide))
  obtain ⟨colon, vs, e₃', hc, hs₃, hd₃, he₃⟩ := h₃.behind_sign (w := [':']) index
    (offset + byteLength e₁.print.toList +
      byteLength (' ' :: (['?'] ++ ' ' :: e₂.print.toList)))
    ((' ' :: (['?'] ++ ' ' :: e₂.print.toList)).getLast?.or
      (e₁.print.toList.getLast?.or (some '('))) (closing_bracket rest)
    (mark_segment (by decide))
  have hexpression := Expression.conditional question colon hq hc _ _ _ ts us vs _ _ _
    (hd₁.level _) hd₂.expression hd₃.expression
  refine ⟨ts ++ question :: (us ++ colon :: vs), .conditional e₁' e₂' e₃',
    hs₁.append (hs₂.append hs₃), hexpression.compound .group, ?_⟩
  rw [Expr.withoutSpans, he₁, he₂, he₃, Expr.withoutSpans]

theorem Reparses.assignment (ha : options.assignments)
    (h : PrintsAs options (fun t => t.kind = .identifier ∧ t.textValue = name) name.toList)
    (hv : Reparses options e) :
    Reparses options (.assignment (.identifier name span) e) := by
  refine .of_group (w := name.toList ++ ' ' :: (['='] ++ ' ' :: e.print.toList))
    (by simp [Expr.print]) ?_
  intro index offset rest
  obtain ⟨t, ⟨hk, rfl⟩, hname⟩ := h.splits index offset (some '(')
    (' ' :: (['='] ++ ' ' :: e.print.toList) ++ ')' :: rest)
    opening_bracket (closing_blank _)
  obtain ⟨equals, ts, e', hequals, hs, hd, he⟩ := hv.behind_sign (w := ['=']) index
    (offset + byteLength t.textValue.toList) (t.textValue.toList.getLast?.or (some '('))
    (closing_bracket rest) (mark_segment (by decide))
  have hassignment := Assignable.assignment .group ha t equals hk hequals _ ts e' hd.expression
  refine ⟨t :: equals :: ts, .assignment (.identifier t.textValue t.span) e', hname.append hs,
    hassignment.compound, ?_⟩
  rw [Expr.withoutSpans, he, Expr.withoutSpans]
  rfl

theorem Reparses.compound {first : Expr} {leaves : List Expr} (hfirst : first ≠ .hole)
    (h : Reparses options first)
    (h' : ∀ leaf ∈ leaves, leaf ≠ .hole → Reparses options leaf) (hne : leaves ≠ [])
    (hlast : leaves.getLast? ≠ some .hole) : Reparses options (.compound (first :: leaves)) := by
  refine .of_group (w := first.print.toList ++ (Expr.printRest leaves).toList)
    (by simp [Expr.print]) ?_
  intro index offset rest
  obtain ⟨ts, e', hs, hd, he⟩ := h.splits index offset (some '(')
    ((Expr.printRest leaves).toList ++ ')' :: rest) opening_bracket
    (closing_printRest leaves (closing_bracket rest))
  obtain ⟨us, es, hs', hes, hspans⟩ := printRest_splits index (closing_bracket rest) leaves
    (offset + byteLength first.print.toList) (first.print.toList.getLast?.or (some '(')) h' hlast
  obtain ⟨element, es, rfl⟩ : ∃ element es', es = element :: es' := by
    rcases leaves with _ | ⟨leaf, leaves⟩
    · exact absurd rfl hne
    rcases es with _ | ⟨element, es⟩
    · simp [Expr.withoutSpansOfAll] at hspans
    · exact ⟨element, es, rfl⟩
  have hcompound := Compound.elements .group _ ts e' (.expression .group _ ts e' hd.expression)
    _ us _ hes
  rw [Place.levels, ← Expr.printedDepthOfLeaves_cons hfirst] at hcompound
  refine ⟨ts ++ us, .compound (e' :: element :: es), hs.append hs', hcompound, ?_⟩
  rw [Expr.withoutSpans, Expr.withoutSpansOfAll, he, hspans, Expr.withoutSpans,
    Expr.withoutSpansOfAll]

end Forms

theorem mem_literalsOfAll {l : LiteralValue × String} {leaf : Expr} (hl : l ∈ leaf.literals) :
    ∀ {leaves : List Expr}, leaf ∈ leaves → l ∈ Expr.literalsOfAll leaves
  | first :: leaves, h => by
    rw [Expr.literalsOfAll, List.mem_append]
    rcases List.mem_cons.mp h with rfl | h
    · exact Or.inl hl
    · exact Or.inr (mem_literalsOfAll hl h)

/-- A slash is read as an operator only if it does not begin a regular expression. -/
theorem Printable.reparses (hslash : .divide ∈ options.precedence.flatten →
    options.regexLiterals = false) {e : Expr} (h : Printable options e)
    (hclosed : ∀ l ∈ e.literals, Closed l.1 l.2) : Reparses options e := by
  induction h with
  | identifier name span h => exact .identifier h
  | literal value raw span h => exact .literal (h (hclosed _ (List.mem_singleton.mpr rfl)))
  | unary op hop e h ih => exact .unary hop (ih hclosed)
  | binary op hop e₁ e₂ h₁ h₂ ih₁ ih₂ =>
    exact .binary hop (fun hdivide => hslash (hdivide ▸ hop))
      (ih₁ fun l hl => hclosed l (List.mem_append_left _ hl))
      (ih₂ fun l hl => hclosed l (List.mem_append_right _ hl))
  | conditional e₁ e₂ e₃ h₁ h₂ h₃ ih₁ ih₂ ih₃ =>
    exact .conditional
      (ih₁ fun l hl => hclosed l (List.mem_append_left _ (List.mem_append_left _ hl)))
      (ih₂ fun l hl => hclosed l (List.mem_append_left _ (List.mem_append_right _ hl)))
      (ih₃ fun l hl => hclosed l (List.mem_append_right _ hl))
  | compound first h leaves h' hne hlast ih ih' =>
    exact .compound h.ne_hole
      (ih fun l hl => hclosed l (mem_literalsOfAll hl List.mem_cons_self))
      (fun leaf hleaf hhole => ih' leaf hleaf hhole fun l hl =>
        hclosed l (mem_literalsOfAll hl (List.mem_cons_of_mem _ hleaf))) hne hlast
  | assignment ha name span h value hv ih => exact .assignment ha h (ih hclosed)

end Grammar

end Precedence
