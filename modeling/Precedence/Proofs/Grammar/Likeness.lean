import Mathlib.Data.List.Forall2
import Precedence.Proofs.Expr.Printed
import Precedence.Proofs.Grammar.Completeness

/-!
# Tokens that mean the same

A derivation looks at nothing but the kinds, the texts and the values of its tokens, so a row of
tokens that differ from those of another row in their places only is derived with the same tree, but
for its spans (`Compound.alike`).
-/

namespace Precedence

namespace Expr

theorem withoutSpansOfAll_eq_map (es : List Expr) :
    withoutSpansOfAll es = es.map withoutSpans := by
  induction es with
  | nil => rfl
  | cons e es ih => rw [withoutSpansOfAll, ih, List.map_cons]

end Expr

namespace Grammar

variable {options : GrammarOptions}

theorem withoutSpans_applyAll (left : Expr) (operands : List (BinaryOperator × Expr)) :
    (applyAll left operands).withoutSpans =
      applyAll left.withoutSpans (operands.map (Prod.map id Expr.withoutSpans)) := by
  induction operands generalizing left with
  | nil => rfl
  | cons operand operands ih =>
    refine (ih (.binary operand.1 left operand.2)).trans ?_
    rw [Expr.withoutSpans]
    rfl

theorem withoutSpans_gather (first : Expr) (es : List Expr) :
    (gather first es).withoutSpans =
      gather first.withoutSpans (es.map Expr.withoutSpans) := by
  rcases es with _ | ⟨e, es⟩
  · rfl
  · show (Expr.compound (first :: e :: es)).withoutSpans = _
    rw [Expr.withoutSpans, Expr.withoutSpansOfAll_eq_map]
    rfl

/-- Tokens with the same meaning, wherever they stand. -/
structure SameMeaning (options : GrammarOptions) (t t' : Token) : Prop where
  kind : t'.kind = t.kind
  text : t'.text = t.text
  textValue : t'.textValue = t.textValue
  literal : literalValue? options t' = literalValue? options t

theorem SameMeaning.isVerbatim {t t' : Token} (h : SameMeaning options t t') {text : String}
    (ht : t.IsVerbatim text) : t'.IsVerbatim text :=
  ⟨h.kind.trans ht.1, h.text.trans ht.2⟩

section Rows

variable {α β : Type} {R : α → β → Prop}

theorem exists_append_of_forall₂ : ∀ {as bs : List α} {cs : List β},
    List.Forall₂ R (as ++ bs) cs →
      ∃ as' bs', cs = as' ++ bs' ∧ List.Forall₂ R as as' ∧ List.Forall₂ R bs bs'
  | [], _, cs, h => ⟨[], cs, rfl, .nil, h⟩
  | _ :: _, _, _ :: _, .cons ha h => by
    obtain ⟨as', bs', rfl, h₁, h₂⟩ := exists_append_of_forall₂ h
    exact ⟨_ :: as', bs', rfl, .cons ha h₁, h₂⟩

theorem exists_singleton_of_forall₂ {a : α} {bs : List β} (h : List.Forall₂ R [a] bs) :
    ∃ b, R a b ∧ bs = [b] := by
  obtain ⟨b, _, hb, hnil, rfl⟩ := List.forall₂_cons_left_iff.mp h
  exact ⟨b, hb, by rw [List.forall₂_nil_left_iff.mp hnil]⟩

end Rows

theorem areVerbatim_of_alike {text : String} : ∀ {ts ts' : List Token},
    List.Forall₂ (SameMeaning options) ts ts' → (∀ t ∈ ts, t.IsVerbatim text) →
      ∀ t ∈ ts', t.IsVerbatim text
  | [], _, .nil, _ => fun _ ht => absurd ht List.not_mem_nil
  | _ :: _, _ :: _, .cons ht hts, hall => List.forall_mem_cons.mpr
    ⟨ht.isVerbatim (hall _ List.mem_cons_self),
      areVerbatim_of_alike hts fun u hu => hall u (List.mem_cons_of_mem _ hu)⟩

mutual

theorem Primary.alike : ∀ {d : Nat} {ts : List Token} {e : Expr}, Primary options d ts e →
    ∀ {ts' : List Token}, List.Forall₂ (SameMeaning options) ts ts' →
      ∃ e', Primary options d ts' e' ∧ e'.withoutSpans = e.withoutSpans
  | _, _, _, .identifier t hk, _, hts => by
    obtain ⟨t', ht, rfl⟩ := exists_singleton_of_forall₂ hts
    refine ⟨_, .identifier t' (ht.kind.trans hk), ?_⟩
    rw [Expr.withoutSpans, Expr.withoutSpans, ht.textValue]
  | _, _, _, .literal t value raw hv, _, hts => by
    obtain ⟨t', ht, rfl⟩ := exists_singleton_of_forall₂ hts
    exact ⟨_, .literal t' value raw (ht.literal.trans hv), rfl⟩
  | _, _, _, .group _ _ hl hr _ _ _ h, _, hts => by
    obtain ⟨left', us, hleft, hus, rfl⟩ := List.forall₂_cons_left_iff.mp hts
    obtain ⟨ts', vs, rfl, hinner, hvs⟩ := exists_append_of_forall₂ hus
    obtain ⟨right', hright, rfl⟩ := exists_singleton_of_forall₂ hvs
    obtain ⟨e', he, hspans⟩ := h.alike hinner
    exact ⟨e', .group left' right' (hleft.isVerbatim hl) (hright.isVerbatim hr) _ ts' e' he,
      hspans⟩

theorem Unary.alike : ∀ {d : Nat} {ts : List Token} {e : Expr}, Unary options d ts e →
    ∀ {ts' : List Token}, List.Forall₂ (SameMeaning options) ts ts' →
      ∃ e', Unary options d ts' e' ∧ e'.withoutSpans = e.withoutSpans
  | _, _, _, .primary _ _ _ h, _, hts => by
    obtain ⟨e', he, hspans⟩ := h.alike hts
    exact ⟨e', .primary _ _ e' he, hspans⟩
  | _, _, _, .apply _ op hop ht _ _ _ h, _, hts => by
    obtain ⟨t', us, ht', hus, rfl⟩ := List.forall₂_cons_left_iff.mp hts
    obtain ⟨e', he, hspans⟩ := h.alike hus
    refine ⟨.unary op e', .apply t' op hop (ht'.isVerbatim ht) _ us e' he, ?_⟩
    rw [Expr.withoutSpans, hspans, Expr.withoutSpans]

theorem Level.alike : ∀ {k d : Nat} {ts : List Token} {e : Expr}, Level options k d ts e →
    ∀ {ts' : List Token}, List.Forall₂ (SameMeaning options) ts ts' →
      ∃ e', Level options k d ts' e' ∧ e'.withoutSpans = e.withoutSpans
  | _, _, _, _, .unary _ _ _ h, _, hts => by
    obtain ⟨e', he, hspans⟩ := h.alike hts
    exact ⟨e', .unary _ _ e' he, hspans⟩
  | _, _, _, _, .chain k _ _ _ h _ _ _ h', _, hts => by
    obtain ⟨ts', us', rfl, hfirst, hus⟩ := exists_append_of_forall₂ hts
    obtain ⟨left', he, hspans⟩ := h.alike hfirst
    obtain ⟨operands', he', hspans'⟩ := h'.alike hus
    refine ⟨applyAll left' operands', .chain k _ ts' left' he _ us' operands' he', ?_⟩
    rw [withoutSpans_applyAll, hspans, hspans', withoutSpans_applyAll]

theorem Operands.alike : ∀ {k d : Nat} {ts : List Token}
    {operands : List (BinaryOperator × Expr)}, Operands options k d ts operands →
    ∀ {ts' : List Token}, List.Forall₂ (SameMeaning options) ts ts' →
      ∃ operands', Operands options k d ts' operands' ∧
        operands'.map (Prod.map id Expr.withoutSpans) =
          operands.map (Prod.map id Expr.withoutSpans)
  | _, _, _, _, .nil k, _, hts => by
    obtain rfl := List.forall₂_nil_left_iff.mp hts
    exact ⟨[], .nil k, rfl⟩
  | _, _, _, _, .cons k _ op hop ht _ _ _ h _ _ _ h', _, hts => by
    obtain ⟨t', vs, ht', hvs, rfl⟩ := List.forall₂_cons_left_iff.mp hts
    obtain ⟨ts', us', rfl, hright, hus⟩ := exists_append_of_forall₂ hvs
    obtain ⟨right', he, hspans⟩ := h.alike hright
    obtain ⟨operands', he', hspans'⟩ := h'.alike hus
    refine ⟨(op, right') :: operands', .cons k t' op hop (ht'.isVerbatim ht) _ ts' right' he _ us'
      operands' he', ?_⟩
    rw [List.map_cons, List.map_cons, hspans', Prod.map_apply, Prod.map_apply, hspans]

theorem Expression.alike : ∀ {d : Nat} {ts : List Token} {e : Expr},
    Expression options d ts e → ∀ {ts' : List Token}, List.Forall₂ (SameMeaning options) ts ts' →
      ∃ e', Expression options d ts' e' ∧ e'.withoutSpans = e.withoutSpans
  | _, _, _, .test _ _ _ h, _, hts => by
    obtain ⟨e', he, hspans⟩ := h.alike hts
    exact ⟨e', .test _ _ e' he, hspans⟩
  | _, _, _, .conditional _ _ hq hc _ _ _ _ _ _ _ _ _ h₁ h₂ h₃, _, hts => by
    obtain ⟨ts', rest, rfl, hfirst, hrest⟩ := exists_append_of_forall₂ hts
    obtain ⟨question', rest', hquestion, hrest', rfl⟩ := List.forall₂_cons_left_iff.mp hrest
    obtain ⟨us', rest'', rfl, hsecond, hrest''⟩ := exists_append_of_forall₂ hrest'
    obtain ⟨colon', vs', hcolon, hthird, rfl⟩ := List.forall₂_cons_left_iff.mp hrest''
    obtain ⟨e₁', he₁, hspans₁⟩ := h₁.alike hfirst
    obtain ⟨e₂', he₂, hspans₂⟩ := h₂.alike hsecond
    obtain ⟨e₃', he₃, hspans₃⟩ := h₃.alike hthird
    refine ⟨.conditional e₁' e₂' e₃', .conditional question' colon' (hquestion.isVerbatim hq)
      (hcolon.isVerbatim hc) _ _ _ ts' us' vs' e₁' e₂' e₃' he₁ he₂ he₃, ?_⟩
    rw [Expr.withoutSpans, hspans₁, hspans₂, hspans₃, Expr.withoutSpans]

theorem Assignable.alike : ∀ {place : Place} {d : Nat} {ts : List Token} {e : Expr},
    Assignable options place d ts e → ∀ {ts' : List Token}, List.Forall₂ (SameMeaning options) ts ts' →
      ∃ e', Assignable options place d ts' e' ∧ e'.withoutSpans = e.withoutSpans
  | _, _, _, _, .expression place _ _ _ h, _, hts => by
    obtain ⟨e', he, hspans⟩ := h.alike hts
    exact ⟨e', .expression place _ _ e' he, hspans⟩
  | _, _, _, _, .assignment place ha _ _ hk he _ _ _ h, _, hts => by
    obtain ⟨t', us, ht, hus, rfl⟩ := List.forall₂_cons_left_iff.mp hts
    obtain ⟨equals', vs, hequals, hvs, rfl⟩ := List.forall₂_cons_left_iff.mp hus
    obtain ⟨e', he', hspans⟩ := h.alike hvs
    refine ⟨_, .assignment place ha t' equals' (ht.kind.trans hk) (hequals.isVerbatim he) _ vs e'
      he', ?_⟩
    rw [Expr.withoutSpans, Expr.withoutSpans, ht.textValue, hspans, Expr.withoutSpans,
      Expr.withoutSpans]

theorem Elements.alike : ∀ {place : Place} {d : Nat} {ts : List Token} {es : List Expr},
    Elements options place d ts es → ∀ {ts' : List Token}, List.Forall₂ (SameMeaning options) ts ts' →
      ∃ es', Elements options place d ts' es' ∧
        es'.map Expr.withoutSpans = es.map Expr.withoutSpans
  | _, _, _, _, .nil place, _, hts => by
    obtain rfl := List.forall₂_nil_left_iff.mp hts
    exact ⟨[], .nil place, rfl⟩
  | _, _, _, _, .cons place _ hc _ hcs _ _ _ h _ _ _ h', _, hts => by
    obtain ⟨comma', rest, hcomma, hrest, rfl⟩ := List.forall₂_cons_left_iff.mp hts
    obtain ⟨commas', rest', rfl, hcommas, hrest'⟩ := exists_append_of_forall₂ hrest
    obtain ⟨ts', us', rfl, hfirst, hus⟩ := exists_append_of_forall₂ hrest'
    obtain ⟨e', he, hspans⟩ := h.alike hfirst
    obtain ⟨es', he', hspans'⟩ := h'.alike hus
    refine ⟨_, .cons place comma' (hcomma.isVerbatim hc) commas' (areVerbatim_of_alike hcommas hcs)
      _ ts' e' he _ us' es' he', ?_⟩
    rw [← hcommas.length_eq, List.map_append, List.map_append, List.map_cons, List.map_cons, hspans,
      hspans']

/-- A row like one that is derived is derived, with the same tree but for its spans. -/
theorem Compound.alike : ∀ {place : Place} {d : Nat} {ts : List Token} {e : Expr},
    Compound options place d ts e → ∀ {ts' : List Token}, List.Forall₂ (SameMeaning options) ts ts' →
      ∃ e', Compound options place d ts' e' ∧ e'.withoutSpans = e.withoutSpans
  | _, _, _, _, .elements place _ _ _ h _ _ _ h', _, hts => by
    obtain ⟨ts', us', rfl, hfirst, hus⟩ := exists_append_of_forall₂ hts
    obtain ⟨e', he, hspans⟩ := h.alike hfirst
    obtain ⟨es', he', hspans'⟩ := h'.alike hus
    refine ⟨gather e' es', .elements place _ ts' e' he _ us' es' he', ?_⟩
    rw [withoutSpans_gather, hspans, hspans', withoutSpans_gather]

end

end Grammar

end Precedence
