import Mathlib.Data.List.Forall2
import Precedence.Proofs.Classifier.Segmentation
import Precedence.Proofs.Expr.Leaves
import Precedence.Proofs.Grammar.RoundTrip
import Precedence.Proofs.Grammar.Values

/-!
# The leaves of an expression are tokens

The leaves of an expression that was derived from a row of tokens are the tokens of that row which
stand for something, each once and in their order (`Compound.conserves`); what is left out are the
words that hold the others together. If the tokens are those of a text, then each leaf is written as
its token is, and stands where it stands. So the spans of the leaves follow one another, and those of
all expressions go from their first leaf to their last.
-/

namespace Precedence

open Text

/-- The span goes from one end to the other of a place where a text reads `w`. -/
def Span.Covers (s : Span) (text w : List Char) : Prop :=
  ∃ front behind, text = front ++ (w ++ behind) ∧
    s = ⟨byteLength front, byteLength (front ++ w)⟩

namespace Grammar

/-- The kinds of the tokens that stand for something. -/
def operandKinds : List TokenKind :=
  [.identifier, .number, .string, .null, .boolean, .regex]

/-- The tokens that stand for something. -/
def operandTokens (ts : List Token) : List Token :=
  ts.filter fun t => t.kind ∈ operandKinds

variable {options : GrammarOptions}

/-! ### Derivations lose no leaf -/

/-- A leaf that is derived from a single token. -/
inductive LeafOf (options : GrammarOptions) : Expr → Token → Prop
  | identifier (t : Token) (hk : t.kind = .identifier) :
    LeafOf options (.identifier t.textValue t.span) t
  | literal (t : Token) (value : LiteralValue) (raw : String)
    (hv : literalValue? options t = some (value, raw)) :
    LeafOf options (.literal value raw t.span) t

theorem LeafOf.kind_mem {leaf : Expr} {t : Token} (h : LeafOf options leaf t) :
    t.kind ∈ operandKinds := by
  rcases h with ⟨_, hk⟩ | ⟨_, value, raw, hv⟩
  · rw [hk]
    decide
  · rcases mem_literalKinds.mp (kind_mem_literalKinds hv) with hk | hk | hk | hk | ⟨-, hk⟩ <;>
      rw [hk] <;> decide

/-- The leaves are made of the tokens that stand for something, one by one. -/
def Conserves (options : GrammarOptions) (leaves : List Expr) (ts : List Token) : Prop :=
  List.Forall₂ (LeafOf options) leaves (operandTokens ts)

section Conserves

variable {leaves leaves' : List Expr} {ts us : List Token} {t : Token} {text : String}

theorem conserves_leaf {leaf : Expr} (h : LeafOf options leaf t) :
    Conserves options [leaf] [t] := by
  rw [Conserves, operandTokens, List.filter_cons_of_pos (by simpa using h.kind_mem)]
  exact .cons h .nil

theorem Conserves.append (h : Conserves options leaves ts) (h' : Conserves options leaves' us) :
    Conserves options (leaves ++ leaves') (ts ++ us) := by
  rw [Conserves, operandTokens, List.filter_append]
  exact List.rel_append h h'

theorem Conserves.mark (ht : t.IsVerbatim text) (h : Conserves options leaves ts) :
    Conserves options leaves (t :: ts) := by
  rw [Conserves, operandTokens, List.filter_cons_of_neg (by rw [ht.1]; decide)]
  exact h

theorem conserves_marks (h : ∀ t ∈ ts, t.IsVerbatim text) : Conserves options [] ts := by
  induction ts with
  | nil => exact .nil
  | cons t ts ih =>
    exact .mark (h t List.mem_cons_self) (ih fun t ht => h t (List.mem_cons_of_mem _ ht))

end Conserves

theorem leaves_applyAll (left : Expr) (operands : List (BinaryOperator × Expr)) :
    (applyAll left operands).leaves = left.leaves ++ operands.flatMap fun p => p.2.leaves := by
  induction operands generalizing left with
  | nil => exact (List.append_nil _).symm
  | cons p operands ih =>
    have happly : (applyAll left (p :: operands)).leaves =
        (applyAll (.binary p.1 left p.2) operands).leaves := rfl
    rw [happly, ih, Expr.leaves, List.flatMap_cons, List.append_assoc]

theorem leaves_gather (first : Expr) (es : List Expr) :
    (gather first es).leaves = first.leaves ++ es.flatMap Expr.leaves := by
  rcases es with _ | ⟨e, es⟩
  · exact (List.append_nil _).symm
  · show Expr.leavesOfAll (first :: e :: es) = _
    rw [Expr.leavesOfAll_eq, List.flatMap_cons]

mutual

theorem Primary.conserves : ∀ {d : Nat} {ts : List Token} {e : Expr}, Primary options d ts e →
    Conserves options e.leaves ts
  | _, _, _, .identifier t hk => conserves_leaf (.identifier t hk)
  | _, _, _, .literal t value raw hv => conserves_leaf (.literal t value raw hv)
  | _, _, e, .group _ _ hl hr _ _ _ h => by
    have hclosed := h.conserves.append (conserves_marks (List.forall_mem_singleton.mpr hr))
    rw [List.append_nil] at hclosed
    exact hclosed.mark hl

theorem Unary.conserves : ∀ {d : Nat} {ts : List Token} {e : Expr}, Unary options d ts e →
    Conserves options e.leaves ts
  | _, _, _, .primary _ _ _ h => h.conserves
  | _, _, _, .apply _ _ _ ht _ _ _ h => h.conserves.mark ht

theorem Level.conserves : ∀ {k d : Nat} {ts : List Token} {e : Expr}, Level options k d ts e →
    Conserves options e.leaves ts
  | _, _, _, _, .unary _ _ _ h => h.conserves
  | _, _, _, _, .chain _ _ _ left h _ _ operands h' => by
    rw [leaves_applyAll]
    exact h.conserves.append h'.conserves

theorem Operands.conserves : ∀ {k d : Nat} {ts : List Token}
    {operands : List (BinaryOperator × Expr)}, Operands options k d ts operands →
    Conserves options (operands.flatMap fun p => p.2.leaves) ts
  | _, _, _, _, .nil _ => .nil
  | _, _, _, _, .cons _ _ _ _ ht _ _ _ h _ _ _ h' => (h.conserves.append h'.conserves).mark ht

theorem Expression.conserves : ∀ {d : Nat} {ts : List Token} {e : Expr},
    Expression options d ts e → Conserves options e.leaves ts
  | _, _, _, .test _ _ _ h => h.conserves
  | _, _, _, .conditional _ _ hq hc _ _ _ _ _ _ _ _ _ h₁ h₂ h₃ => by
    rw [Expr.leaves, List.append_assoc]
    exact h₁.conserves.append ((h₂.conserves.append (h₃.conserves.mark hc)).mark hq)

theorem Assignable.conserves : ∀ {place : Place} {d : Nat} {ts : List Token} {e : Expr},
    Assignable options place d ts e → Conserves options e.leaves ts
  | _, _, _, _, .expression _ _ _ _ h => h.conserves
  | _, _, _, _, .assignment _ _ t _ hk he _ _ _ h =>
    (conserves_leaf (.identifier t hk)).append (h.conserves.mark he)

/-- A hole is no leaf, and the comma that it stands for is no such token. -/
theorem Elements.conserves : ∀ {place : Place} {d : Nat} {ts : List Token} {es : List Expr},
    Elements options place d ts es → Conserves options (es.flatMap Expr.leaves) ts
  | _, _, _, _, .nil _ => .nil
  | _, _, _, _, .cons _ _ hc commas hcs _ _ _ h _ _ _ h' => by
    have hholes : (List.replicate commas.length Expr.hole).flatMap Expr.leaves = [] :=
      List.flatMap_eq_nil_iff.mpr fun e he => by rw [List.eq_of_mem_replicate he, Expr.leaves]
    rw [List.flatMap_append, hholes, List.nil_append, List.flatMap_cons]
    exact ((conserves_marks hcs).append (h.conserves.append h'.conserves)).mark hc

theorem Compound.conserves : ∀ {place : Place} {d : Nat} {ts : List Token} {e : Expr},
    Compound options place d ts e → Conserves options e.leaves ts
  | _, _, _, _, .elements _ _ _ _ h _ _ _ h' => by
    rw [leaves_gather]
    exact h.conserves.append h'.conserves

end

/-! ### What a printable expression is put together of -/

theorem Printable.leaves_ne_nil {e : Expr} (h : Printable options e) : e.leaves ≠ [] := by
  induction h with
  | identifier | literal => exact List.cons_ne_nil _ _
  | unary _ _ _ _ ih => exact ih
  | binary _ _ _ _ _ _ ih _ => exact List.append_ne_nil_of_left_ne_nil ih _
  | conditional _ _ _ _ _ _ ih _ _ =>
    exact List.append_ne_nil_of_left_ne_nil (List.append_ne_nil_of_left_ne_nil ih _) _
  | compound _ _ _ _ _ _ ih _ => exact List.append_ne_nil_of_left_ne_nil ih _
  | assignment => exact List.cons_ne_nil _ _

/-- Whatever is in a printable expression is a hole or printable too. -/
theorem Printable.of_mem_children {c e : Expr} (h : Printable options e) (hc : c ∈ e.children) :
    c = .hole ∨ Printable options c := by
  cases h with
  | identifier | literal => exact absurd hc List.not_mem_nil
  | unary _ _ argument h => exact Or.inr (List.mem_singleton.mp hc ▸ h)
  | binary _ _ left right hl hr =>
    rcases List.mem_pair.mp hc with rfl | rfl
    · exact Or.inr hl
    · exact Or.inr hr
  | conditional e₁ e₂ e₃ h₁ h₂ h₃ =>
    rcases List.mem_cons.mp hc with rfl | hc
    · exact Or.inr h₁
    rcases List.mem_pair.mp hc with rfl | rfl
    · exact Or.inr h₂
    · exact Or.inr h₃
  | compound first h leaves h' =>
    rcases List.mem_cons.mp hc with rfl | hc
    · exact Or.inr h
    · exact or_iff_not_imp_left.mpr (h' c hc)
  | assignment _ name span hname value hv =>
    rcases List.mem_pair.mp hc with rfl | rfl
    · exact Or.inr (.identifier name span hname)
    · exact Or.inr hv

theorem Printable.of_within {n e : Expr} (hn : Expr.Within n e)
    (h : e = .hole ∨ Printable options e) :
    n = .hole ∨ Printable options n := by
  induction hn with
  | refl => exact h
  | child hc _ ih =>
    refine ih ?_
    rcases h with rfl | h
    · exact absurd hc List.not_mem_nil
    · exact h.of_mem_children hc

/-! ### The leaves of a text -/

/-- A leaf has the span of a token of its kind, and the text reads there what the leaf says. -/
inductive WrittenAs (text : List Char) : Expr → Token → Prop
  | identifier (t : Token) (hk : t.kind = .identifier) (name : String)
    (h : t.span.Covers text name.toList) :
    WrittenAs text (.identifier name t.span) t
  | literal (t : Token) (value : LiteralValue) (hk : t.kind.label = value.label) (raw : String)
    (h : t.span.Covers text raw.toList) :
    WrittenAs text (.literal value raw t.span) t

theorem StandsIn.covers {t : Token} {text : List Char} (h : t.StandsIn [] text) :
    t.span.Covers text t.text.toList := by
  obtain ⟨front, behind, rfl, hstands⟩ := h
  exact ⟨front, behind, rfl, hstands.span⟩

section Segments

variable {index : LineIndex} {offset : Nat} {before : Option Char} {text rest : List Char}
  {s : Segment} {t : Token} (hs : (lexer options).segment? before rest = some s)
  (ht : Classifier.token index offset s = .ok t)

include hs ht

theorem textValue_of_identifier (hk : t.kind = .identifier) : t.textValue = t.text := by
  have htoken := Classifier.isTokenOf_of_token ht
  have hkind : s.kind = .identifier := htoken.kind ▸ hk
  obtain ⟨c, w, rest, -, -, -, -, rfl⟩ :=
    identifier_segment_iff.mp ((segment_of_kind hs).2.2 hkind)
  rw [Token.textValue, htoken.value TokenKind.noConfusion, htoken.text]
  rfl

/-- A literal is written as its token is, and of the same kind. -/
theorem literal_of_token {value : LiteralValue} {raw : String}
    (hv : literalValue? options t = some (value, raw)) :
    t.kind.label = value.label ∧ raw = t.text := by
  have htoken := Classifier.isTokenOf_of_token ht
  have hv' := hv
  unfold literalValue? at hv'
  cases hk : t.kind with
  | string | null | boolean =>
    rw [hk] at hv'
    obtain ⟨rfl, rfl⟩ := Prod.mk.inj (Option.some.inj hv')
    exact ⟨rfl, rfl⟩
  | number =>
    rw [hk] at hv'
    obtain ⟨x, -, hx⟩ := Option.map_eq_some_iff.mp hv'
    obtain ⟨rfl, rfl⟩ := Prod.mk.inj hx
    exact ⟨rfl, rfl⟩
  | regex =>
    refine ⟨?_, raw_of_regex hs htoken (htoken.kind ▸ hk) hv⟩
    rw [hk] at hv'
    by_cases hr : options.regexLiterals = true
    · rw [if_pos hr] at hv'
      obtain ⟨pattern, -, hpattern⟩ := Option.map_eq_some_iff.mp hv'
      obtain ⟨rfl, -⟩ := Prod.mk.inj hpattern
      rfl
    · simp [hr] at hv'
  | _ =>
    rw [hk] at hv'
    simp at hv'

theorem LeafOf.writtenAs {leaf : Expr} (h : LeafOf options leaf t) (hstands : t.StandsIn [] text) :
    WrittenAs text leaf t := by
  have hcovers := StandsIn.covers hstands
  rcases h with ⟨_, hk⟩ | ⟨_, value, raw, hv⟩
  · rw [← textValue_of_identifier hs ht hk] at hcovers
    exact .identifier t hk _ hcovers
  · obtain ⟨hk, rfl⟩ := literal_of_token hs ht hv
    exact .literal t value hk _ hcovers

end Segments

section Texts

variable {text : String} {tokens : List Token} {leaves : List Expr} {e : Expr}

theorem Conserves.writtenAs
    (htokens : tokenize ⟨options, lexer options⟩ text = .ok tokens)
    (h : Conserves options leaves tokens) :
    List.Forall₂ (WrittenAs text.toList) leaves (operandTokens tokens) := by
  obtain ⟨hstands, -⟩ := Classifier.standsIn_of_tokenize htokens
  obtain ⟨hlength, hleaves⟩ := List.forall₂_iff_zip.mp h
  refine List.forall₂_iff_zip.mpr ⟨hlength, fun hzip => ?_⟩
  have hmem := (List.mem_filter.mp (List.of_mem_zip hzip).2).1
  obtain ⟨_, _, s, _, hs, ht⟩ := exists_segment_of_mem htokens hmem
  exact (hleaves hzip).writtenAs hs ht (hstands _ hmem)

/-- The leaves have the spans of these tokens. -/
theorem Conserves.leafSpans_eq (h : Conserves options e.leaves tokens) :
    e.leafSpans = (operandTokens tokens).map Token.span := by
  have hspans : e.leaves.map Expr.span? = (operandTokens tokens).map fun t => some t.span := by
    refine List.forall₂_eq_eq_eq ▸ (List.forall₂_map_left_iff.mpr
      (List.forall₂_map_right_iff.mpr (h.imp ?_)))
    rintro leaf t (_ | _) <;> rfl
  rw [Expr.map_span?_leaves] at hspans
  refine List.map_injective_iff.mpr (Option.some_injective _) (hspans.trans ?_)
  exact (List.map_map ..).symm

/-- The spans of the leaves of a text follow one another, and none is empty. -/
theorem Conserves.pairwise (htokens : tokenize ⟨options, lexer options⟩ text = .ok tokens)
    (h : Conserves options e.leaves tokens) :
    e.leafSpans.Pairwise Span.Before ∧ ∀ s ∈ e.leafSpans, s.start < s.stop := by
  obtain ⟨hstands, hpairs⟩ := Classifier.standsIn_of_tokenize htokens
  rw [h.leafSpans_eq]
  refine ⟨List.pairwise_map.mpr (hpairs.sublist List.filter_sublist), fun s hs => ?_⟩
  obtain ⟨t, ht, rfl⟩ := List.mem_map.mp hs
  obtain ⟨_, _, _, htoken⟩ := hstands t (List.mem_filter.mp ht).1
  exact htoken.start_lt_stop

end Texts

/-- For options without a fault, an expression that was made of a text has the tokens that stand for
something as its leaves, in their order. Each leaf is written as its token is and stands where it
stands, and they follow one another; everything in the expression but the holes has a span, which
goes from its first leaf to its last and covers what it is put together of, in order. -/
theorem leaves_conserved (h : options.validate = .ok options) :
    ∃ grammar, ofOptions options = .ok grammar ∧ ∀ text e, grammar.parse text = .ok e →
      ∃ tokens, grammar.tokenize text = .ok tokens ∧
        List.Forall₂ (WrittenAs text.toList) e.leaves (operandTokens tokens) ∧
        (e.leaves.Pairwise fun x y => ∀ s ∈ x.span?, ∀ t ∈ y.span?,
          s.start < t.start ∧ s.stop ≤ t.start) ∧
        ∀ n, Expr.Within n e → n ≠ .hole → n.Spanned := by
  have hfault := (GrammarOptions.fault?_of_validate h).1
  have hnodup := GrammarOptions.nodup_of_fault?_eq_none hfault
  refine ⟨_, ofOptions_eq hfault, fun text e hparse => ?_⟩
  obtain ⟨tokens, htokens, hparse⟩ := parse_eq_ok hparse
  obtain ⟨d, -, hderived⟩ := (parseTokens_eq_ok_iff hnodup).mp hparse
  have hconserves := hderived.conserves
  obtain ⟨hpairs, hlt⟩ := hconserves.pairwise htokens
  obtain ⟨-, hwritten⟩ := written_of_tokens (Joined.of_before rfl) htokens
  refine ⟨tokens, htokens, hconserves.writtenAs htokens, ?_, fun n hn hne => ?_⟩
  · have hsome : (e.leafSpans.map some).Pairwise fun o o' => ∀ s ∈ o, ∀ t ∈ o',
        s.start < t.start ∧ s.stop ≤ t.start := by
      refine List.pairwise_map.mpr (hpairs.imp_of_mem ?_)
      intro a b ha _ hab s hs t ht
      obtain rfl := Option.some.inj hs
      obtain rfl := Option.some.inj ht
      exact ⟨Nat.lt_of_lt_of_le (hlt a ha) hab, hab⟩
    rw [← Expr.map_span?_leaves] at hsome
    exact List.pairwise_map.mp hsome
  · have hprintable : Printable options n :=
      (Printable.of_within hn (Or.inr (hderived.printable hwritten))).resolve_left hne
    have hsub := hn.leafSpans_sublist
    exact Expr.spanned_of_pairwise hprintable.leaves_ne_nil (hpairs.sublist hsub)
      fun s hs => Nat.le_of_lt (hlt s (hsub.subset hs))

theorem conjunction_leaves_conserved : GrammarOptions.standard.validate = .ok .standard ∧
    ∃ grammar, ofOptions .standard = .ok grammar ∧ ∃ e tokens,
      grammar.parse "x AND x AND x" = .ok e ∧ grammar.tokenize "x AND x AND x" = .ok tokens ∧
      List.Forall₂ (WrittenAs "x AND x AND x".toList) e.leaves (operandTokens tokens) ∧
      (e.leaves.Pairwise fun x y => ∀ s ∈ x.span?, ∀ t ∈ y.span?,
        s.start < t.start ∧ s.stop ≤ t.start) ∧
      ∀ n, Expr.Within n e → n ≠ .hole → n.Spanned := by
  have hop : BinaryOperator.and ∈ GrammarOptions.standard.precedence.flatten := by decide
  obtain ⟨e, hparse, -⟩ := chain_parses rfl hop name_reparses (Nat.zero_le _) 2
  have hvalidate : GrammarOptions.standard.validate = .ok .standard := rfl
  obtain ⟨grammar, hgrammar, hconserved⟩ := leaves_conserved hvalidate
  obtain rfl := Except.ok.inj ((ofOptions_eq rfl).symm.trans hgrammar)
  obtain ⟨tokens, htokens, hleaves⟩ := hconserved _ e hparse
  exact ⟨hvalidate, _, hgrammar, e, tokens, hparse, htokens, hleaves⟩

end Grammar

end Precedence
