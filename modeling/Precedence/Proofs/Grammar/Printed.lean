import Precedence.Proofs.Grammar.Splitting

/-!
# The expression of a text is printable

The leaves of an expression that was derived from the tokens of a text are kept in print, and its
operators are those of the grammar (`Compound.printable`). The derivation says no more of how it was
written: parentheses that it did not need are gone.
-/

namespace Precedence

namespace Grammar

open Text

variable {options : GrammarOptions}

/-- An expression that a grammar can have made of a text. -/
inductive Printable (options : GrammarOptions) : Expr → Prop
  | identifier (name : String) (span : Span)
    (h : PrintsAs options (fun t => t.kind = .identifier ∧ t.textValue = name) name.toList) :
    Printable options (.identifier name span)
  | literal (value : LiteralValue) (raw : String) (span : Span)
    (h : Closed value raw →
      PrintsAs options (fun t => literalValue? options t = some (value, raw)) raw.toList) :
    Printable options (.literal value raw span)
  | unary (op : UnaryOperator) (hop : op ∈ options.unaryOperators) (e : Expr)
    (h : Printable options e) :
    Printable options (.unary op e)
  | binary (op : BinaryOperator) (hop : op ∈ options.precedence.flatten) (left right : Expr)
    (hl : Printable options left) (hr : Printable options right) :
    Printable options (.binary op left right)
  | conditional (e₁ e₂ e₃ : Expr) (h₁ : Printable options e₁) (h₂ : Printable options e₂)
    (h₃ : Printable options e₃) :
    Printable options (.conditional e₁ e₂ e₃)
  | compound (first : Expr) (h : Printable options first) (leaves : List Expr)
    (h' : ∀ leaf ∈ leaves, leaf ≠ .hole → Printable options leaf)
    (hne : leaves ≠ []) (hlast : leaves.getLast? ≠ some .hole) :
    Printable options (.compound (first :: leaves))
  | assignment (ha : options.assignments) (name : String) (span : Span)
    (h : PrintsAs options (fun t => t.kind = .identifier ∧ t.textValue = name) name.toList)
    (value : Expr) (hv : Printable options value) :
    Printable options (.assignment (.identifier name span) value)

theorem Printable.ne_hole {e : Expr} (h : Printable options e) : e ≠ .hole := by
  rintro rfl
  cases h

/-! ### The expression of a text is printable -/

section Derivations

variable {options : GrammarOptions}

theorem applyAll_printable : ∀ {operands : List (BinaryOperator × Expr)} {left : Expr},
    Printable options left →
      (∀ p ∈ operands, p.1 ∈ options.precedence.flatten ∧ Printable options p.2) →
      Printable options (applyAll left operands)
  | [], _, h, _ => h
  | (op, right) :: operands, left, h, h' => by
    obtain ⟨hop, hright⟩ := h' (op, right) List.mem_cons_self
    have ih : Printable options (applyAll (.binary op left right) operands) :=
      applyAll_printable (.binary op hop left right h hright)
        fun p hp => h' p (List.mem_cons_of_mem _ hp)
    exact ih

theorem gather_printable {first : Expr} {leaves : List Expr} (h : Printable options first)
    (h' : ∀ leaf ∈ leaves, leaf ≠ .hole → Printable options leaf)
    (hlast : leaves.getLast? ≠ some .hole) : Printable options (gather first leaves) := by
  rcases leaves with _ | ⟨leaf, leaves⟩
  · exact h
  · exact .compound first h _ h' (List.cons_ne_nil _ _) hlast

theorem mem_flatten_of_operatorsAt {k : Nat} {op : BinaryOperator}
    (h : op ∈ operatorsAt options k) : op ∈ options.precedence.flatten := by
  unfold operatorsAt at h
  rw [List.getD_eq_getElem?_getD] at h
  rcases hk : options.precedence[k]? with _ | level
  · simp [hk] at h
  · rw [hk] at h
    exact List.mem_flatten.mpr ⟨level, List.mem_of_getElem? hk, h⟩

mutual

theorem Primary.printable : ∀ {d : Nat} {ts : List Token} {e : Expr}, Primary options d ts e →
    (∀ t ∈ ts, Written options t) → Printable options e
  | _, _, _, .identifier _ hk, hw => .identifier _ _ ((hw _ List.mem_cons_self).identifier hk)
  | _, _, _, .literal _ value raw hv, hw =>
    .literal _ _ _ ((hw _ List.mem_cons_self).literal value raw hv)
  | _, _, _, .group _ _ _ _ _ _ _ h, hw =>
    h.printable fun t ht => hw t (List.mem_cons_of_mem _ (List.mem_append_left _ ht))

theorem Unary.printable : ∀ {d : Nat} {ts : List Token} {e : Expr}, Unary options d ts e →
    (∀ t ∈ ts, Written options t) → Printable options e
  | _, _, _, .primary _ _ _ h, hw => h.printable hw
  | _, _, _, .apply _ op hop _ _ _ _ h, hw =>
    .unary op hop _ (h.printable fun t ht => hw t (List.mem_cons_of_mem _ ht))

theorem Level.printable : ∀ {k d : Nat} {ts : List Token} {e : Expr}, Level options k d ts e →
    (∀ t ∈ ts, Written options t) → Printable options e
  | _, _, _, _, .unary _ _ _ h, hw => h.printable hw
  | _, _, _, _, .chain _ _ _ _ h _ _ _ h', hw =>
    applyAll_printable (h.printable fun t ht => hw t (List.mem_append_left _ ht))
      (h'.printable fun t ht => hw t (List.mem_append_right _ ht))

theorem Operands.printable : ∀ {k d : Nat} {ts : List Token}
    {operands : List (BinaryOperator × Expr)}, Operands options k d ts operands →
    (∀ t ∈ ts, Written options t) →
      ∀ p ∈ operands, p.1 ∈ options.precedence.flatten ∧ Printable options p.2
  | _, _, _, _, .nil _, _, p, hp => absurd hp List.not_mem_nil
  | _, _, _, _, .cons _ _ op hop _ _ _ right h _ _ _ h', hw, p, hp => by
    have hright := h.printable fun t ht =>
      hw t (List.mem_cons_of_mem _ (List.mem_append_left _ ht))
    have hrest := h'.printable fun t ht =>
      hw t (List.mem_cons_of_mem _ (List.mem_append_right _ ht))
    rcases List.mem_cons.mp hp with rfl | hp
    · exact ⟨mem_flatten_of_operatorsAt hop, hright⟩
    · exact hrest p hp

theorem Expression.printable : ∀ {d : Nat} {ts : List Token} {e : Expr},
    Expression options d ts e → (∀ t ∈ ts, Written options t) → Printable options e
  | _, _, _, .test _ _ _ h, hw => h.printable hw
  | _, _, _, .conditional _ _ _ _ _ _ _ _ _ _ _ _ _ h₁ h₂ h₃, hw => by
    refine .conditional _ _ _ (h₁.printable fun t ht => hw t ?_)
      (h₂.printable fun t ht => hw t ?_) (h₃.printable fun t ht => hw t ?_)
    all_goals simp [ht]

theorem Assignable.printable : ∀ {place : Place} {d : Nat} {ts : List Token} {e : Expr},
    Assignable options place d ts e → (∀ t ∈ ts, Written options t) → Printable options e
  | _, _, _, _, .expression _ _ _ _ h, hw => h.printable hw
  | _, _, _, _, .assignment _ ha t _ hk _ _ _ _ h, hw =>
    .assignment ha _ _ ((hw t List.mem_cons_self).identifier hk) _ (h.printable fun t ht =>
      hw t (List.mem_cons_of_mem _ (List.mem_cons_of_mem _ ht)))

/-- The last of the elements is none of the holes. -/
theorem Elements.printable : ∀ {place : Place} {d : Nat} {ts : List Token} {es : List Expr},
    Elements options place d ts es → (∀ t ∈ ts, Written options t) →
      (∀ leaf ∈ es, leaf ≠ .hole → Printable options leaf) ∧ es.getLast? ≠ some .hole
  | _, _, _, _, .nil _, _ => by simp
  | _, _, _, _, .cons _ comma _ commas _ _ ts e h _ us es h', hw => by
    have he := h.printable fun t ht => hw t (by simp [ht])
    obtain ⟨hes, hlast⟩ := h'.printable fun t ht => hw t (by simp [ht])
    refine ⟨fun leaf hleaf hne => ?_, ?_⟩
    · rcases List.mem_append.mp hleaf with hleaf | hleaf
      · exact absurd (List.eq_of_mem_replicate hleaf) hne
      · rcases List.mem_cons.mp hleaf with rfl | hleaf
        · exact he
        · exact hes leaf hleaf hne
    · rw [List.getLast?_append, List.getLast?_cons, Option.some_or]
      rcases hes' : es.getLast? with _ | last
      · exact fun h => he.ne_hole (Option.some.inj h)
      · exact hes' ▸ hlast

theorem Compound.printable : ∀ {place : Place} {d : Nat} {ts : List Token} {e : Expr},
    Compound options place d ts e → (∀ t ∈ ts, Written options t) → Printable options e
  | _, _, _, _, .elements _ _ _ _ h _ _ _ h', hw => by
    obtain ⟨hes, hlast⟩ := h'.printable fun t ht => hw t (List.mem_append_right _ ht)
    exact gather_printable (h.printable fun t ht => hw t (List.mem_append_left _ ht)) hes hlast

end

end Derivations

end Grammar

end Precedence
