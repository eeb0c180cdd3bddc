import Mathlib.Data.List.Chain
import Precedence.Proofs.Grammar.Completeness

/-!
# Which tokens stand side by side

Whatever a grammar derives, its verbatim tokens are brackets, commas, marks and operators of its
table (`verbatimTexts`), and behind an identifier or a literal comes, if anything, a verbatim token
that can follow an operand (`Compound.adjoins`).
-/

namespace Precedence

namespace Grammar

variable {options : GrammarOptions}

/-- What can follow an operand. -/
def followers (options : GrammarOptions) : List String :=
  [")", ",", "=", "?", ":"] ++ options.precedence.flatten.map BinaryOperator.symbol

/-- What can be a verbatim token of a program. -/
def verbatimTexts (options : GrammarOptions) : List String :=
  "(" :: (followers options ++ options.unaryOperators.map UnaryOperator.symbol)

/-- A verbatim token that can follow an operand. -/
def IsFollower (options : GrammarOptions) (t : Token) : Prop :=
  t.kind = .verbatim ∧ t.text ∈ followers options

/-- Tokens that can stand side by side in a program. -/
structure Adjoins (options : GrammarOptions) (ts : List Token) : Prop where
  verbatim : ∀ t ∈ ts, t.kind = .verbatim → t.text ∈ verbatimTexts options
  next : ts.IsChain fun t u => t.kind ≠ .verbatim → IsFollower options u

theorem mem_verbatimTexts_of_follower {text : String} (h : text ∈ followers options) :
    text ∈ verbatimTexts options :=
  List.mem_cons_of_mem _ (List.mem_append_left _ h)

theorem symbol_mem_followers {k : Nat} {op : BinaryOperator} (h : op ∈ operatorsAt options k) :
    op.symbol ∈ followers options := by
  refine List.mem_append_right _ (List.mem_map_of_mem (List.mem_flatten.mpr ⟨_, ?_, h⟩))
  rcases hk : options.precedence[k]? with _ | level
  · simp [operatorsAt, List.getD, hk] at h
  · simpa [operatorsAt, List.getD, hk] using List.mem_of_getElem? hk

theorem unary_mem_verbatimTexts {op : UnaryOperator} (h : op ∈ options.unaryOperators) :
    op.symbol ∈ verbatimTexts options :=
  List.mem_cons_of_mem _ (List.mem_append_right _ (List.mem_map_of_mem h))

theorem isFollower_of_isVerbatim {t : Token} {text : String} (h : t.IsVerbatim text)
    (htext : text ∈ followers options) : IsFollower options t :=
  ⟨h.1, h.2 ▸ htext⟩

theorem kind_of_literalValue? {t : Token} {v : LiteralValue × String}
    (h : literalValue? options t = some v) : t.kind ≠ .verbatim := by
  intro hk
  simp [literalValue?, hk] at h

theorem Adjoins.nil : Adjoins options [] where
  verbatim _ ht := absurd ht List.not_mem_nil
  next := .nil

theorem Adjoins.leaf {t : Token} (h : t.kind ≠ .verbatim) : Adjoins options [t] where
  verbatim _ hu hk := absurd (List.mem_singleton.mp hu ▸ hk) h
  next := .singleton t

theorem Adjoins.mark {t : Token} {text : String} {ts : List Token} (ht : t.IsVerbatim text)
    (htext : text ∈ verbatimTexts options) (h : Adjoins options ts) :
    Adjoins options (t :: ts) where
  verbatim u hu hk := by
    rcases List.mem_cons.mp hu with rfl | hu
    · exact ht.2 ▸ htext
    · exact h.verbatim u hu hk
  next := List.isChain_cons.mpr ⟨fun _ _ hk => absurd ht.1 hk, h.next⟩

theorem Adjoins.marks {text : String} {ts : List Token} (htext : text ∈ verbatimTexts options)
    (h : Adjoins options ts) : ∀ {marks : List Token}, (∀ t ∈ marks, t.IsVerbatim text) →
      Adjoins options (marks ++ ts)
  | [], _ => h
  | t :: _, hmarks => by
    have hrest := h.marks htext fun u hu => hmarks u (List.mem_cons_of_mem t hu)
    exact hrest.mark (hmarks t List.mem_cons_self) htext

theorem Adjoins.append {ts us : List Token} (h : Adjoins options ts) (h' : Adjoins options us)
    (hhead : ∀ u ∈ us.head?, IsFollower options u) : Adjoins options (ts ++ us) where
  verbatim t ht hk := by
    rcases List.mem_append.mp ht with ht | ht
    · exact h.verbatim t ht hk
    · exact h'.verbatim t ht hk
  next := List.isChain_append.mpr ⟨h.next, h'.next, fun _ _ u hu _ => hhead u hu⟩

theorem Adjoins.of_append {ts us : List Token} (h : Adjoins options (ts ++ us)) :
    Adjoins options us where
  verbatim t ht := h.verbatim t (List.mem_append_right ts ht)
  next := h.next.right_of_append

theorem Operands.head {k d : Nat} {ts : List Token} {operands : List (BinaryOperator × Expr)}
    (h : Operands options k d ts operands) : ∀ u ∈ ts.head?, IsFollower options u := by
  cases h with
  | nil => exact fun _ hu => absurd hu (Option.not_mem_none _)
  | cons _ t op hop ht =>
    intro u hu
    obtain rfl := Option.some.inj hu
    exact isFollower_of_isVerbatim ht (symbol_mem_followers hop)

theorem Elements.head {place : Place} {d : Nat} {ts : List Token} {es : List Expr}
    (h : Elements options place d ts es) : ∀ u ∈ ts.head?, IsFollower options u := by
  cases h with
  | nil => exact fun _ hu => absurd hu (Option.not_mem_none _)
  | cons _ comma hc =>
    intro u hu
    obtain rfl := Option.some.inj hu
    exact isFollower_of_isVerbatim hc (by simp [followers])

theorem mark_mem_followers {text : String} (h : text ∈ [")", ",", "=", "?", ":"]) :
    text ∈ followers options :=
  List.mem_append_left _ h

/-- A mark between two rows. -/
theorem Adjoins.between {ts us : List Token} {t : Token} {text : String} (h : Adjoins options ts)
    (ht : t.IsVerbatim text) (htext : text ∈ followers options) (h' : Adjoins options us) :
    Adjoins options (ts ++ t :: us) := by
  refine h.append (h'.mark ht (mem_verbatimTexts_of_follower htext)) fun u hu => ?_
  obtain rfl := Option.some.inj hu
  exact isFollower_of_isVerbatim ht htext

mutual

theorem Primary.adjoins : ∀ {d : Nat} {ts : List Token} {e : Expr}, Primary options d ts e →
    Adjoins options ts
  | _, _, _, .identifier t hk => .leaf (by rw [hk]; decide)
  | _, _, _, .literal t _ _ hv => .leaf (kind_of_literalValue? hv)
  | _, _, _, .group _ _ hl hr _ _ _ h =>
    (h.adjoins.between hr (mark_mem_followers (by simp)) .nil).mark hl List.mem_cons_self

theorem Unary.adjoins : ∀ {d : Nat} {ts : List Token} {e : Expr}, Unary options d ts e →
    Adjoins options ts
  | _, _, _, .primary _ _ _ h => h.adjoins
  | _, _, _, .apply _ _ hop ht _ _ _ h => h.adjoins.mark ht (unary_mem_verbatimTexts hop)

theorem Level.adjoins : ∀ {k d : Nat} {ts : List Token} {e : Expr}, Level options k d ts e →
    Adjoins options ts
  | _, _, _, _, .unary _ _ _ h => h.adjoins
  | _, _, _, _, .chain _ _ _ _ h _ _ _ h' => h.adjoins.append h'.adjoins h'.head

theorem Operands.adjoins : ∀ {k d : Nat} {ts : List Token}
    {operands : List (BinaryOperator × Expr)}, Operands options k d ts operands → Adjoins options ts
  | _, _, _, _, .nil _ => .nil
  | _, _, _, _, .cons _ _ _ hop ht _ _ _ h _ _ _ h' =>
    (h.adjoins.append h'.adjoins h'.head).mark ht
      (mem_verbatimTexts_of_follower (symbol_mem_followers hop))

theorem Expression.adjoins : ∀ {d : Nat} {ts : List Token} {e : Expr},
    Expression options d ts e → Adjoins options ts
  | _, _, _, .test _ _ _ h => h.adjoins
  | _, _, _, .conditional _ _ hq hc _ _ _ _ _ _ _ _ _ h₁ h₂ h₃ =>
    h₁.adjoins.between hq (mark_mem_followers (by simp))
      (h₂.adjoins.between hc (mark_mem_followers (by simp)) h₃.adjoins)

theorem Assignable.adjoins : ∀ {place : Place} {d : Nat} {ts : List Token} {e : Expr},
    Assignable options place d ts e → Adjoins options ts
  | _, _, _, _, .expression _ _ _ _ h => h.adjoins
  | _, _, _, _, .assignment _ _ _ _ hk he _ _ _ h =>
    (Adjoins.leaf (by rw [hk]; decide)).between he (mark_mem_followers (by simp)) h.adjoins

theorem Elements.adjoins : ∀ {place : Place} {d : Nat} {ts : List Token} {es : List Expr},
    Elements options place d ts es → Adjoins options ts
  | _, _, _, _, .nil _ => .nil
  | _, _, _, _, .cons _ _ hc _ hcs _ _ _ h _ _ _ h' =>
    have hcomma : "," ∈ verbatimTexts options :=
      mem_verbatimTexts_of_follower (mark_mem_followers (by simp))
    ((h.adjoins.append h'.adjoins h'.head).marks hcomma hcs).mark hc hcomma

/-- What is derived adjoins. -/
theorem Compound.adjoins : ∀ {place : Place} {d : Nat} {ts : List Token} {e : Expr},
    Compound options place d ts e → Adjoins options ts
  | _, _, _, _, .elements _ _ _ _ h _ _ _ h' => h.adjoins.append h'.adjoins h'.head

end

/-! ### The texts under all options -/

/-- What can follow an operand under some options. -/
def allFollowers : List String :=
  [")", ",", "=", "?", ":"] ++ BinaryOperator.all.map BinaryOperator.symbol

/-- What can be a verbatim token under some options. -/
def allVerbatimTexts : List String :=
  "(" :: (allFollowers ++ UnaryOperator.all.map UnaryOperator.symbol)

theorem followers_subset : followers options ⊆ allFollowers := by
  have hall : ∀ op : BinaryOperator, op ∈ BinaryOperator.all := fun op => by cases op <;> decide
  intro text h
  rcases List.mem_append.mp h with h | h
  · exact List.mem_append_left _ h
  · obtain ⟨op, -, rfl⟩ := List.mem_map.mp h
    exact List.mem_append_right _ (List.mem_map_of_mem (hall op))

theorem verbatimTexts_subset : verbatimTexts options ⊆ allVerbatimTexts := by
  have hall : ∀ op : UnaryOperator, op ∈ UnaryOperator.all := fun op => by cases op <;> decide
  intro text h
  rcases List.mem_cons.mp h with rfl | h
  · exact List.mem_cons_self
  refine List.mem_cons_of_mem _ ?_
  rcases List.mem_append.mp h with h | h
  · exact List.mem_append_left _ (followers_subset h)
  · obtain ⟨op, -, rfl⟩ := List.mem_map.mp h
    exact List.mem_append_right _ (List.mem_map_of_mem (hall op))

/-- A slash is a verbatim token only as the operator. -/
theorem divide_of_slash (h : "/" ∈ verbatimTexts options) :
    BinaryOperator.divide ∈ options.precedence.flatten := by
  have hbinary : ∀ op : BinaryOperator, op.symbol = "/" → op = .divide := fun op => by
    cases op <;> decide
  have hunary : ∀ op : UnaryOperator, op.symbol ≠ "/" := fun op => by cases op <;> decide
  simp only [verbatimTexts, followers, List.mem_cons, List.mem_append, List.mem_map,
    List.not_mem_nil, or_false] at h
  rcases h with h | (h | ⟨op, hop, h⟩) | ⟨op, -, h⟩
  · exact absurd h (by decide)
  · exact absurd h (by decide)
  · exact hbinary op h ▸ hop
  · exact absurd h (hunary op)

end Grammar

end Precedence
