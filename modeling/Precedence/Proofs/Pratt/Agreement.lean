import Precedence.Proofs.Grammar.Chains
import Precedence.Proofs.Pratt.Binding

/-!
# The two parsers agree on arithmetic

On names, literals, four operators between operands, four in front of one, and parentheses, a grammar
with the levels of the standard table derives what the Pratt parser binds. A derivation has a tree
with groups whose term has the same shape as the derived expression (`Compound.exists_tree`), and what
is spelled by such a tree is derived (`Tree.derives`). So apart from their nesting limits both parsers
accept the same rows, and give trees of the same shape (`designs_agree`).
-/

namespace Precedence

open Grammar Text

namespace Pratt

/-- Products over sums, with operators of the standard table in front of operands. -/
def arithmetic (assignments : Bool) (strategy : Strategy) : GrammarOptions where
  precedence := [[.multiply, .divide], [.add, .subtract]]
  unaryOperators := [.plus, .minus, .logicalNot, .bitNot]
  regexLiterals := false
  assignments := assignments
  strategy := strategy

/-- The operators and the parentheses. -/
def marks : List String :=
  ["+", "-", "*", "/", "!", "~", "(", ")"]

/-- A name, a finite number, a text, an operator or a parenthesis. -/
def IsArithmetic (t : Token) : Prop :=
  t.kind = .identifier ∨
  (t.kind = .number ∧ ∃ x, t.value = .number x ∧ x.isFinite) ∨
  (t.kind = .string ∧ ∃ s, t.value = .text s) ∨
  (t.kind = .verbatim ∧ t.text ∈ marks)

/-- The expression and the term have the same operators over leaves that are made of the same
tokens, and these are all the tokens but those of groups. -/
inductive SameShape : List Token → Expr → Term → Prop
  | name (t : Token) (hk : t.kind = .identifier) :
    SameShape [t] (.identifier t.textValue t.span) (.name t.text)
  | number (t : Token) (hk : t.kind = .number) (x : Number.Binary64) (hx : t.value = .number x) :
    SameShape [t] (.literal (.number x) t.text t.span) (.number x t.text)
  | string (t : Token) (hk : t.kind = .string) (s : String) (hs : t.value = .text s) :
    SameShape [t] (.literal (.string (String.ofList (unescape s.toList))) t.text t.span) (.string s)
  | prefixed (t : Token) (op : UnaryOperator) (symbol : Symbol) (hop : t.IsVerbatim op.symbol)
    (hsymbol : symbol.text? = some op.symbol) (ts : List Token) (e : Expr) (term : Term)
    (h : SameShape ts e term) :
    SameShape (t :: ts) (.unary op e) (.prefixed symbol term)
  | operation (t : Token) (op : BinaryOperator) (symbol : Symbol) (hop : t.IsVerbatim op.symbol)
    (hsymbol : symbol.text? = some op.symbol) (ts us : List Token) (left right : Expr)
    (left' right' : Term) (h : SameShape ts left left') (h' : SameShape us right right') :
    SameShape (ts ++ t :: us) (.binary op left right) (.operation left' symbol right')
  | group (opener closer : Token) (ho : opener.IsVerbatim "(") (hc : closer.IsVerbatim ")")
    (ts : List Token) (e : Expr) (term : Term) (h : SameShape ts e term) :
    SameShape (opener :: (ts ++ [closer])) e term

/-! ### Arithmetic tokens -/

section Tokens

variable {t : Token} {s : Symbol}

/-- The symbol of an arithmetic token, and what it says of the token. -/
inductive Reading (t : Token) : Symbol → Prop
  | name (hk : t.kind = .identifier) : Reading t .name
  | number (hk : t.kind = .number) (x : Number.Binary64) (hx : t.value = .number x)
    (hfinite : x.isFinite) : Reading t .number
  | string (hk : t.kind = .string) (s : String) (hs : t.value = .text s) : Reading t .string
  | mark (symbol : Symbol) (text : String) (ht : t.IsVerbatim text) (hmark : text ∈ marks)
    (hsymbol : symbol.text? = some text) : Reading t symbol

theorem ofToken_of_isVerbatim {text : String} (h : t.IsVerbatim text)
    (hs : Symbol.ofText? text = some s) : Symbol.ofToken t = .ok s := by
  obtain ⟨hk, rfl⟩ := h
  simp only [Symbol.ofToken, hk, hs]

theorem IsArithmetic.exists_reading (h : IsArithmetic t) :
    ∃ s, Symbol.ofToken t = .ok s ∧ Reading t s := by
  rcases h with hk | ⟨hk, x, hx, hfinite⟩ | ⟨hk, v, hv⟩ | ⟨hk, htext⟩
  · exact ⟨.name, by simp only [Symbol.ofToken, hk], .name hk⟩
  · exact ⟨.number, by simp only [Symbol.ofToken, hk], .number hk x hx hfinite⟩
  · exact ⟨.string, by simp only [Symbol.ofToken, hk], .string hk v hv⟩
  · have hmark : ∀ s, Symbol.ofText? t.text = some s → s.text? = some t.text →
        ∃ s, Symbol.ofToken t = .ok s ∧ Reading t s := fun s hs hsymbol =>
      ⟨s, ofToken_of_isVerbatim ⟨hk, rfl⟩ hs, .mark s t.text ⟨hk, rfl⟩ htext hsymbol⟩
    have hcases := htext
    simp only [marks, List.mem_cons, List.not_mem_nil, or_false] at hcases
    rcases hcases with ht | ht | ht | ht | ht | ht | ht | ht <;> rw [ht] at hmark
    · exact hmark .plus rfl rfl
    · exact hmark .minus rfl rfl
    · exact hmark .star rfl rfl
    · exact hmark .slash rfl rfl
    · exact hmark .bang rfl rfl
    · exact hmark .tilde rfl rfl
    · exact hmark .leftParen rfl rfl
    · exact hmark .rightParen rfl rfl

theorem isVerbatim_of_reading {text : String} (hs : Reading t s) (htext : s.text? = some text) :
    t.IsVerbatim text := by
  cases hs with
  | name | number | string => cases htext
  | mark _ text' ht _ htext' =>
    obtain rfl := Option.some.inj (htext'.symm.trans htext)
    exact ht

end Tokens

/-! ### Operators of the standard table -/

section Operators

variable {assignments : Bool} {strategy : Strategy} {t : Token} {s : Symbol}

/-- An operator between operands is a symbol that joins as tightly as its level says. -/
theorem exists_joining {k : Nat} {op : BinaryOperator}
    (hop : op ∈ operatorsAt (arithmetic assignments strategy) k) (ht : t.IsVerbatim op.symbol) :
    k ≤ 1 ∧ ∃ s, Symbol.ofToken t = .ok s ∧ s.text? = some op.symbol ∧
      Table.standard.joining? s = some ⟨4 - k, false⟩ := by
  match k, hop with
  | 0, hop =>
    rcases List.mem_cons.mp hop with rfl | hop
    · exact ⟨by decide, .star, ofToken_of_isVerbatim ht rfl, rfl, rfl⟩
    · obtain rfl := List.mem_singleton.mp hop
      exact ⟨by decide, .slash, ofToken_of_isVerbatim ht rfl, rfl, rfl⟩
  | 1, hop =>
    rcases List.mem_cons.mp hop with rfl | hop
    · exact ⟨by decide, .plus, ofToken_of_isVerbatim ht rfl, rfl, rfl⟩
    · obtain rfl := List.mem_singleton.mp hop
      exact ⟨by decide, .minus, ofToken_of_isVerbatim ht rfl, rfl, rfl⟩
  | k + 2, hop => exact absurd hop List.not_mem_nil

theorem operator_of_joining {joining : Joining} (hs : Reading t s)
    (hjoining : Table.standard.joining? s = some joining) :
    ∃ k ≤ 1, joining = ⟨4 - k, false⟩ ∧
      ∃ op ∈ operatorsAt (arithmetic assignments strategy) k, t.IsVerbatim op.symbol := by
  have hsymbol : ∀ {text}, s.text? = some text → t.IsVerbatim text := isVerbatim_of_reading hs
  cases s <;> cases hjoining
  · exact ⟨1, by decide, rfl, .add, by simp [operatorsAt, arithmetic], hsymbol rfl⟩
  · exact ⟨1, by decide, rfl, .subtract, by simp [operatorsAt, arithmetic], hsymbol rfl⟩
  · exact ⟨0, by decide, rfl, .multiply, by simp [operatorsAt, arithmetic], hsymbol rfl⟩
  · exact ⟨0, by decide, rfl, .divide, by simp [operatorsAt, arithmetic], hsymbol rfl⟩

/-- An operator in front of an operand is a symbol that opens an expression as such. -/
theorem exists_operator {op : UnaryOperator}
    (hop : op ∈ (arithmetic assignments strategy).unaryOperators) (ht : t.IsVerbatim op.symbol) :
    ∃ s, Symbol.ofToken t = .ok s ∧ s.text? = some op.symbol ∧
      Table.standard.opening? s = some .operator := by
  simp only [arithmetic, List.mem_cons, List.not_mem_nil, or_false] at hop
  rcases hop with rfl | rfl | rfl | rfl
  · exact ⟨.plus, ofToken_of_isVerbatim ht rfl, rfl, rfl⟩
  · exact ⟨.minus, ofToken_of_isVerbatim ht rfl, rfl, rfl⟩
  · exact ⟨.bang, ofToken_of_isVerbatim ht rfl, rfl, rfl⟩
  · exact ⟨.tilde, ofToken_of_isVerbatim ht rfl, rfl, rfl⟩

theorem operator_of_opening (hs : Reading t s)
    (hopening : Table.standard.opening? s = some .operator) :
    ∃ op ∈ (arithmetic assignments strategy).unaryOperators, t.IsVerbatim op.symbol := by
  have hsymbol : ∀ {text}, s.text? = some text → t.IsVerbatim text := isVerbatim_of_reading hs
  cases s <;> cases hopening
  · exact ⟨.plus, by simp [arithmetic], hsymbol rfl⟩
  · exact ⟨.minus, by simp [arithmetic], hsymbol rfl⟩
  · exact ⟨.bitNot, by simp [arithmetic], hsymbol rfl⟩
  · exact ⟨.logicalNot, by simp [arithmetic], hsymbol rfl⟩

/-- Braces are not arithmetic. -/
theorem group_of_opening {closing : Symbol} (hs : Reading t s)
    (hopening : Table.standard.opening? s = some (.group closing)) :
    t.IsVerbatim "(" ∧ closing = .rightParen := by
  cases s <;> cases hopening
  · exact ⟨isVerbatim_of_reading hs rfl, rfl⟩
  · cases hs with
    | mark _ text ht hmark htext =>
      cases htext
      exact absurd hmark (by decide)

theorem Table.Exceeds.mono {table : Table} {level level' : Nat}
    (h : table.Exceeds level s) (hle : level' ≤ level) : table.Exceeds level' s :=
  let ⟨joining, hjoining, hlt⟩ := h
  ⟨joining, hjoining, Nat.lt_of_le_of_lt hle hlt⟩

end Operators

/-! ### A derivation has a tree -/

/-- The tree is spelled by the tokens of an expression of the levels below `k`, and its term has the
same shape. Operators of level `k` bind as tightly as `4 - k`. -/
structure Mirrors (k : Nat) (ts : List Token) (e : Expr) (tree : Tree) : Prop where
  classifies : Classifies ts tree.signs
  registered : tree.Registered .standard
  spine : ∀ op ∈ tree.spine, Table.standard.Exceeds (4 - k) op.2
  settled : ∀ next : Option Sign, (∀ t ∈ next, ¬ Table.standard.Exceeds (5 - k) t.2) →
    tree.Settled .standard next
  shape : SameShape ts e tree.erase

section Mirrors

variable {assignments : Bool} {strategy : Strategy}

theorem Classifies.append {ts us : List Token} {row row' : List Sign} (h : Classifies ts row)
    (h' : Classifies us row') : Classifies (ts ++ us) (row ++ row') := by
  refine ⟨by rw [List.map_append, h.1, h'.1], fun t ht => ?_⟩
  exact (List.mem_append.mp ht).elim (h.2 t) (h'.2 t)

theorem classifies_single {t : Token} {s : Symbol} (h : Symbol.ofToken t = .ok s) :
    Classifies [t] [(t, s)] :=
  ⟨rfl, by simpa using h⟩

theorem Mirrors.loosen {k : Nat} {ts : List Token} {e : Expr} {tree : Tree}
    (h : Mirrors k ts e tree) : Mirrors (k + 1) ts e tree where
  classifies := h.classifies
  registered := h.registered
  spine op hop := (h.spine op hop).mono (by omega)
  settled next hnext := h.settled next fun t ht hexceeds => hnext t ht (hexceeds.mono (by omega))
  shape := h.shape

/-- One more operand of a chain of level `k`. -/
theorem Mirrors.operation {k : Nat} {ts us : List Token} {left right : Expr} {l r : Tree}
    {t : Token} {op : BinaryOperator}
    (hop : op ∈ operatorsAt (arithmetic assignments strategy) k) (ht : t.IsVerbatim op.symbol)
    (h : Mirrors (k + 1) ts left l) (h' : Mirrors k us right r) :
    ∃ tree, Mirrors (k + 1) (ts ++ t :: us) (.binary op left right) tree := by
  obtain ⟨hk, s, hs, hsymbol, hjoining⟩ := exists_joining hop ht
  have hlevel : ∀ level, Table.standard.Exceeds level s ↔ level < 4 - k := by
    intro level
    simp [Table.Exceeds, hjoining]
  refine ⟨.operation l (t, s) r,
    h.classifies.append ((classifies_single hs).append h'.classifies),
    ⟨by simp [hjoining], h.registered, h'.registered⟩, ?_, ?_,
    .operation t op s ht hsymbol ts us left right _ _ h.shape h'.shape⟩
  · intro op' hop'
    rcases List.mem_cons.mp hop' with rfl | hop'
    · exact (hlevel _).mpr (by omega)
    · exact h.spine op' hop'
  · intro next hnext
    refine ⟨h.settled _ ?_, h'.settled next fun t' ht' hexceeds =>
      hnext t' ht' (hexceeds.mono (by omega)), ?_⟩
    · rintro _ ⟨⟩ hexceeds
      have := (hlevel _).mp hexceeds
      omega
    · intro joining hjoining'
      obtain rfl := Option.some.inj (hjoining.symm.trans hjoining')
      refine ⟨h'.spine, fun t' ht' hexceeds => hnext t' ht' (hexceeds.mono ?_)⟩
      show 5 - (k + 1) ≤ 4 - k
      omega

/-- An expression without operators that are not in groups fits wherever it stands. -/
theorem mirrors_of_closed {ts : List Token} {e : Expr} {tree : Tree}
    (hrow : Classifies ts tree.signs) (hregistered : tree.Registered .standard)
    (hspine : tree.spine = []) (hsettled : ∀ next, tree.Settled .standard next)
    (hshape : SameShape ts e tree.erase) : Mirrors 0 ts e tree where
  classifies := hrow
  registered := hregistered
  spine := by simp [hspine]
  settled next _ := hsettled next
  shape := hshape

theorem mirrors_name {t : Token} (hk : t.kind = .identifier) :
    Mirrors 0 [t] (.identifier t.textValue t.span) (.name (t, .name)) :=
  mirrors_of_closed (classifies_single (by simp only [Symbol.ofToken, hk])) rfl rfl
    (fun _ => trivial) (.name t hk)

theorem mirrors_literal {t : Token} (ht : IsArithmetic t) {value : LiteralValue} {raw : String}
    (hv : literalValue? (arithmetic assignments strategy) t = some (value, raw)) :
    ∃ tree, Mirrors 0 [t] (.literal value raw t.span) tree := by
  rcases ht with hk | ⟨hk, x, hx, hfinite⟩ | ⟨hk, v, hvalue⟩ | ⟨hk, -⟩
  · simp [literalValue?, hk] at hv
  · simp only [literalValue?, hk, finite?, Token.number?, hx, Option.some_or, Option.filter_some,
      hfinite, if_true, Option.map_some, Option.some.injEq, Prod.mk.injEq] at hv
    obtain ⟨rfl, rfl⟩ := hv
    refine ⟨.literal (t, .number), mirrors_of_closed
      (classifies_single (by simp only [Symbol.ofToken, hk])) rfl rfl (fun _ => trivial) ?_⟩
    rw [Tree.erase, hx]
    exact .number t hk x hx
  · simp only [literalValue?, hk, Token.textValue, hvalue, Option.some.injEq, Prod.mk.injEq] at hv
    obtain ⟨rfl, rfl⟩ := hv
    refine ⟨.literal (t, .string), mirrors_of_closed
      (classifies_single (by simp only [Symbol.ofToken, hk])) rfl rfl (fun _ => trivial) ?_⟩
    rw [Tree.erase, hvalue]
    exact .string t hk v hvalue
  · simp [literalValue?, hk] at hv

theorem Mirrors.prefixed {ts : List Token} {e : Expr} {tree : Tree} {t : Token}
    {op : UnaryOperator} (hop : op ∈ (arithmetic assignments strategy).unaryOperators)
    (ht : t.IsVerbatim op.symbol) (h : Mirrors 0 ts e tree) :
    ∃ tree', Mirrors 0 (t :: ts) (.unary op e) tree' := by
  obtain ⟨s, hs, hsymbol, hopening⟩ := exists_operator hop ht
  refine ⟨.prefixed (t, s) tree, mirrors_of_closed ((classifies_single hs).append h.classifies)
    ⟨hopening, h.registered⟩ rfl (fun next => ⟨⟨?_, ?_⟩, ?_⟩)
    (.prefixed t op s ht hsymbol ts e _ h.shape)⟩
  · exact fun op' hop' => absurd (h.spine op' hop') (not_exceeds _ (by decide))
  · exact fun t' _ => not_exceeds _ (by decide)
  · exact h.settled next fun t' _ => not_exceeds _ (by decide)

theorem Mirrors.group {k : Nat} {ts : List Token} {e : Expr} {tree : Tree}
    {opener closer : Token} (ho : opener.IsVerbatim "(") (hc : closer.IsVerbatim ")")
    (h : Mirrors k ts e tree) :
    Mirrors 0 (opener :: (ts ++ [closer])) e
      (.group (opener, .leftParen) tree (closer, .rightParen)) := by
  refine mirrors_of_closed
    ((classifies_single (ofToken_of_isVerbatim ho rfl)).append
      (h.classifies.append (classifies_single (ofToken_of_isVerbatim hc rfl))))
    ⟨rfl, h.registered⟩ rfl (fun next => ⟨⟨?_, ?_⟩, ?_⟩)
    (.group opener closer ho hc ts e _ h.shape)
  · exact fun op hop => (h.spine op hop).mono (Nat.zero_le _)
  · rintro _ ⟨⟩
    exact not_exceeds_rightParen 0
  · refine h.settled _ ?_
    rintro _ ⟨⟩
    exact not_exceeds_rightParen _

end Mirrors

/-- Commas, question marks and equality signs are not arithmetic. -/
theorem IsArithmetic.not_verbatim {t : Token} (h : IsArithmetic t) {text : String}
    (htext : text ∉ marks) : ¬ t.IsVerbatim text := by
  rintro ⟨hk, rfl⟩
  rcases h with hk' | ⟨hk', -⟩ | ⟨hk', -⟩ | ⟨-, hmark⟩
  · simp [hk] at hk'
  · simp [hk] at hk'
  · simp [hk] at hk'
  · exact htext hmark

end Pratt

namespace Grammar

open Pratt

variable {assignments : Bool} {strategy : Strategy}

mutual

theorem Primary.mirrored : ∀ {d : Nat} {ts : List Token} {e : Expr},
    Primary (arithmetic assignments strategy) d ts e → (∀ t ∈ ts, IsArithmetic t) →
      ∃ tree, Mirrors 0 ts e tree
  | _, _, _, .identifier t hk, _ => ⟨_, mirrors_name hk⟩
  | _, _, _, .literal t _ _ hv, ht => mirrors_literal (ht t List.mem_cons_self) hv
  | _, _, _, .group _ _ hl hr _ ts _ h, ht =>
    let ⟨_, hmirrors⟩ := h.mirrored fun t hmem =>
      ht t (List.mem_cons_of_mem _ (List.mem_append_left _ hmem))
    ⟨_, hmirrors.group hl hr⟩

theorem Unary.mirrored : ∀ {d : Nat} {ts : List Token} {e : Expr},
    Unary (arithmetic assignments strategy) d ts e → (∀ t ∈ ts, IsArithmetic t) →
      ∃ tree, Mirrors 0 ts e tree
  | _, _, _, .primary _ _ _ h, ht => h.mirrored ht
  | _, _, _, .apply _ _ hop hverbatim _ _ _ h, ht =>
    let ⟨_, hmirrors⟩ := h.mirrored fun t hmem => ht t (List.mem_cons_of_mem _ hmem)
    hmirrors.prefixed hop hverbatim

theorem Level.mirrored : ∀ {k d : Nat} {ts : List Token} {e : Expr},
    Level (arithmetic assignments strategy) k d ts e → (∀ t ∈ ts, IsArithmetic t) →
      ∃ tree, Mirrors k ts e tree
  | _, _, _, _, .unary _ _ _ h, ht => h.mirrored ht
  | _, _, _, _, .chain _ _ _ _ h _ _ _ h', ht =>
    let ⟨_, hmirrors⟩ := h.mirrored fun t hmem => ht t (List.mem_append_left _ hmem)
    h'.mirrored hmirrors.loosen fun t hmem => ht t (List.mem_append_right _ hmem)

/-- The operands are taken one by one, each with all those in front of it on its left. -/
theorem Operands.mirrored : ∀ {k d : Nat} {us : List Token}
    {operands : List (BinaryOperator × Expr)} {ts : List Token} {left : Expr} {tree : Pratt.Tree},
    Operands (arithmetic assignments strategy) k d us operands → Mirrors (k + 1) ts left tree →
      (∀ t ∈ us, IsArithmetic t) → ∃ tree', Mirrors (k + 1) (ts ++ us) (applyAll left operands) tree'
  | _, _, _, _, ts, _, tree, .nil _, hleft, _ => ⟨tree, by rwa [List.append_nil]⟩
  | _, _, _, _, ts, _, _, .cons _ t op hop hverbatim _ vs right h _ us operands h', hleft, ht => by
    obtain ⟨r, hright⟩ := h.mirrored fun t' hmem =>
      ht t' (List.mem_cons_of_mem _ (List.mem_append_left _ hmem))
    obtain ⟨l, hl⟩ := hleft.operation hop hverbatim hright
    obtain ⟨tree', htree'⟩ := h'.mirrored hl fun t' hmem =>
      ht t' (List.mem_cons_of_mem _ (List.mem_append_right _ hmem))
    refine ⟨tree', ?_⟩
    rw [List.append_assoc] at htree'
    exact htree'

theorem Expression.mirrored : ∀ {d : Nat} {ts : List Token} {e : Expr},
    Expression (arithmetic assignments strategy) d ts e → (∀ t ∈ ts, IsArithmetic t) →
      ∃ tree, Mirrors 2 ts e tree
  | _, _, _, .test _ _ _ h, ht => h.mirrored ht
  | _, _, _, .conditional _ _ hq _ _ _ _ _ _ _ _ _ _ _ _ _, ht =>
    absurd hq ((ht _ (List.mem_append_right _ List.mem_cons_self)).not_verbatim (by decide))

theorem Assignable.mirrored : ∀ {place : Place} {d : Nat} {ts : List Token} {e : Expr},
    Assignable (arithmetic assignments strategy) place d ts e → (∀ t ∈ ts, IsArithmetic t) →
      ∃ tree, Mirrors 2 ts e tree
  | _, _, _, _, .expression _ _ _ _ h, ht => h.mirrored ht
  | _, _, _, _, .assignment _ _ _ _ _ he _ _ _ _, ht =>
    absurd he ((ht _ (List.mem_cons_of_mem _ List.mem_cons_self)).not_verbatim (by decide))

theorem Compound.mirrored : ∀ {place : Place} {d : Nat} {ts : List Token} {e : Expr},
    Compound (arithmetic assignments strategy) place d ts e → (∀ t ∈ ts, IsArithmetic t) →
      ∃ tree, Mirrors 2 ts e tree
  | _, _, _, _, .elements _ _ ts _ h _ _ _ (.nil _), ht =>
    let ⟨tree, hmirrors⟩ := h.mirrored fun t hmem => ht t (List.mem_append_left _ hmem)
    ⟨tree, by rwa [List.append_nil]⟩
  | _, _, _, _, .elements _ _ _ _ _ _ _ _ (.cons _ _ hc _ _ _ _ _ _ _ _ _ _), ht =>
    absurd hc ((ht _ (List.mem_append_right _ List.mem_cons_self)).not_verbatim (by decide))

end

end Grammar

namespace Pratt

/-! ### A tree is derived -/

section Trees

variable {assignments : Bool} {strategy : Strategy}

theorem rightAssociative_eq_false {s : Symbol} {joining : Joining}
    (h : Table.standard.joining? s = some joining) : joining.rightAssociative = false := by
  cases s <;> cases h <;> rfl

theorem exceeds_two {s : Symbol} (h : Table.standard.Exceeds 0 s) :
    Table.standard.Exceeds 2 s := by
  obtain ⟨joining, hjoining, -⟩ := h
  refine ⟨joining, hjoining, ?_⟩
  cases s <;> cases hjoining <;> decide

/-- All operators on the spine bind at least as tightly as the one behind. -/
theorem spine_exceeds {level : Nat} : ∀ {tree : Tree} {op : Sign}, tree.Registered .standard →
    tree.Settled .standard (some op) → Table.standard.Exceeds level op.2 →
      ∀ op' ∈ tree.spine, Table.standard.Exceeds level op'.2
  | .operation left op₁ right, op, ⟨hop₁, hleft, _⟩, ⟨hsettled, _, hfits⟩, hexceeds => by
    obtain ⟨joining₁, hjoining₁⟩ := Option.isSome_iff_exists.mp hop₁
    obtain ⟨joining, hjoining, hlt⟩ := hexceeds
    have hstops := (hfits joining₁ hjoining₁).stops op rfl
    rw [Joining.operandPrecedence, rightAssociative_eq_false hjoining₁] at hstops
    have hle : joining.precedence ≤ joining₁.precedence :=
      Nat.le_of_not_lt fun h => hstops ⟨joining, hjoining, h⟩
    have hexceeds₁ : Table.standard.Exceeds level op₁.2 :=
      ⟨joining₁, hjoining₁, Nat.lt_of_lt_of_le hlt hle⟩
    intro op' hop'
    rcases List.mem_cons.mp hop' with rfl | hop'
    · exact hexceeds₁
    · exact spine_exceeds hleft hsettled hexceeds₁ op' hop'
  | .name _, _, _, _, _ => by simp [Tree.spine]
  | .literal _, _, _, _, _ => by simp [Tree.spine]
  | .prefixed _ _, _, _, _, _ => by simp [Tree.spine]
  | .group _ _ _, _, _, _, _ => by simp [Tree.spine]

theorem primary_of_name {t : Token} {s : Symbol} (hs : Reading t s)
    (hopening : Table.standard.opening? s = some .name) :
    ∃ d e, Primary (arithmetic assignments strategy) d [t] e := by
  cases hs with
  | name hk => exact ⟨_, _, .identifier t hk⟩
  | number | string => cases hopening
  | mark _ _ _ _ htext =>
    cases s <;> cases hopening
    cases htext

theorem primary_of_literal {t : Token} {s : Symbol} (hs : Reading t s)
    (hopening : Table.standard.opening? s = some .literal) :
    ∃ d e, Primary (arithmetic assignments strategy) d [t] e := by
  have hliteral : ∀ value, literalValue? (arithmetic assignments strategy) t = some value →
      ∃ d e, Primary (arithmetic assignments strategy) d [t] e :=
    fun value h => ⟨_, _, .literal t value.1 value.2 h⟩
  cases hs with
  | name => cases hopening
  | number hk x hx hfinite =>
    exact hliteral (.number x, t.text) (by
      simp [literalValue?, hk, finite?, Token.number?, hx, hfinite])
  | string hk v hv =>
    exact hliteral (.string (String.ofList (unescape t.textValue.toList)), t.text) (by
      simp only [literalValue?, hk])
  | mark _ _ _ _ htext => cases s <;> cases hopening <;> cases htext

/-- A tree of arithmetic tokens whose spine is above a level is derived at that level. -/
theorem Tree.derives : ∀ (tree : Tree) {k : Nat} {next : Option Sign}, k ≤ 2 →
    tree.Registered .standard → tree.Settled .standard next →
    (∀ op ∈ tree.spine, Table.standard.Exceeds (4 - k) op.2) →
    (∀ t ∈ tree.signs, Reading t.1 t.2) →
    ∃ d e, Level (arithmetic assignments strategy) k d (tree.signs.map Prod.fst) e
  | .name t, k, _, _, hname, _, _, hreading => by
    obtain ⟨d, e, h⟩ := primary_of_name (hreading t List.mem_cons_self) hname
    exact ⟨d, e, h.level k⟩
  | .literal t, k, _, _, hliteral, _, _, hreading => by
    obtain ⟨d, e, h⟩ := primary_of_literal (hreading t List.mem_cons_self) hliteral
    exact ⟨d, e, h.level k⟩
  | .prefixed op operand, k, _, _, ⟨hoperator, hoperand⟩, ⟨hfits, hsettled⟩, _, hreading => by
    obtain ⟨hop, hreading⟩ := List.forall_mem_cons.mp hreading
    obtain ⟨op', hop', hverbatim⟩ := operator_of_opening hop hoperator
    obtain ⟨d, e, h⟩ := operand.derives (Nat.zero_le 2) hoperand hsettled
      (fun op hmem => (hfits.spine op hmem).mono (by decide)) hreading
    cases h with
    | unary _ _ _ h => exact ⟨d, _, (Unary.apply op.1 op' hop' hverbatim d _ e h).level k⟩
  | .group opener content closer, k, _, _, ⟨hgroup, hcontent⟩, ⟨hfits, hsettled⟩, _, hreading => by
    obtain ⟨hopener, hreading⟩ := List.forall_mem_cons.mp hreading
    obtain ⟨hreading, hcloser⟩ := List.forall_mem_append.mp hreading
    obtain ⟨ho, hclosing⟩ := group_of_opening hopener hgroup
    have hc : closer.1.IsVerbatim ")" := by
      have hreading := hcloser closer List.mem_cons_self
      rw [hclosing] at hreading
      exact isVerbatim_of_reading hreading rfl
    obtain ⟨d, e, h⟩ := content.derives (Nat.le_refl 2) hcontent hsettled
      (fun op hmem => exceeds_two (hfits.spine op hmem)) hreading
    have hprimary := Primary.group opener.1 closer.1 ho hc _ _ e
      ((Expression.test d _ e h).compound .group)
    rw [Tree.signs, List.map_cons, List.map_append]
    exact ⟨_, e, hprimary.level k⟩
  | .operation left op right, k, _, hk, ⟨hop, hleft, hright⟩, ⟨hsettled, hsettled', hfits⟩, hspine,
      hreading => by
    obtain ⟨hreadingLeft, hreading⟩ := List.forall_mem_append.mp hreading
    obtain ⟨hreadingOp, hreadingRight⟩ := List.forall_mem_cons.mp hreading
    obtain ⟨joining, hjoining⟩ := Option.isSome_iff_exists.mp hop
    obtain ⟨i, hi, rfl, op', hop', hverbatim⟩ := operator_of_joining hreadingOp hjoining
    have hik : i < k := by
      obtain ⟨joining', hjoining', hlt⟩ := hspine op List.mem_cons_self
      obtain rfl := Option.some.inj (hjoining.symm.trans hjoining')
      simp only at hlt
      omega
    obtain ⟨d, e, h⟩ := left.derives (k := i + 1) (by omega) hleft hsettled
      (spine_exceeds hleft hsettled ⟨_, hjoining, by simp only; omega⟩) hreadingLeft
    obtain ⟨d', e', h'⟩ := right.derives (k := i) (by omega) hright hsettled'
      (hfits _ hjoining).spine hreadingRight
    have hlevel := (h.concat hop' hverbatim h').lift (k - (i + 1))
    rw [Nat.add_sub_cancel' hik] at hlevel
    rw [Tree.signs, List.map_append, List.map_cons]
    exact ⟨_, _, hlevel⟩

end Trees

/-! ### The two parsers -/

section Parsers

variable {assignments : Bool} {strategy : Strategy} {tokens : List Token}

theorem reading_of_classifies {row : List Sign} (htokens : ∀ t ∈ tokens, IsArithmetic t)
    (hrow : Classifies tokens row) : ∀ t ∈ row, Reading t.1 t.2 := by
  intro t ht
  have hmem : t.1 ∈ tokens := hrow.1 ▸ List.mem_map_of_mem ht
  obtain ⟨s, hs, hreading⟩ := (htokens t.1 hmem).exists_reading
  obtain rfl : t.2 = s := Except.ok.inj ((hrow.2 t ht).symm.trans hs)
  exact hreading

/-- What is spelled by a tree of the standard table is derived. -/
theorem compound_of_wellBound (htokens : ∀ t ∈ tokens, IsArithmetic t) {tree : Tree}
    (hrow : Classifies tokens tree.signs) (h : tree.WellBound .standard) :
    ∃ d e, Compound (arithmetic assignments strategy) .program d tokens e := by
  obtain ⟨d, e, hlevel⟩ := tree.derives (k := 2) (Nat.le_refl 2) h.registered h.settled
    (fun op hop => exceeds_two (h.fits.spine op hop)) (reading_of_classifies htokens hrow)
  rw [hrow.1] at hlevel
  exact ⟨_, e, (Expression.test d tokens e hlevel).compound .program⟩

/-- What is derived is spelled by a tree of the standard table of the same shape. -/
theorem wellBound_of_compound (htokens : ∀ t ∈ tokens, IsArithmetic t) {d : Nat} {e : Expr}
    (h : Compound (arithmetic assignments strategy) .program d tokens e) :
    ∃ tree : Tree, Classifies tokens tree.signs ∧ tree.WellBound .standard ∧
      SameShape tokens e tree.erase := by
  obtain ⟨tree, hmirrors⟩ := h.mirrored htokens
  exact ⟨tree, hmirrors.classifies,
    ⟨hmirrors.registered,
      ⟨fun op hop => (hmirrors.spine op hop).mono (Nat.zero_le _), by simp⟩,
      hmirrors.settled none (by simp)⟩,
    hmirrors.shape⟩

/-- Where the nesting limit is not met, what is parsed is what is derived at any depth. -/
theorem parseTokens_eq_ok_iff_exists {grammar : Grammar}
    (hnodup : grammar.options.precedence.flatten.Nodup)
    (hdepth : ∀ i, grammar.parseTokens tokens ≠ .error (tooDeep tokens.toArray i)) {e : Expr} :
    grammar.parseTokens tokens = .ok e ↔ ∃ d, Compound grammar.options .program d tokens e := by
  constructor
  · intro h
    obtain ⟨d, -, hcompound⟩ := (parseTokens_eq_ok_iff hnodup).mp h
    exact ⟨d, hcompound⟩
  · rintro ⟨d, hcompound⟩
    by_cases hd : d ≤ nestingLimit
    · exact (parseTokens_eq_ok_iff hnodup).mpr ⟨d, hd, hcompound⟩
    · obtain ⟨i, hi⟩ := parseTokens_of_tooDeep hnodup hcompound (Nat.not_le.mp hd)
      exact absurd hi (hdepth i)

/-- Of a row of names, finite numbers, texts, arithmetic operators and parentheses, and apart from
the nesting limits, either both parsers make trees of the same shape over the same tokens, or both
fail. -/
theorem designs_agree (assignments : Bool) (strategy : Strategy) :
    ∃ grammar, ofOptions (arithmetic assignments strategy) = .ok grammar ∧
      ∀ tokens, (∀ t ∈ tokens, IsArithmetic t) →
        (∀ i, grammar.parseTokens tokens ≠ .error (tooDeep tokens.toArray i)) →
        ¬ MeetsLimit (parseTokens .standard tokens) →
        (∃ e term, grammar.parseTokens tokens = .ok e ∧ parseTokens .standard tokens = .ok term ∧
          SameShape tokens e term) ∨
        ∃ failure failure', grammar.parseTokens tokens = .error failure ∧
          parseTokens .standard tokens = .error failure' := by
  have hfault : (arithmetic assignments strategy).fault? = none := rfl
  obtain ⟨grammar, hgrammar, hoptions⟩ : ∃ grammar,
      ofOptions (arithmetic assignments strategy) = .ok grammar ∧
        grammar.options = arithmetic assignments strategy := ⟨_, ofOptions_eq hfault, rfl⟩
  have hnodup : grammar.options.precedence.flatten.Nodup := by
    rw [hoptions]
    exact GrammarOptions.nodup_of_fault?_eq_none hfault
  refine ⟨grammar, hgrammar, fun tokens htokens hdepth hlimit => ?_⟩
  have hderived : ∀ e, grammar.parseTokens tokens = .ok e ↔
      ∃ d, Compound (arithmetic assignments strategy) .program d tokens e := by
    rw [← hoptions]
    exact fun e => parseTokens_eq_ok_iff_exists hnodup hdepth
  rcases hresult : grammar.parseTokens tokens with failure | e
  · rcases hparse : parseTokens .standard tokens with failure' | term
    · exact .inr ⟨failure, failure', rfl, rfl⟩
    · obtain ⟨tree, -, hrow, hbound⟩ := parseTokens_sound hparse
      obtain ⟨d, e, hcompound⟩ := compound_of_wellBound htokens hrow hbound
      exact absurd (((hderived e).mpr ⟨d, hcompound⟩).symm.trans hresult) (by simp)
  · obtain ⟨d, hcompound⟩ := (hderived e).mp hresult
    obtain ⟨tree, hrow, hbound, hshape⟩ := wellBound_of_compound htokens hcompound
    exact .inl ⟨e, tree.erase, rfl, (parseTokens_complete hrow hbound).resolve_right hlimit, hshape⟩

/-- The tokens of `-(a+b)`. -/
def negatedSum : List Token :=
  [⟨.verbatim, "-", .text "-", [], ⟨0, 1⟩, ⟨1, 1⟩⟩,
    ⟨.verbatim, "(", .text "(", [], ⟨1, 2⟩, ⟨1, 2⟩⟩,
    ⟨.identifier, "a", .text "a", [], ⟨2, 3⟩, ⟨1, 3⟩⟩,
    ⟨.verbatim, "+", .text "+", [], ⟨3, 4⟩, ⟨1, 4⟩⟩,
    ⟨.identifier, "b", .text "b", [], ⟨4, 5⟩, ⟨1, 5⟩⟩,
    ⟨.verbatim, ")", .text ")", [], ⟨5, 6⟩, ⟨1, 6⟩⟩]

theorem negatedSum_derived : ∃ d ≤ nestingLimit,
    Compound (arithmetic true .packrat) .program d negatedSum
      (.unary .minus (.binary .add (.identifier "a" ⟨2, 3⟩) (.identifier "b" ⟨4, 5⟩))) := by
  have hname : ∀ t : Token, t.kind = .identifier → ∀ k,
      Level (arithmetic true .packrat) k 0 [t] (.identifier t.textValue t.span) :=
    fun t hk => (Primary.identifier t hk).level
  have hplus : Token.IsVerbatim ⟨.verbatim, "+", .text "+", [], ⟨3, 4⟩, ⟨1, 4⟩⟩
      (BinaryOperator.symbol .add) := ⟨rfl, rfl⟩
  have hsum : Level (arithmetic true .packrat) 2 _ _ _ :=
    (hname ⟨.identifier, "a", .text "a", [], ⟨2, 3⟩, ⟨1, 3⟩⟩ rfl 2).concat (by decide) hplus
      (hname ⟨.identifier, "b", .text "b", [], ⟨4, 5⟩, ⟨1, 5⟩⟩ rfl 1)
  have hgroup := Primary.group ⟨.verbatim, "(", .text "(", [], ⟨1, 2⟩, ⟨1, 2⟩⟩
    ⟨.verbatim, ")", .text ")", [], ⟨5, 6⟩, ⟨1, 6⟩⟩ ⟨rfl, rfl⟩ ⟨rfl, rfl⟩ _ _ _
    ((Expression.test _ _ _ hsum).compound .group)
  have hminus := Unary.apply ⟨.verbatim, "-", .text "-", [], ⟨0, 1⟩, ⟨1, 1⟩⟩ .minus (by decide)
    ⟨rfl, rfl⟩ _ _ _ (.primary _ _ _ hgroup)
  exact ⟨_, by decide, (Expression.test _ _ _ (hminus.level 2)).compound .program⟩

theorem negated_sum_agrees : (∀ t ∈ negatedSum, IsArithmetic t) ∧
    ∃ grammar, ofOptions (arithmetic true .packrat) = .ok grammar ∧
      (∀ i, grammar.parseTokens negatedSum ≠ .error (tooDeep negatedSum.toArray i)) ∧
      ¬ MeetsLimit (parseTokens .standard negatedSum) ∧
      ∃ e term, grammar.parseTokens negatedSum = .ok e ∧
        parseTokens .standard negatedSum = .ok term ∧ SameShape negatedSum e term := by
  obtain ⟨grammar, hgrammar, hagree⟩ := designs_agree true .packrat
  have htokens : ∀ t ∈ negatedSum, IsArithmetic t := by
    simp [negatedSum, IsArithmetic, marks]
  have hparse : grammar.parseTokens negatedSum = .ok
      (.unary .minus (.binary .add (.identifier "a" ⟨2, 3⟩) (.identifier "b" ⟨4, 5⟩))) := by
    obtain rfl : ⟨arithmetic true .packrat, lexer (arithmetic true .packrat)⟩ = grammar :=
      Except.ok.inj ((ofOptions_eq rfl).symm.trans hgrammar)
    exact (parseTokens_eq_ok_iff (GrammarOptions.nodup_of_fault?_eq_none rfl)).mpr
      negatedSum_derived
  have hread : parseTokens .standard negatedSum =
      .ok (.prefixed .minus (.operation (.name "a") .plus (.name "b"))) := rfl
  have hdepth : ∀ i, grammar.parseTokens negatedSum ≠
      .error (tooDeep negatedSum.toArray i) := by simp [hparse]
  have hlimit : ¬ MeetsLimit (parseTokens .standard negatedSum) := by
    rw [hread]
    rintro ⟨_, ⟨⟩⟩
  refine ⟨htokens, grammar, hgrammar, hdepth, hlimit, ?_⟩
  rcases hagree _ htokens hdepth hlimit with hboth | ⟨failure, -, hfailure, -⟩
  · exact hboth
  · exact absurd (hfailure.symm.trans hparse) (by simp)

end Parsers

end Pratt

end Precedence
