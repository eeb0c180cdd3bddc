import Precedence.Proofs.Grammar.Correctness
import Precedence.Proofs.Grammar.Reparsing

/-!
# Chains of operators

A chain applies one operator again and again. As a text it has no parentheses, so it is parsed
however long it is (`chain_parses`); in print it has one pair for each operator
(`printedDepth_chained`).
-/

namespace Precedence

namespace Expr

/-- `e` with `n` times the operator and `e` again behind it. -/
def chained (op : BinaryOperator) (e : Expr) : Nat → Expr
  | 0 => e
  | n + 1 => binary op (chained op e n) e

/-- The same as a text without parentheses. -/
def chain (op : BinaryOperator) (e : Expr) : Nat → String
  | 0 => e.print
  | n + 1 => chain op e n ++ " " ++ op.symbol ++ " " ++ e.print

theorem printedDepth_chained (op : BinaryOperator) (e : Expr) :
    ∀ n, (chained op e n).printedDepth = e.printedDepth + n
  | 0 => rfl
  | n + 1 => by
    rw [chained, printedDepth, printedDepth_chained op e n, Nat.max_eq_left (Nat.le_add_right _ _),
      Nat.add_assoc]

theorem printedDepth_of_chained {op : BinaryOperator} {e e' : Expr} {n : Nat}
    (h : e'.withoutSpans = (chained op e n).withoutSpans) :
    e'.printedDepth = e.printedDepth + n :=
  (printedDepth_congr h).trans (printedDepth_chained op e n)

theorem literals_chained {op : BinaryOperator} {e : Expr} {l : LiteralValue × String} :
    ∀ {n : Nat}, l ∈ (chained op e n).literals → l ∈ e.literals
  | 0, h => h
  | n + 1, h => by
    rcases List.mem_append.mp h with h | h
    · exact literals_chained h
    · exact h

theorem literals_of_chained {op : BinaryOperator} {e e' : Expr} {n : Nat}
    (h : e'.withoutSpans = (chained op e n).withoutSpans) {l : LiteralValue × String}
    (hl : l ∈ e'.literals) : l ∈ e.literals :=
  literals_chained (literals_congr h ▸ hl)

end Expr

namespace Grammar

open Text

variable {options : GrammarOptions}

theorem Operands.concat {t : Token} {op : BinaryOperator} {k : Nat}
    (hop : op ∈ operatorsAt options k) (ht : t.IsVerbatim op.symbol) {d' : Nat} {us : List Token}
    {right : Expr} (h' : Level options k d' us right) :
    ∀ {d : Nat} {ts : List Token} {operands : List (BinaryOperator × Expr)},
      Operands options k d ts operands →
        Operands options k (max d d') (ts ++ t :: us) (operands ++ [(op, right)])
  | _, _, _, .nil _ => by
    have hone := Operands.cons k t op hop ht d' us right h' 0 [] [] (.nil k)
    rwa [Nat.max_comm, List.append_nil] at hone
  | _, _, _, .cons _ t' op' hop' ht' d ts e h d'' vs operands hrest => by
    have hmore := Operands.cons k t' op' hop' ht' d ts e h _ _ _ (hrest.concat hop ht h')
    rwa [← Nat.max_assoc, ← List.append_assoc] at hmore

/-- One more operand at the end of a chain. -/
theorem Level.concat {t : Token} {op : BinaryOperator} {k : Nat} (hop : op ∈ operatorsAt options k)
    (ht : t.IsVerbatim op.symbol) {d d' : Nat} {ts us : List Token} {left right : Expr}
    (h : Level options (k + 1) d ts left) (h' : Level options k d' us right) :
    Level options (k + 1) (max d d') (ts ++ t :: us) (.binary op left right) := by
  cases h with
  | chain _ d₁ ts₁ first h₁ d₂ ts₂ operands h₂ =>
    have hmore := Level.chain k d₁ ts₁ first h₁ _ _ _ (h₂.concat hop ht h')
    rw [← Nat.max_assoc, ← List.append_assoc, applyAll, List.foldl_append] at hmore
    exact hmore

theorem chain_splits {op : BinaryOperator} {k : Nat} (hop : op ∈ operatorsAt options k)
    (hslash : op = .divide → options.regexLiterals = false) {e : Expr} (he : Reparses options e)
    (index : LineIndex) (offset : Nat) {before : Option Char} (hbefore : Opening before) :
    ∀ (n : Nat) {rest : List Char}, Closing rest → ∃ ts e',
      (lexer options).Splits index offset before (e.chain op n).toList rest ts ∧
        Level options (k + 1) e.printedDepth ts e' ∧
        e'.withoutSpans = (e.chained op n).withoutSpans
  | 0, rest, hrest => by
    obtain ⟨ts, e', hs, hd, hspans⟩ := he.splits index offset before rest hbefore hrest
    exact ⟨ts, e', hs, hd.level _, hspans⟩
  | n + 1, rest, hrest => by
    obtain ⟨ts, left, hs, hleft, hspans⟩ := chain_splits hop hslash he index offset hbefore n
      (closing_blank (op.symbol.toList ++ ' ' :: e.print.toList ++ rest))
    obtain ⟨t, us, right, ht, hs', hright, hspans'⟩ := he.behind_sign index
      (offset + byteLength (e.chain op n).toList) ((e.chain op n).toList.getLast?.or before)
      hrest (binary_segment op hslash)
    rw [String.ofList_toList] at ht
    have hprint : (e.chain op (n + 1)).toList =
        (e.chain op n).toList ++ ' ' :: (op.symbol.toList ++ ' ' :: e.print.toList) := by
      simp [Expr.chain]
    have hlevel := hleft.concat hop ht (hright.level k)
    rw [Nat.max_self] at hlevel
    refine ⟨ts ++ t :: us, .binary op left right, ?_, hlevel, ?_⟩
    · rw [hprint]
      exact hs.append hs'
    · rw [Expr.chained, Expr.withoutSpans, Expr.withoutSpans, hspans, hspans']

/-- However long it is, a chain is parsed. -/
theorem chain_parses (hfault : options.fault? = none) {op : BinaryOperator}
    (hop : op ∈ options.precedence.flatten) {e : Expr} (he : Reparses options e)
    (hdepth : e.printedDepth ≤ nestingLimit) (n : Nat) : ∃ e',
    parse ⟨options, lexer options⟩ (e.chain op n) = .ok e' ∧
      e'.withoutSpans = (e.chained op n).withoutSpans := by
  obtain ⟨hnodup, hslash⟩ := GrammarOptions.table_of_fault?_eq_none hfault
  obtain ⟨k, hk, hop'⟩ := exists_operatorsAt hop
  obtain ⟨ts, e', hs, hlevel, hspans⟩ := chain_splits hop' (fun h => hslash (h ▸ hop)) he
    (.ofText (e.chain op n).toList) 0 opening_none n closing_nil
  have hexpression := (hlevel.expression hk).compound .program
  refine ⟨e', ?_, hspans⟩
  rw [parse_of_tokenize (tokenize_of_splits hs)]
  exact (parseTokens_eq_ok_iff hnodup).mpr ⟨_, hdepth, hexpression⟩

end Grammar

end Precedence
