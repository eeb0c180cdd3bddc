import Precedence.Grammar.Rules

/-!
# Derivations

What the grammar derives, written down as its documentation does and without a word on how it is
recognized. `Compound options place depth tokens e` says that the whole row of tokens is a compound
with `e` as its tree, and that its expressions nest `depth` levels deep: the elements of a compound
in parentheses and the values assigned there are one level deeper than the compound, the branches of
a conditional are one level deeper than the conditional, and nothing else adds a level.
-/

namespace Precedence

/-- A verbatim token with just this text. -/
def Token.IsVerbatim (t : Token) (text : String) : Prop :=
  t.kind = .verbatim ∧ t.text = text

namespace Grammar

open Number Text

/-- How many levels an element is below its compound. -/
def Place.levels : Place → Nat
  | group => 1
  | program => 0

section Literals

variable (options : GrammarOptions)

/-- The number that a token has, or that its text denotes, if that is finite. -/
def finite? (t : Token) : Option Binary64 :=
  (t.number?.or (Numeral.value? t.textValue.toList)).filter (·.isFinite)

/-- What a token of a literal means, and how it is written. -/
def literalValue? (t : Token) : Option (LiteralValue × String) :=
  match t.kind with
  | .string => some (.string (String.ofList (unescape t.textValue.toList)), t.text)
  | .number => (finite? t).map fun x => (.number x, t.text)
  | .null => some (.null, t.text)
  | .boolean => some (.boolean (t.textValue == "true"), t.text)
  | .regex =>
    if options.regexLiterals then
      (t.capture? 0).map fun pattern =>
        let flags := (t.capture? 1).getD ""
        (.regex pattern flags, "/" ++ pattern ++ "/" ++ flags)
    else none
  | _ => none

end Literals

/-- The operators of a level, counted from 0. -/
def operatorsAt (options : GrammarOptions) (k : Nat) : List BinaryOperator :=
  options.precedence.getD k []

/-- Operators with their right operands, applied one after the other. -/
def applyAll (left : Expr) (operands : List (BinaryOperator × Expr)) : Expr :=
  operands.foldl (fun left (op, right) => .binary op left right) left

/-- A single element stands for itself. -/
def gather (first : Expr) : List Expr → Expr
  | [] => first
  | rest => .compound (first :: rest)

mutual

inductive Primary (options : GrammarOptions) : Nat → List Token → Expr → Prop
  | identifier (t : Token) (hk : t.kind = .identifier) :
    Primary options 0 [t] (.identifier t.textValue t.span)
  | literal (t : Token) (value : LiteralValue) (raw : String)
    (hv : literalValue? options t = some (value, raw)) :
    Primary options 0 [t] (.literal value raw t.span)
  | group (left right : Token) (hl : left.IsVerbatim "(") (hr : right.IsVerbatim ")")
    (d : Nat) (ts : List Token) (e : Expr) (h : Compound options .group d ts e) :
    Primary options d (left :: (ts ++ [right])) e

/-- Operators in front of a primary; the last one binds first. -/
inductive Unary (options : GrammarOptions) : Nat → List Token → Expr → Prop
  | primary (d : Nat) (ts : List Token) (e : Expr) (h : Primary options d ts e) :
    Unary options d ts e
  | apply (t : Token) (op : UnaryOperator) (hop : op ∈ options.unaryOperators)
    (ht : t.IsVerbatim op.symbol) (d : Nat) (ts : List Token) (e : Expr)
    (h : Unary options d ts e) :
    Unary options d (t :: ts) (.unary op e)

/-- The chains of the levels up to `k`; below the tightest are operators in front of a primary. -/
inductive Level (options : GrammarOptions) : Nat → Nat → List Token → Expr → Prop
  | unary (d : Nat) (ts : List Token) (e : Expr) (h : Unary options d ts e) :
    Level options 0 d ts e
  | chain (k : Nat) (d : Nat) (ts : List Token) (left : Expr) (h : Level options k d ts left)
    (d' : Nat) (us : List Token) (operands : List (BinaryOperator × Expr))
    (h' : Operands options k d' us operands) :
    Level options (k + 1) (max d d') (ts ++ us) (applyAll left operands)

/-- Operators of level `k`, each with an operand of the next tighter level behind it. -/
inductive Operands (options : GrammarOptions) :
    Nat → Nat → List Token → List (BinaryOperator × Expr) → Prop
  | nil (k : Nat) : Operands options k 0 [] []
  | cons (k : Nat) (t : Token) (op : BinaryOperator) (hop : op ∈ operatorsAt options k)
    (ht : t.IsVerbatim op.symbol) (d : Nat) (ts : List Token) (right : Expr)
    (h : Level options k d ts right)
    (d' : Nat) (us : List Token) (operands : List (BinaryOperator × Expr))
    (h' : Operands options k d' us operands) :
    Operands options k (max d d') (t :: (ts ++ us)) ((op, right) :: operands)

inductive Expression (options : GrammarOptions) : Nat → List Token → Expr → Prop
  | test (d : Nat) (ts : List Token) (e : Expr)
    (h : Level options options.precedence.length d ts e) :
    Expression options d ts e
  | conditional (question colon : Token) (hq : question.IsVerbatim "?")
    (hc : colon.IsVerbatim ":") (d₁ d₂ d₃ : Nat) (ts us vs : List Token) (e₁ e₂ e₃ : Expr)
    (h₁ : Level options options.precedence.length d₁ ts e₁)
    (h₂ : Expression options d₂ us e₂) (h₃ : Expression options d₃ vs e₃) :
    Expression options (max d₁ (max (d₂ + 1) (d₃ + 1)))
      (ts ++ question :: (us ++ colon :: vs)) (.conditional e₁ e₂ e₃)

/-- An element of a compound. -/
inductive Assignable (options : GrammarOptions) : Place → Nat → List Token → Expr → Prop
  | expression (place : Place) (d : Nat) (ts : List Token) (e : Expr)
    (h : Expression options d ts e) :
    Assignable options place (d + place.levels) ts e
  | assignment (place : Place) (ha : options.assignments) (t equals : Token)
    (hk : t.kind = .identifier) (he : equals.IsVerbatim "=") (d : Nat) (ts : List Token) (e : Expr)
    (h : Expression options d ts e) :
    Assignable options place (d + place.levels) (t :: equals :: ts)
      (.assignment (.identifier t.textValue t.span) e)

/-- What follows the first element: commas, where every one too many is a hole, and an element. -/
inductive Elements (options : GrammarOptions) : Place → Nat → List Token → List Expr → Prop
  | nil (place : Place) : Elements options place 0 [] []
  | cons (place : Place) (comma : Token) (hc : comma.IsVerbatim ",") (commas : List Token)
    (hcs : ∀ t ∈ commas, t.IsVerbatim ",") (d : Nat) (ts : List Token) (e : Expr)
    (h : Assignable options place d ts e)
    (d' : Nat) (us : List Token) (es : List Expr) (h' : Elements options place d' us es) :
    Elements options place (max d d') (comma :: (commas ++ (ts ++ us)))
      (List.replicate commas.length .hole ++ e :: es)

inductive Compound (options : GrammarOptions) : Place → Nat → List Token → Expr → Prop
  | elements (place : Place) (d : Nat) (ts : List Token) (e : Expr)
    (h : Assignable options place d ts e)
    (d' : Nat) (us : List Token) (es : List Expr) (h' : Elements options place d' us es) :
    Compound options place (max d d') (ts ++ us) (gather e es)

end

/-! ### What stands on its own -/

section Lifting

variable {options : GrammarOptions} {d : Nat} {ts : List Token} {e : Expr}

theorem Level.lift {k : Nat} (h : Level options k d ts e) : ∀ n, Level options (k + n) d ts e
  | 0 => h
  | n + 1 => by
    have hchain := Level.chain (k + n) d ts e (h.lift n) 0 [] [] (.nil (k + n))
    rwa [Nat.max_zero, List.append_nil] at hchain

theorem Unary.level (h : Unary options d ts e) (k : Nat) : Level options k d ts e := by
  have hlift := (Level.unary d ts e h).lift k
  rwa [Nat.zero_add] at hlift

theorem Primary.level (h : Primary options d ts e) (k : Nat) : Level options k d ts e :=
  (Unary.primary d ts e h).level k

theorem Primary.expression (h : Primary options d ts e) : Expression options d ts e :=
  .test d ts e (h.level _)

theorem Assignable.compound {place : Place} (h : Assignable options place d ts e) :
    Compound options place d ts e := by
  have hcompound := Compound.elements place d ts e h 0 [] [] (.nil place)
  rwa [Nat.max_zero, List.append_nil] at hcompound

theorem Expression.compound (h : Expression options d ts e) (place : Place) :
    Compound options place (d + place.levels) ts e :=
  (Assignable.expression place d ts e h).compound

end Lifting

end Grammar

end Precedence
