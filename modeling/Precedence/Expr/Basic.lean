import Precedence.Number.Binary64
import Precedence.Operator
import Precedence.Text.Span

/-!
# Expressions

The trees that a grammar makes of tokens. Only identifiers and literals carry a span; that of any
other expression is the hull of the spans in it, and a hole has none.
-/

namespace Precedence

/-- What a literal stands for. -/
inductive LiteralValue where
  | string (value : String)
  | number (value : Number.Binary64)
  | boolean (value : Bool)
  | null
  | regex (pattern flags : String)
  deriving DecidableEq, Inhabited

/-- The word for the kind of a literal. -/
def LiteralValue.label : LiteralValue → String
  | string _ => "string"
  | number _ => "number"
  | boolean _ => "boolean"
  | null => "null"
  | regex _ _ => "regex"

inductive Expr where
  | identifier (name : String) (span : Span)
  /-- `raw` is the literal as it was written. -/
  | literal (value : LiteralValue) (raw : String) (span : Span)
  | unary (op : UnaryOperator) (argument : Expr)
  | binary (op : BinaryOperator) (left right : Expr)
  | conditional (test consequent alternate : Expr)
  /-- Expressions separated by commas. -/
  | compound (leaves : List Expr)
  | assignment (target value : Expr)
  /-- What a comma too many leaves in a compound. -/
  | hole
  deriving Inhabited

namespace Expr

/-- The word for the kind of an expression. -/
def label : Expr → String
  | identifier .. => "Identifier"
  | literal .. => "Literal"
  | unary .. => "UnaryExpression"
  | binary .. => "BinaryExpression"
  | conditional .. => "ConditionalExpression"
  | compound .. => "CompoundExpression"
  | assignment .. => "Assignment"
  | hole => "EmptyElement"

mutual

/-- The spans of the identifiers and literals, from left to right. -/
def leafSpans : Expr → List Span
  | identifier _ span => [span]
  | literal _ _ span => [span]
  | unary _ argument => leafSpans argument
  | binary _ left right => leafSpans left ++ leafSpans right
  | conditional test consequent alternate =>
    leafSpans test ++ leafSpans consequent ++ leafSpans alternate
  | compound leaves => leafSpansOfAll leaves
  | assignment target value => leafSpans target ++ leafSpans value
  | hole => []

def leafSpansOfAll : List Expr → List Span
  | [] => []
  | e :: rest => leafSpans e ++ leafSpansOfAll rest

end

/-- The span from the first to the last leaf, none without a leaf. -/
def span? (e : Expr) : Option Span :=
  Span.hull e.leafSpans

end Expr

end Precedence
