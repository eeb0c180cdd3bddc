import Precedence.Expr.Basic
import Precedence.Number.Decimal
import Precedence.Rule.Basic
import Precedence.Text.Escape

/-!
# Parts of expressions

What the rules of a grammar capture, and how each kind of node is made of the captures of its rule.
A chain of operators is folded from the left, operators in front of an operand from the right.
-/

namespace Precedence.Grammar

open Number Text

inductive Part where
  | token (token : Token)
  | expr (expr : Expr)
  | unary (op : UnaryOperator)
  | binary (op : BinaryOperator)
  /-- An operator and the operand behind it. -/
  | operand (op : BinaryOperator) (right : Expr)
  deriving Inhabited

instance : Capture Part := ⟨.token⟩

namespace Part

def expr? : Part → Option Expr
  | expr e => some e
  | _ => none

/-- The token that is the only part. -/
def single? : List Part → Option Token
  | [token t] => some t
  | _ => none

/-- The parts as expressions, if all of them are. -/
def exprs? (parts : List Part) : Option (List Expr) :=
  parts.mapM expr?

/-! ### Leaves -/

def reduceIdentifier : Reducer Part := fun parts _ => do
  let t ← single? parts
  return expr (.identifier t.textValue t.span)

def reduceString : Reducer Part := fun parts _ => do
  let t ← single? parts
  let value := String.ofList (unescape t.textValue.toList)
  return expr (.literal (.string value) t.text t.span)

/-- A number must be finite; a token without one is read as a numeral. -/
def reduceNumber : Reducer Part := fun parts _ => do
  let t ← single? parts
  let value ← t.number? <|> Numeral.value? t.textValue.toList
  if value.isFinite then some (expr (.literal (.number value) t.text t.span)) else none

def reduceNull : Reducer Part := fun parts _ => do
  let t ← single? parts
  return expr (.literal .null t.text t.span)

def reduceBoolean : Reducer Part := fun parts _ => do
  let t ← single? parts
  return expr (.literal (.boolean (t.textValue == "true")) t.text t.span)

/-- A regular expression is made of the two groups of its token, of which the first is needed. -/
def reduceRegex : Reducer Part := fun parts _ => do
  let t ← single? parts
  let pattern ← t.capture? 0
  let flags := (t.capture? 1).getD ""
  return expr (.literal (.regex pattern flags) ("/" ++ pattern ++ "/" ++ flags) t.span)

/-! ### Operators and their operands -/

def reduceUnaryOperator : Reducer Part := fun _ stretch => do
  let t ← stretch.first?
  return unary (← UnaryOperator.ofSymbol? t.text)

def reduceBinaryOperator : Reducer Part := fun _ stretch => do
  let t ← stretch.first?
  return binary (← BinaryOperator.ofSymbol? t.text)

/-- Operators in front of an operand; the last one binds first. -/
def applyUnary : List Part → Option Expr
  | [expr argument] => some argument
  | unary op :: parts => (applyUnary parts).map (.unary op)
  | _ => none

def reduceUnary : Reducer Part := fun parts _ =>
  (applyUnary parts).map expr

def reduceApplication : Reducer Part
  | [binary op, expr right], _ => some (operand op right)
  | _, _ => none

/-- A first operand and what stands behind it; the first operator binds first. -/
def applyOperands (left : Expr) : List Part → Option Expr
  | [] => some left
  | operand op right :: parts => applyOperands (.binary op left right) parts
  | _ :: _ => none

def reduceLevel : Reducer Part
  | expr left :: parts, _ => (applyOperands left parts).map expr
  | _, _ => none

/-! ### Conditionals, assignments and compounds -/

/-- A test alone, or with its two branches. -/
def reduceConditional : Reducer Part
  | [expr e], _ => some (expr e)
  | [expr test, expr consequent, expr alternate], _ =>
    some (expr (.conditional test consequent alternate))
  | _, _ => none

def reduceAssignment : Reducer Part
  | [expr target, expr value], _ => some (expr (.assignment target value))
  | _, _ => none

def reduceHole : Reducer Part := fun _ _ =>
  some (expr .hole)

/-- A single expression stands for itself. -/
def reduceCompound : Reducer Part := fun parts _ => do
  match ← exprs? parts with
  | [e] => return expr e
  | leaves => return expr (.compound leaves)

end Part

end Precedence.Grammar
