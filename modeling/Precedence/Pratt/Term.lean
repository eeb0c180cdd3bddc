import Precedence.Json.Basic
import Precedence.Number.Binary64
import Precedence.Pratt.Symbol
import Precedence.Text.Visible

/-!
# Terms

The trees of the Pratt parser. `Term.print` puts every operation between two operands in
parentheses, and no operator in front of one.
-/

namespace Precedence.Pratt

open Text

inductive Term where
  | name (text : String)
  /-- `raw` is the numeral as it was written. -/
  | number (value : Number.Binary64) (raw : String)
  | string (value : String)
  | prefixed (op : Symbol) (operand : Term)
  | operation (left : Term) (op : Symbol) (right : Term)
  deriving DecidableEq, Inhabited

namespace Term

/-- An operator as it is printed; a symbol without a text of its own is not shown. -/
def operatorText (op : Symbol) : String :=
  op.text?.getD "?"

def print : Term → String
  | name text => text
  | number _ raw => raw
  | string value => String.ofList (quoteVisibly value.toList)
  | prefixed op operand => operatorText op ++ " " ++ print operand
  | operation left op right =>
    "( " ++ print left ++ " " ++ operatorText op ++ " " ++ print right ++ " )"

/-- An object that names its kind under `type`. -/
def toJson : Term → Json
  | name text => .object [("type", .string "NameExpression"), ("name", .string text)]
  | number value raw =>
    .object [("type", .string "NumberExpression"), ("value", .number value), ("raw", .string raw)]
  | string value => .object [("type", .string "StringExpression"), ("value", .string value)]
  | prefixed op operand =>
    .object
      [("type", .string "PrefixExpression"), ("op", .string op.label),
        ("operand", toJson operand)]
  | operation left op right =>
    .object
      [("type", .string "OperatorExpression"), ("left", toJson left), ("op", .string op.label),
        ("right", toJson right)]

end Term

end Precedence.Pratt
