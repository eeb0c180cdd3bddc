import Precedence.Expr.Basic
import Precedence.Token.Encode

/-!
# Expressions as JSON

A node is an object that names its kind under `type`.
-/

namespace Precedence

open Json

/-- A literal stands for itself, a regular expression for its parts. -/
def LiteralValue.toJson : LiteralValue → Json
  | string value => .string value
  | number value => .number value
  | boolean value => .bool value
  | null => .null
  | regex pattern flags => object [("pattern", .string pattern), ("flags", .string flags)]

namespace Expr

/-- An object that begins with its type. -/
def tagged (type : String) (fields : List (String × Json)) : Json :=
  object (("type", .string type) :: fields)

mutual

def toJson : Expr → Json
  | identifier name span =>
    tagged "Identifier" [("name", .string name), ("span", span.toJson)]
  | literal value raw span =>
    tagged "Literal" [("value", value.toJson), ("raw", .string raw), ("span", span.toJson)]
  | unary op argument =>
    tagged "UnaryExpression" [("operator", .string op.symbol), ("argument", toJson argument)]
  | binary op left right =>
    tagged "BinaryExpression"
      [("operator", .string op.symbol), ("left", toJson left), ("right", toJson right)]
  | conditional test consequent alternate =>
    tagged "ConditionalExpression"
      [("test", toJson test), ("consequent", toJson consequent), ("alternate", toJson alternate)]
  | compound leaves => tagged "CompoundExpression" [("leaves", array (toJsons leaves))]
  | assignment target value =>
    tagged "Assignment" [("target", toJson target), ("value", toJson value)]
  | hole => tagged "EmptyElement" []

def toJsons : List Expr → List Json
  | [] => []
  | e :: rest => toJson e :: toJsons rest

end

end Expr

end Precedence
