/-!
# Operators

The operators that a grammar may use, each with its symbol. No two operators between operands share
a symbol, and no two in front of an operand do (`BinaryOperator.ofSymbol?_symbol`,
`UnaryOperator.ofSymbol?_symbol`).
-/

namespace Precedence

/-- Operators that stand between two operands. -/
inductive BinaryOperator where
  | multiply
  | divide
  | remainder
  | add
  | subtract
  | shiftLeft
  | shiftRight
  | unsignedShiftRight
  | less
  | greater
  | lessEqual
  | greaterEqual
  | instanceOf
  | member
  | equal
  | notEqual
  | strictEqual
  | strictNotEqual
  | bitAnd
  | bitXor
  | bitOr
  | logicalAnd
  | logicalOr
  | and
  | any
  deriving DecidableEq, Hashable, Inhabited

namespace BinaryOperator

def all : List BinaryOperator :=
  [multiply, divide, remainder, add, subtract, shiftLeft, shiftRight, unsignedShiftRight, less,
    greater, lessEqual, greaterEqual, instanceOf, member, equal, notEqual, strictEqual,
    strictNotEqual, bitAnd, bitXor, bitOr, logicalAnd, logicalOr, and, any]

def symbol : BinaryOperator → String
  | multiply => "*"
  | divide => "/"
  | remainder => "%"
  | add => "+"
  | subtract => "-"
  | shiftLeft => "<<"
  | shiftRight => ">>"
  | unsignedShiftRight => ">>>"
  | less => "<"
  | greater => ">"
  | lessEqual => "<="
  | greaterEqual => ">="
  | instanceOf => "instanceof"
  | member => "in"
  | equal => "=="
  | notEqual => "!="
  | strictEqual => "==="
  | strictNotEqual => "!=="
  | bitAnd => "&"
  | bitXor => "^"
  | bitOr => "|"
  | logicalAnd => "&&"
  | logicalOr => "||"
  | and => "AND"
  | any => "ANY"

def ofSymbol? (symbol : String) : Option BinaryOperator :=
  all.find? (·.symbol == symbol)

theorem ofSymbol?_symbol (op : BinaryOperator) : ofSymbol? op.symbol = some op := by
  cases op <;> rfl

end BinaryOperator

/-- Operators that stand in front of their operand. -/
inductive UnaryOperator where
  | not
  | logicalNot
  | bitNot
  | minus
  | plus
  | typeOf
  deriving DecidableEq, Hashable, Inhabited

namespace UnaryOperator

def all : List UnaryOperator :=
  [not, logicalNot, bitNot, minus, plus, typeOf]

def symbol : UnaryOperator → String
  | not => "NOT"
  | logicalNot => "!"
  | bitNot => "~"
  | minus => "-"
  | plus => "+"
  | typeOf => "typeof"

def ofSymbol? (symbol : String) : Option UnaryOperator :=
  all.find? (·.symbol == symbol)

theorem ofSymbol?_symbol (op : UnaryOperator) : ofSymbol? op.symbol = some op := by
  cases op <;> rfl

end UnaryOperator

/-- A text that is no operator. -/
structure UnknownOperator where
  text : String

def UnknownOperator.message (unknown : UnknownOperator) : String :=
  "unknown operator `" ++ unknown.text ++ "`"

end Precedence
