import Precedence.Failure
import Precedence.Operator
import Precedence.Rule.Strategy

/-!
# Options of a grammar

Which operators a grammar has, how tightly they bind, and what else it admits.
`GrammarOptions.fault?` finds what is wrong with them: it goes through the table level by level and
operator by operator, and the first fault counts.
-/

namespace Precedence

structure GrammarOptions where
  /-- The operators between operands, level by level, the tightest first. -/
  precedence : List (List BinaryOperator)
  /-- The operators in front of an operand. -/
  unaryOperators : List UnaryOperator
  regexLiterals : Bool
  assignments : Bool
  strategy : Strategy
  deriving DecidableEq

/-- What makes options unusable. -/
inductive OptionsFault where
  | noLevels
  /-- The level of that number, counted from 1, has no operators. -/
  | emptyLevel (number : Nat)
  /-- A slash cannot both divide and open a regular expression. -/
  | ambiguousSlash
  | repeated (op : BinaryOperator)
  deriving DecidableEq

def OptionsFault.message : OptionsFault → String
  | noLevels => "precedence table has no levels"
  | emptyLevel number => "precedence level " ++ toString number ++ " is empty"
  | ambiguousSlash => "operator `/` needs `regex_literals: false`"
  | repeated op => "operator `" ++ op.symbol ++ "` appears on more than one precedence level"

def OptionsFault.failure (fault : OptionsFault) : Failure :=
  .options fault.message false

namespace GrammarOptions

/-- Sums, conjunction and choice, with regular expressions as literals. -/
def standard : GrammarOptions where
  precedence := [[.add, .subtract], [.and], [.any]]
  unaryOperators := [.not]
  regexLiterals := true
  assignments := true
  strategy := .backtracking

/-- All operators, without regular expressions as literals. -/
def extended : GrammarOptions where
  precedence :=
    [[.multiply, .divide, .remainder],
      [.add, .subtract],
      [.shiftLeft, .shiftRight, .unsignedShiftRight],
      [.less, .greater, .lessEqual, .greaterEqual, .instanceOf, .member],
      [.equal, .notEqual, .strictEqual, .strictNotEqual],
      [.bitAnd],
      [.bitXor],
      [.bitOr],
      [.logicalAnd],
      [.logicalOr],
      [.and],
      [.any]]
  unaryOperators := [.not, .logicalNot, .bitNot, .minus, .plus, .typeOf]
  regexLiterals := false
  assignments := true
  strategy := .backtracking

/-- The first fault in a level, given the operators in front of it. -/
def faultInLevel? (regexLiterals : Bool) (seen : List BinaryOperator) :
    List BinaryOperator → Option OptionsFault
  | [] => none
  | op :: ops =>
    if op = .divide && regexLiterals then some .ambiguousSlash
    else if seen.contains op then some (.repeated op)
    else faultInLevel? regexLiterals (op :: seen) ops

/-- The first fault in levels that are counted from `number`. -/
def faultInLevels? (regexLiterals : Bool) (seen : List BinaryOperator) (number : Nat) :
    List (List BinaryOperator) → Option OptionsFault
  | [] => none
  | level :: levels =>
    if level.isEmpty then some (.emptyLevel number)
    else
      faultInLevel? regexLiterals seen level <|>
        faultInLevels? regexLiterals (level ++ seen) (number + 1) levels

def fault? (options : GrammarOptions) : Option OptionsFault :=
  if options.precedence.isEmpty then some .noLevels
  else faultInLevels? options.regexLiterals [] 1 options.precedence

/-- The options, unless they have a fault. -/
def validate (options : GrammarOptions) : Except Failure GrammarOptions :=
  match options.fault? with
  | some fault => .error fault.failure
  | none => .ok options

end GrammarOptions

end Precedence
