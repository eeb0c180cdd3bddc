import Precedence.Grammar.Options
import Precedence.Grammar.Part

/-!
# Rules of a grammar

An expression is a conditional over the loosest level of operators; a level is a chain of operands
of the next tighter level; the tightest are operators in front of a primary. A primary is an
identifier, a literal, or a compound in parentheses, in which expressions stand again. The whole
program is a compound too.
-/

namespace Precedence.Grammar

/-- A compound stands in parentheses, or is the whole program. -/
inductive Place where
  | group
  | program
  deriving DecidableEq, Hashable

/-- The nodes of the grammar, each under a name of its own. -/
inductive Production where
  | identifier
  | stringLiteral
  | numberLiteral
  | nullLiteral
  | booleanLiteral
  | regexLiteral
  | hole (place : Place)
  | target (place : Place)
  | assignment (place : Place)
  | compound (place : Place)
  | unaryOperator
  | unary
  | binaryOperator (level : Nat)
  | application (level : Nat)
  | level (level : Nat)
  | conditional
  deriving DecidableEq, Hashable

abbrev GrammarRule := Rule Production Part

variable (options : GrammarOptions)

def node (production : Production) (rule : GrammarRule) (reduce : Reducer Part) : GrammarRule :=
  options.strategy.node production rule reduce

def literal : GrammarRule :=
  .any <|
    [node options .stringLiteral (.kind .string) Part.reduceString,
      node options .numberLiteral (.kind .number) Part.reduceNumber,
      node options .nullLiteral (.kind .null) Part.reduceNull,
      node options .booleanLiteral (.kind .boolean) Part.reduceBoolean] ++
    (if options.regexLiterals then
      [node options .regexLiteral (.kind .regex) Part.reduceRegex]
    else [])

/-- An assignment, where the options admit them, or an expression. -/
def assignable (place : Place) (expression : GrammarRule) : GrammarRule :=
  if options.assignments then
    .any
      [node options (.assignment place)
        (.all
          [node options (.target place) (.kind .identifier) Part.reduceIdentifier,
            .verbatim "=", expression])
        Part.reduceAssignment,
        expression]
  else expression

/-- A comma and a hole for every further one. -/
def elision (place : Place) : GrammarRule :=
  .all [.verbatim ",", .star (node options (.hole place) (.verbatim ",") Part.reduceHole)]

def compound (place : Place) (expression : GrammarRule) : GrammarRule :=
  let element := assignable options place expression
  node options (.compound place)
    (.all [element, .star (.all [elision options place, element])])
    Part.reduceCompound

/-- The reference that stands for an expression within an expression. -/
def nested : GrammarRule :=
  .reference 0

def primary : GrammarRule :=
  .any
    [node options .identifier (.kind .identifier) Part.reduceIdentifier,
      literal options,
      .all [.verbatim "(", compound options .group nested, .verbatim ")"]]

def unary : GrammarRule :=
  let operator := node options .unaryOperator
    (.any (options.unaryOperators.map fun op => .verbatim op.symbol)) Part.reduceUnaryOperator
  node options .unary (.all [.star operator, primary options]) Part.reduceUnary

/-- A chain of operands of the next tighter level. -/
def level (number : Nat) (operators : List BinaryOperator) (operand : GrammarRule) : GrammarRule :=
  let operator := node options (.binaryOperator number)
    (.any (operators.map fun op => .verbatim op.symbol)) Part.reduceBinaryOperator
  let application := node options (.application number) (.all [operator, operand])
    Part.reduceApplication
  node options (.level number) (.all [operand, .star application]) Part.reduceLevel

/-- The levels of a table, counted from `number`, over the operand of the tightest one. -/
def levels (number : Nat) (operand : GrammarRule) : List (List BinaryOperator) → GrammarRule
  | [] => operand
  | operators :: looser => levels (number + 1) (level options number operators operand) looser

def expression : GrammarRule :=
  let test := levels options 1 (unary options) options.precedence
  node options .conditional
    (.all [test, .optional (.all [.verbatim "?", nested, .verbatim ":", nested])])
    Part.reduceConditional

/-- The rule for a whole text. -/
def program : GrammarRule :=
  compound options .program (expression options)

/-- The one reference of the grammar is to its expressions. -/
def graph : RuleGraph Production Part :=
  .close .isOpen 0 (expression options)

end Precedence.Grammar
