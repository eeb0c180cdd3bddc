import Precedence.LineScanner
import Precedence.Pratt.Table
import Precedence.Pratt.Term

/-!
# The Pratt parser

An expression begins with a symbol that can open one; it is extended as long as the next symbol
binds more tightly than what stands in front. Expressions may stand within one another at most
`depthLimit` deep. A cursor stays where a failure left it, so that more can be tried from there.
-/

namespace Precedence.Pratt

/-- How deep expressions may stand within one another. -/
def depthLimit : Nat := 256

/-- A place among tokens that all are symbols. -/
structure Cursor where
  /-- The number of tokens in front. -/
  position : Nat := 0
  rest : List (Token × Symbol)
  /-- The place behind the last token. -/
  finish : Site

namespace Cursor

/-- The place behind the last of the tokens. -/
def finishOf (tokens : List Token) : Site :=
  match tokens.getLast? with
  | some last =>
    { position := ⟨last.position.line, last.position.column + last.text.length⟩
      span := some (.point last.span.stop) }
  | none => { position := ⟨1, 1⟩, span := some (.point 0) }

def ofTokens (tokens : List Token) : Except Failure Cursor := do
  let rest ← tokens.mapM fun t => (Symbol.ofToken t).map fun s => (t, s)
  return { rest, finish := finishOf tokens }

def peek (c : Cursor) : Option (Token × Symbol) :=
  c.rest.head?

def atEnd (c : Cursor) : Bool :=
  c.rest.isEmpty

/-- The place behind the next token, if there is one. -/
def advance (c : Cursor) : Cursor :=
  match c.rest with
  | [] => c
  | _ :: rest => { c with position := c.position + 1, rest }

/-- The next token, and the place behind it. -/
def consume (c : Cursor) : Option (Token × Symbol) × Cursor :=
  (c.peek, c.advance)

/-- A failure at the next token, or at the end. -/
def failure (c : Cursor) (problem : String) : Failure :=
  match c.peek with
  | some (t, _) => failureAt t problem
  | none => .operator problem c.finish

/-- The next token, which must be the symbol, and the place behind it. -/
def expect (c : Cursor) (symbol : Symbol) : Except Failure Token × Cursor :=
  match c.peek with
  | some (t, s) =>
    if s = symbol then (.ok t, c.advance)
    else
      (.error (failureAt t ("expected " ++ symbol.describe ++ " but found " ++ t.describe)), c)
  | none =>
    (.error (.operator ("expected " ++ symbol.describe ++ " but found end of input") c.finish), c)

end Cursor

/-- Reads a term, or fails; in either case a place is reached. -/
abbrev Reader := Cursor → Except Failure Term × Cursor

/-- Reads what an opening token opens. The operand of an operator and what is in a group stand one
level deeper. -/
def readOpening (deeper : (precedence : Nat) → Reader) (t : Token) (symbol : Symbol) :
    Opening → Reader
  | .name, c => (.ok (.name t.text), c)
  | .literal, c =>
    match t.value with
    | .number value => (.ok (.number value t.text), c)
    | .text value => (.ok (.string value), c)
  | .operator, c =>
    match deeper frontPrecedence c with
    | (.error e, c) => (.error e, c)
    | (.ok operand, c) => (.ok (.prefixed symbol operand), c)
  | .group closing, c =>
    match deeper 0 c with
    | (.error e, c) => (.error e, c)
    | (.ok term, c) =>
      match c.expect closing with
      | (.error e, c) => (.error e, c)
      | (.ok _, c) => (.ok term, c)

/-- Extends a term as long as operators of more than the given precedence follow, at most `fuel`
times. -/
def extend (table : Table) (deeper : (precedence : Nat) → Reader) (precedence : Nat) :
    (fuel : Nat) → Term → Reader
  | 0, left, c => (.ok left, c)
  | fuel + 1, left, c =>
    match c.peek with
    | none => (.ok left, c)
    | some (_, symbol) =>
      match table.joining? symbol with
      | none => (.ok left, c)
      | some joining =>
        if joining.precedence ≤ precedence then (.ok left, c)
        else
          match deeper joining.operandPrecedence c.advance with
          | (.error e, c) => (.error e, c)
          | (.ok right, c) => extend table deeper precedence fuel (.operation left symbol right) c

/-- Reads an expression. Each extension of it consumes a token, so no more are needed than tokens
are left. -/
def readBinding (table : Table) (deeper : (precedence : Nat) → Reader) (precedence : Nat) :
    Reader := fun c =>
  match c.consume with
  | (none, c) => (.error (c.failure "expected an expression but found end of input"), c)
  | (some (t, symbol), c) =>
    match table.opening? symbol with
    | none => (.error (failureAt t ("could not parse " ++ t.describe)), c)
    | some opening =>
      match readOpening deeper t symbol opening c with
      | (.error e, c) => (.error e, c)
      | (.ok left, c) => extend table deeper precedence c.rest.length left c

/-- Reads an expression whose operators outside of groups bind more tightly than `precedence`, with
at most `levels` expressions within one another. -/
def readWithin (table : Table) : (levels : Nat) → (precedence : Nat) → Reader
  | 0, _, c =>
    (.error (c.failure ("nesting too deep: more than " ++ toString depthLimit ++ " levels")), c)
  | levels + 1, precedence, c => readBinding table (readWithin table levels) precedence c

def readExpression (table : Table) (precedence : Nat) : Reader :=
  readWithin table depthLimit precedence

/-- Reads all tokens as one expression. -/
def parseTokens (table : Table) (tokens : List Token) : Except Failure Term := do
  let (result, c) := readExpression table 0 (← Cursor.ofTokens tokens)
  let term ← result
  match c.peek with
  | some (t, _) =>
    throw (failureAt t ("unexpected " ++ t.describe ++ " after a complete expression"))
  | none => return term

def parse (table : Table) (text : String) : Except Failure Term := do
  parseTokens table (← LineScanner.scan text)

end Precedence.Pratt
