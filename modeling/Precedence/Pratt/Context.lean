import Precedence.Pratt.Parse

/-!
# A parse in steps

A context is a cursor together with the number of expressions that are open around it. It can be
stepped by hand: the next token is looked at, taken, or asked to be some symbol, and an expression
is read. Reading one opens an expression and closes it again whatever came of it, and so do those
that read one within another. The context is kept as a failure leaves it.
-/

namespace Precedence.Pratt

structure Context where
  cursor : Cursor
  /-- The number of expressions that are open. -/
  depth : Nat := 0

namespace Context

def ofTokens (tokens : List Token) : Except Failure Context := do
  return { cursor := ← Cursor.ofTokens tokens }

/-- Does something with the cursor. -/
def through {α : Type} (f : Cursor → α × Cursor) (x : Context) : α × Context :=
  ((f x.cursor).1, { x with cursor := (f x.cursor).2 })

def peek (x : Context) : Option (Token × Symbol) :=
  x.cursor.peek

def consume (x : Context) : Option (Token × Symbol) × Context :=
  x.through Cursor.consume

def expect (x : Context) (symbol : Symbol) : Except Failure Token × Context :=
  x.through fun c => c.expect symbol

/-- What is said of an expression that would be one too many. -/
def tooDeep (x : Context) : Failure :=
  x.cursor.failure ("nesting too deep: more than " ++ toString depthLimit ++ " levels")

/-- Opens an expression, if it is not one too many. -/
def enter (x : Context) : Except Failure Context :=
  if x.depth < depthLimit then .ok { x with depth := x.depth + 1 } else .error x.tooDeep

/-- Closes the last expression that was opened. -/
def leave (x : Context) : Context :=
  { x with depth := x.depth - 1 }

/-- Reads a term, or fails; in either case a context is left. -/
abbrev Stepper := Context → Except Failure Term × Context

/-- Reads what an opening token opens. -/
def readOpening (deeper : (precedence : Nat) → Stepper) (t : Token) (symbol : Symbol) :
    Opening → Stepper
  | .name, x => (.ok (.name t.text), x)
  | .literal, x =>
    match t.value with
    | .number value => (.ok (.number value t.text), x)
    | .text value => (.ok (.string value), x)
  | .operator, x =>
    match deeper frontPrecedence x with
    | (.error e, x) => (.error e, x)
    | (.ok operand, x) => (.ok (.prefixed symbol operand), x)
  | .group closing, x =>
    match deeper 0 x with
    | (.error e, x) => (.error e, x)
    | (.ok term, x) =>
      match x.expect closing with
      | (.error e, x) => (.error e, x)
      | (.ok _, x) => (.ok term, x)

/-- Extends a term as long as operators of more than the given precedence follow, at most `fuel`
times. -/
def extend (table : Table) (deeper : (precedence : Nat) → Stepper) (precedence : Nat) :
    (fuel : Nat) → Term → Stepper
  | 0, left, x => (.ok left, x)
  | fuel + 1, left, x =>
    match x.peek with
    | none => (.ok left, x)
    | some (_, symbol) =>
      match table.joining? symbol with
      | none => (.ok left, x)
      | some joining =>
        if joining.precedence ≤ precedence then (.ok left, x)
        else
          match deeper joining.operandPrecedence x.consume.2 with
          | (.error e, x) => (.error e, x)
          | (.ok right, x) => extend table deeper precedence fuel (.operation left symbol right) x

/-- Reads an expression that is open. Each extension of it consumes a token. -/
def readBinding (table : Table) (deeper : (precedence : Nat) → Stepper) (precedence : Nat) :
    Stepper := fun x =>
  match x.consume with
  | (none, x) => (.error (x.cursor.failure "expected an expression but found end of input"), x)
  | (some (t, symbol), x) =>
    match table.opening? symbol with
    | none => (.error (failureAt t ("could not parse " ++ t.describe)), x)
    | some opening =>
      match readOpening deeper t symbol opening x with
      | (.error e, x) => (.error e, x)
      | (.ok left, x) => extend table deeper precedence x.cursor.rest.length left x

/-- Opens an expression, reads it and closes it, at most `fuel` calls deep. With more fuel than
expressions may still be opened, it is `enter` that refuses. -/
def readNested (table : Table) : (fuel : Nat) → (precedence : Nat) → Stepper
  | 0, _, x => (.error x.tooDeep, x)
  | fuel + 1, precedence, x =>
    match x.enter with
    | .error e => (.error e, x)
    | .ok x =>
      let (result, x) := readBinding table (readNested table fuel) precedence x
      (result, x.leave)

/-- Reads an expression whose operators outside of groups bind more tightly than `precedence`. -/
def readExpression (table : Table) (precedence : Nat) : Stepper :=
  readNested table (depthLimit + 1) precedence

/-- What can be done with a context. -/
inductive Step where
  | peek
  | consume
  | expect (symbol : Symbol)
  | read (precedence : Nat)

/-- What a step answers. -/
inductive Answer where
  | sign (next : Option (Token × Symbol))
  | token (result : Except Failure Token)
  | term (result : Except Failure Term)

/-- The answer of a step, and the context that it leaves, whether it fails or not. -/
def step (table : Table) (x : Context) : Step → Answer × Context
  | .peek => (.sign x.peek, x)
  | .consume => (.sign x.consume.1, x.consume.2)
  | .expect symbol => (.token (x.expect symbol).1, (x.expect symbol).2)
  | .read precedence =>
    (.term (readExpression table precedence x).1, (readExpression table precedence x).2)

/-- The context after some steps. -/
def run (table : Table) (x : Context) (steps : List Step) : Context :=
  steps.foldl (fun x s => (x.step table s).2) x

end Context

end Precedence.Pratt
