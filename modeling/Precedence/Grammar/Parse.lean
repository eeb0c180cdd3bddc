import Precedence.Classifier
import Precedence.Grammar.Patterns
import Precedence.Grammar.Rules

/-!
# Parsing with a grammar

`Grammar.ofOptions` makes a grammar of options without faults. `Grammar.parse` splits a text into
tokens and recognizes all of them as one program. Where that fails, the furthest failure is
reported, unless the nesting limit was met, or a program ends there and more tokens follow it.
-/

namespace Precedence

open Text

structure Grammar where
  options : GrammarOptions
  classifier : Classifier

namespace Grammar

def ofOptions (options : GrammarOptions) : Except Failure Grammar := do
  let options ← options.validate
  return ⟨options, ← Classifier.empty.registerAll (patterns options)⟩

def tokenize (grammar : Grammar) (text : String) : Except Failure (List Token) :=
  grammar.classifier.tokenize text

/-- What stands at an index, in words, and where. Behind the last token the input ends. -/
def locate (tokens : Array Token) (index : Nat) : String × Site :=
  match tokens[index]? with
  | some t => (t.describe, { position := t.position, span := some t.span })
  | none =>
    ("end of input",
      match tokens.back? with
      | some last =>
        { position := ⟨last.position.line, last.position.column + last.text.length⟩
          span := some (.point last.span.stop) }
      | none => { position := ⟨1, 1⟩, span := some (.point 0) })

/-- One of the alternatives was expected at an index. -/
def unexpected (tokens : Array Token) (expected : List String) (index : Nat) : Failure :=
  let (found, site) := locate tokens index
  .unexpected expected found index site

def tooDeep (tokens : Array Token) (index : Nat) : Failure :=
  let (found, site) := locate tokens index
  .unexpected ["at most " ++ toString nestingLimit ++ " levels of nesting"] found index
    { site with help := some "nesting too deep" }

def trailing (tokens : Array Token) (index : Nat) : Failure :=
  let (found, site) := locate tokens index
  .trailing found index
    { site with help := some "separate expressions with `,` or remove the extra input" }

/-- What a finished parse says. Where tokens are left over, a failure further on explains them
better than the tokens themselves. -/
def verdict (result : Option (List Part)) (s : ParseState Production Part) : Except Failure Expr :=
  let furthest := unexpected s.tokens s.expected s.furthest
  match s.overflow with
  | some index => .error (tooDeep s.tokens index)
  | none =>
    match result with
    | none => .error furthest
    | some parts =>
      if s.hasNext then
        if s.position < s.furthest then .error furthest
        else .error (trailing s.tokens s.position)
      else
        match parts.head?.bind Part.expr? with
        | some e => .ok e
        | none => .error furthest

/-- Recognizes all tokens as one program. -/
def parseTokens (grammar : Grammar) (tokens : List Token) : Except Failure Expr :=
  let (result, s) := (graph grammar.options).apply (program grammar.options)
    (grammar.options.strategy.start tokens.toArray)
  verdict result s

def parse (grammar : Grammar) (text : String) : Except Failure Expr := do
  grammar.parseTokens (← grammar.tokenize text)

end Grammar

end Precedence
