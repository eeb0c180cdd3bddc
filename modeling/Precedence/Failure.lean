import Precedence.Text.Span
import Precedence.Text.Lines

/-!
# Failures

Everything that can go wrong for a user, by its cause, and the words for it.
-/

namespace Precedence

open Text

/-- A named text. -/
structure Source where
  name : String
  text : String
  deriving DecidableEq

/-- Where a failure points: a position, the span of the offending text if known, a hint, and the
source once it is attached. -/
structure Site where
  position : Position
  span : Option Span := none
  help : Option String := none
  source : Option Source := none
  deriving DecidableEq

inductive Failure where
  /-- No token pattern matches the text that begins with `snippet`. -/
  | lexical (snippet : String) (site : Site)
  /-- A numeral without a finite value. -/
  | nonFiniteNumber (text : String) (site : Site)
  /-- At the token of that index one of the alternatives was expected. -/
  | unexpected (expected : List String) (found : String) (tokenIndex : Nat) (site : Site)
  /-- Input is left after a complete expression. -/
  | trailing (found : String) (tokenIndex : Nat) (site : Site)
  /-- A token pattern that cannot be read. -/
  | pattern (source : String)
  /-- Options that cannot be used; `undecodable` if they could not even be read. -/
  | options (problem : String) (undecodable : Bool)
  /-- A file that cannot be read. -/
  | unreadable (path : String)
  /-- The operator-precedence parser cannot go on. -/
  | operator (problem : String) (site : Site)
  deriving DecidableEq

/-- The classes of failures. -/
inductive FailureClass where
  | lexical
  | numericRange
  | syntactic
  | pattern
  | options
  | files
  | operator
  deriving DecidableEq

/-- The code under which a class is reported. -/
def FailureClass.code : FailureClass → String
  | lexical => "exprkit::lex"
  | numericRange => "exprkit::lex::number"
  | syntactic => "exprkit::syntax"
  | pattern => "exprkit::grammar"
  | options => "exprkit::config"
  | files => "exprkit::io"
  | operator => "exprkit::pratt"

namespace Failure

def category : Failure → FailureClass
  | lexical .. => .lexical
  | nonFiniteNumber .. => .numericRange
  | unexpected .. => .syntactic
  | trailing .. => .syntactic
  | pattern .. => .pattern
  | options .. => .options
  | unreadable .. => .files
  | operator .. => .operator

def site? : Failure → Option Site
  | lexical _ site => some site
  | nonFiniteNumber _ site => some site
  | unexpected _ _ _ site => some site
  | trailing _ _ site => some site
  | operator _ site => some site
  | pattern _ => none
  | options _ _ => none
  | unreadable _ => none

def position? (f : Failure) : Option Position :=
  f.site?.map (·.position)

def span? (f : Failure) : Option Span :=
  f.site?.bind (·.span)

def help? (f : Failure) : Option String :=
  f.site?.bind (·.help)

def source? (f : Failure) : Option Source :=
  f.site?.bind (·.source)

/-- The failure with its source attached, if it points anywhere. -/
def withSource (source : Source) : Failure → Failure
  | lexical snippet site => lexical snippet { site with source := some source }
  | nonFiniteNumber text site => nonFiniteNumber text { site with source := some source }
  | unexpected expected found i site =>
    unexpected expected found i { site with source := some source }
  | trailing found i site => trailing found i { site with source := some source }
  | operator problem site => operator problem { site with source := some source }
  | f => f

/-- Alternatives in words: commas between them and `or` in front of the last. -/
def joinAlternatives : List String → String
  | [] => "an expression"
  | [only] => only
  | alternatives =>
    ", ".intercalate alternatives.dropLast ++ " or " ++ alternatives.getLastD ""

def atPosition (p : Position) : String :=
  "at line " ++ toString p.line ++ ", column " ++ toString p.column

/-- What is said to the user; of a pattern only that it is invalid. -/
def message : Failure → String
  | lexical snippet site =>
    "Lexical error " ++ atPosition site.position ++ ": no token matches `" ++ snippet ++ "`"
  | nonFiniteNumber text site =>
    "Type error " ++ atPosition site.position ++ ": numeric literal `" ++ text ++
      "` is not a finite number"
  | unexpected expected found _ site =>
    "Syntax error " ++ atPosition site.position ++ ": expected " ++ joinAlternatives expected ++
      ", found " ++ found
  | trailing found _ site =>
    "Syntax error " ++ atPosition site.position ++ ": unexpected trailing " ++ found
  | pattern source => "Invalid token pattern `" ++ source ++ "`"
  | options problem _ => "Configuration error: " ++ problem
  | unreadable path => "Could not read `" ++ path ++ "`"
  | operator problem site => "Pratt parse error " ++ atPosition site.position ++ ": " ++ problem

/-- What stands beside the marked span. -/
def label : Failure → String
  | lexical .. => "no token pattern matches here"
  | nonFiniteNumber .. => "not a finite number"
  | unexpected expected _ _ _ => "expected " ++ joinAlternatives expected
  | trailing .. => "unexpected token after a complete expression"
  | operator problem _ => problem
  | pattern _ => ""
  | options _ _ => ""
  | unreadable _ => ""

/-- A computation goes on with what the one before gives, and gives something only if that does. -/
theorem bind_eq_ok_iff {α β : Type} {x : Except Failure α} {f : α → Except Failure β} {b : β} :
    x >>= f = .ok b ↔ ∃ a, x = .ok a ∧ f a = .ok b := by
  rcases x with failure | a
  · simp [bind, Except.bind]
  · simp [bind, Except.bind]

/-- A computation in two steps fails in the first one or in the second. -/
theorem bind_eq_error_iff {α β : Type} {x : Except Failure α} {f : α → Except Failure β}
    {failure : Failure} :
    x >>= f = .error failure ↔ x = .error failure ∨ ∃ a, x = .ok a ∧ f a = .error failure := by
  rcases x with failure | a
  · simp [bind, Except.bind]
  · simp [bind, Except.bind]

/-- What a computation gives, if the failures are of no interest. -/
theorem eq_ok_of_toOption {α : Type} {x : Except Failure α} {a : α} (h : x.toOption = some a) :
    x = .ok a := by
  rcases x with failure | a'
  · simp [Except.toOption] at h
  · exact congrArg Except.ok (Option.some.inj h)

end Failure

end Precedence
