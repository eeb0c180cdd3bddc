import Precedence.Regex.CharSet

/-!
# Regular expressions and their matches

A regular expression is matched from the left with backtracking: of the ways in which it matches
the beginning of a text, `find` takes the first one in order of preference that its continuation
accepts. The left alternative is preferred to the right one and, in a greedy repetition, a further
round to none. In a repetition without a bound, a round that reads nothing is the last one, and is
none of those that need not be.
-/

namespace Precedence.Regex

open Text

/-- A condition on the place between two characters. -/
inductive Assertion where
  | textStart
  | textEnd
  | lineStart
  | lineEnd
  /-- The start of a line where carriage returns end lines too. -/
  | anyLineStart
  | anyLineEnd
  | wordBoundary (isWord : Char → Bool)
  | notWordBoundary (isWord : Char → Bool)
  | wordStart (isWord : Char → Bool)
  | wordEnd (isWord : Char → Bool)
  | wordStartHalf (isWord : Char → Bool)
  | wordEndHalf (isWord : Char → Bool)

/-- Whether an assertion holds between the character in front, if any, and the one behind. -/
def Assertion.holds : Assertion → Option Char → Option Char → Bool
  | textStart, before, _ => before.isNone
  | textEnd, _, after => after.isNone
  | lineStart, before, _ => before.isNone || before == some '\n'
  | lineEnd, _, after => after.isNone || after == some '\n'
  | anyLineStart, before, after =>
    before.isNone || before == some '\n' || (before == some '\r' && after != some '\n')
  | anyLineEnd, before, after =>
    after.isNone || after == some '\r' || (after == some '\n' && before != some '\r')
  | wordBoundary isWord, before, after => before.any isWord != after.any isWord
  | notWordBoundary isWord, before, after => before.any isWord == after.any isWord
  | wordStart isWord, before, after => !before.any isWord && after.any isWord
  | wordEnd isWord, before, after => before.any isWord && !after.any isWord
  | wordStartHalf isWord, before, _ => !before.any isWord
  | wordEndHalf isWord, _, after => !after.any isWord

end Precedence.Regex

namespace Precedence

inductive Regex where
  | empty
  | char (set : Regex.CharSet)
  | assertion (a : Regex.Assertion)
  | seq (r s : Regex)
  | alt (r s : Regex)
  /-- Remembers what `r` reads as the group of that number. -/
  | group (index : Nat) (r : Regex)
  /-- At least `least` rounds of `r` and, if there is a bound, at most `most`. -/
  | repeated (greedy : Bool) (least : Nat) (most : Option Nat) (r : Regex)

namespace Regex

/-- A place in a text: the character in front, how many characters the match has read so far, what
is left to read, and the groups closed so far with their ends, the latest first. -/
structure Spot where
  before : Option Char
  used : Nat
  rest : List Char
  groups : List (Nat × Nat × Nat)

namespace Spot

/-- The place behind the next character `c`, from where `rest` is left. -/
def advance (s : Spot) (c : Char) (rest : List Char) : Spot :=
  ⟨some c, s.used + 1, rest, s.groups⟩

def close (s : Spot) (index start : Nat) : Spot :=
  { s with groups := (index, start, s.used) :: s.groups }

/-- The place itself and those behind the next one, two, … characters of the set, as far as they
reach but no more than `limit`; in reverse order, and in front of `behind`. -/
def run (set : CharSet) : Option Nat → List Char → Spot → List Spot → List Spot
  | some 0, _, s, behind => s :: behind
  | _, [], s, behind => s :: behind
  | limit, c :: rest, s, behind =>
    if set.contains c then
      run set (limit.map (· - 1)) rest (s.advance c rest) (s :: behind)
    else s :: behind

end Spot

/-- A search: what it finds from a place, given what is to be found behind it. -/
abbrev Search (α : Type) := (Spot → Option α) → Spot → Option α

namespace Search

variable {α : Type}

/-- One choice or the other, in order of preference. -/
def prefer (first : Bool) (a b : Unit → Option α) : Option α :=
  if first then a () <|> b () else b () <|> a ()

/-- Exactly `n` rounds. -/
def exactly (body : Search α) : Nat → Search α
  | 0, k => k
  | n + 1, k => body (exactly body n k)

/-- At most `n` rounds. -/
def atMost (greedy : Bool) (body : Search α) : Nat → Search α
  | 0, k => k
  | n + 1, k => fun s => prefer greedy (fun _ => body (atMost greedy body n k) s) (fun _ => k s)

/-- At most `n` rounds, each of which reads something. -/
def many (greedy : Bool) (body : Search α) (k : Spot → Option α) : Nat → Spot → Option α
  | 0, s => k s
  | n + 1, s =>
    prefer greedy
      (fun _ => body (fun t => if s.used < t.used then many greedy body k n t else none) s)
      (fun _ => k s)

/-- One round, and unless it reads nothing, any number of others that read something. -/
def plus (greedy : Bool) (body : Search α) : Search α :=
  fun k s =>
    body (fun t => if s.used < t.used then many greedy body k t.rest.length t else k t) s

/-- Any number of characters of a set up to a limit. -/
def chars (greedy : Bool) (set : CharSet) (limit : Option Nat) : Search α :=
  fun k s =>
    let ends := s.run set limit s.rest []
    (if greedy then ends else ends.reverse).findSome? k

end Search

/-- The first way, in order of preference, in which the expression matches at a place so that `k`
accepts the place behind the match. -/
def find {α : Type} : Regex → Search α
  | empty, k, s => k s
  | char set, k, s =>
    match s.rest with
    | c :: rest => if set.contains c then k (s.advance c rest) else none
    | [] => none
  | assertion a, k, s => if a.holds s.before s.rest.head? then k s else none
  | seq r t, k, s => find r (find t k) s
  | alt r t, k, s => find r k s <|> find t k s
  | group index r, k, s => find r (fun t => k (t.close index s.used)) s
  | repeated greedy least most (char set), k, s =>
    Search.exactly (find (char set)) least
      (Search.chars greedy set (most.map (· - least)) k) s
  | repeated greedy least (some most) r, k, s =>
    Search.exactly (find r) least (Search.atMost greedy (find r) (most - least) k) s
  | repeated greedy 0 none r, k, s =>
    Search.prefer greedy (fun _ => Search.plus greedy (find r) k s) (fun _ => k s)
  | repeated greedy (least + 1) none r, k, s =>
    Search.exactly (find r) least (Search.plus greedy (find r) k) s

end Regex

/-- A pattern: an expression and the number of its groups. -/
structure Pattern where
  body : Regex
  groups : Nat

/-- A match of the beginning of a text: its length in characters, and for each group the characters
from where to where it matched, if it took part. -/
structure Match where
  length : Nat
  groups : List (Option (Nat × Nat))
  deriving DecidableEq

namespace Pattern

/-- The preferred match of the beginning of `text`, in front of which `before` stands. -/
def matchAt (p : Pattern) (before : Option Char) (text : List Char) : Option Match :=
  (p.body.find some ⟨before, 0, text, []⟩).map fun s =>
    ⟨s.used, (List.range p.groups).map fun i => s.groups.lookup (i + 1)⟩

end Pattern

end Precedence
