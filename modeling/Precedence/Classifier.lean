import Precedence.Failure
import Precedence.Number.Decimal
import Precedence.Regex.Read
import Precedence.Token

/-!
# The pattern classifier

A classifier is an ordered list of patterns, each with the kind of token that it produces. At each
place of a text the first pattern with a match that is not empty gives the next token
(`Classifier.segment?`); tokens of the kind `ignore` are left out.
-/

namespace Precedence

open Number Text

/-- A pattern, the text that it was read from, and the kind of the tokens that it matches. -/
structure TokenPattern where
  kind : TokenKind
  source : String
  pattern : Pattern

structure Classifier where
  patterns : List TokenPattern := []

/-- A match that reads something: which pattern it is of, what it read and what is left. -/
structure Segment where
  kind : TokenKind
  text : List Char
  captures : List (Option (List Char))
  rest : List Char

namespace Segment

/-- What the first group that took part matched, or else the whole segment. -/
def primary (s : Segment) : List Char :=
  (s.captures.findSome? id).getD s.text

end Segment

namespace TokenPattern

/-- The match of a pattern at a place, if there is one that reads something. -/
def segment? (p : TokenPattern) (before : Option Char) (text : List Char) : Option Segment :=
  (p.pattern.matchAt before text).bind fun m =>
    if m.length = 0 then none
    else
      some
        { kind := p.kind
          text := text.take m.length
          captures := m.groups.map fun g => g.map fun (start, stop) =>
            (text.take stop).drop start
          rest := text.drop m.length }

theorem length_rest_lt {p : TokenPattern} {before : Option Char} {c : Char} {text : List Char}
    {s : Segment} (h : p.segment? before (c :: text) = some s) :
    s.rest.length < (c :: text).length := by
  obtain ⟨m, -, hm⟩ := Option.bind_eq_some_iff.mp h
  split at hm
  · simp at hm
  · cases hm
    simp only [List.length_drop, List.length_cons]
    omega

end TokenPattern

namespace Classifier

def empty : Classifier := {}

/-- Adds a pattern under a kind; a pattern that is already there under that kind is not added
again. -/
def register (classifier : Classifier) (source : String) (kind : TokenKind) :
    Except Failure Classifier :=
  if classifier.patterns.any fun p => p.kind == kind && p.source == source then .ok classifier
  else
    match Pattern.read source.toList with
    | some pattern => .ok ⟨classifier.patterns ++ [⟨kind, source, pattern⟩]⟩
    | none => .error (.pattern source)

def registerAll (classifier : Classifier) : List (String × TokenKind) → Except Failure Classifier
  | [] => .ok classifier
  | (source, kind) :: rest => do (← classifier.register source kind).registerAll rest

/-- The next segment of a text: the match of the first pattern that has one. -/
def segment? (classifier : Classifier) (before : Option Char) (text : List Char) :
    Option Segment :=
  classifier.patterns.findSome? (·.segment? before text)

theorem length_rest_lt {classifier : Classifier} {before : Option Char} {c : Char}
    {text : List Char} {s : Segment} (h : classifier.segment? before (c :: text) = some s) :
    s.rest.length < (c :: text).length := by
  obtain ⟨_, p, _, _, hp, _⟩ := List.findSome?_eq_some_iff.mp h
  exact TokenPattern.length_rest_lt hp

/-- The token of a segment that begins at `start`; a number without a finite value is refused. -/
def token (index : LineIndex) (start : Nat) (s : Segment) : Except Failure Token :=
  let span : Span := ⟨start, start + byteLength s.text⟩
  let position := index.position start
  let value : Except Failure TokenValue :=
    if s.kind = .number then
      match Numeral.value? s.primary with
      | some x => .ok (.number x)
      | none =>
        .error (.nonFiniteNumber (String.ofList s.primary) { position, span := some span })
    else .ok (.text (String.ofList s.primary))
  value.map fun value =>
    { kind := s.kind
      text := String.ofList s.text
      value
      captures := s.captures.map fun c => c.map String.ofList
      span
      position }

/-- Where no pattern has a match that reads something. -/
def noMatch (index : LineIndex) (offset : Nat) (text : List Char) : Failure :=
  .lexical (String.ofList (text.take 12))
    { position := index.position offset
      span := some ⟨offset, offset + byteLength (text.take 1)⟩ }

/-- The tokens of a text that stands at `offset` behind the character `before`. -/
def tokensFrom (classifier : Classifier) (index : LineIndex) (offset : Nat)
    (before : Option Char) (text : List Char) : Except Failure (List Token) :=
  match text with
  | [] => .ok []
  | c :: cs =>
    match _h : classifier.segment? before (c :: cs) with
    | none => .error (noMatch index offset (c :: cs))
    | some s =>
      let tokens := fun (_ : Unit) =>
        classifier.tokensFrom index (offset + byteLength s.text) s.text.getLast? s.rest
      if s.kind = .ignore then tokens ()
      else do
        let token ← token index offset s
        return token :: (← tokens ())
termination_by text.length
decreasing_by exact length_rest_lt _h

/-- The tokens of a whole text. -/
def tokenize (classifier : Classifier) (text : String) : Except Failure (List Token) :=
  classifier.tokensFrom (.ofText text.toList) 0 none text.toList

end Classifier

end Precedence
