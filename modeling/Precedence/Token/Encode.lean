import Precedence.Json.Basic
import Precedence.Token

/-!
# Tokens as JSON

A token is an object; groups of its pattern appear only if there are any.
-/

namespace Precedence

def Span.toJson (s : Span) : Json :=
  .object [("start", .natural s.start), ("end", .natural s.stop)]

def TokenValue.toJson : TokenValue → Json
  | number value => .number value
  | text value => .string value

def Token.toJson (t : Token) : Json :=
  .object <|
    [("kind", .string t.kind.label), ("text", .string t.text), ("value", t.value.toJson)] ++
    (if t.captures.isEmpty then []
    else [("captures", .array (t.captures.map (Json.ofOption .string)))]) ++
    [("span", t.span.toJson), ("line", .natural t.position.line),
      ("column", .natural t.position.column)]

end Precedence
