/-
Glasshouse.Yaml — documents written with indentation, of which JSON is nearly a
part. Line ends of all three kinds are one; a text without a document stands
for nothing.

Limit. Half of a surrogate pair is no character, and two halves written one after
the other do not make one either. Each is read as the replacement character;
`writesCharacters` tells texts without such escapes.
-/
import Glasshouse.Json.Reader
import Glasshouse.Yaml.Token.Reader
import Glasshouse.Yaml.Value

namespace Glasshouse.Yaml

/-- A text with line ends of one kind. -/
def unifyLineEnds : List Char → List Char
  | '\r' :: '\n' :: r => '\n' :: unifyLineEnds r
  | '\r' :: r => '\n' :: unifyLineEnds r
  | c :: r => c :: unifyLineEnds r
  | [] => []

/-- The document that a text writes. -/
def read (s : String) : Except Problem Doc := do
  let tokens ← Token.ofText (unifyLineEnds s.toList)
  match ← Node.ofTokens tokens with
  | some n => n.value
  | none => .ok .null

/-- Whether the escapes of a text write characters, and those of the JSON texts that it
may hold as well. -/
def writesCharacters (s : String) : Bool :=
  !writesHalf s.toList && match read s with
    | .ok d => d.texts.all Json.writesCharacters
    | .error _ => true

end Glasshouse.Yaml
