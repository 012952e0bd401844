import KeyedCoding.Coding.Codec
import KeyedCoding.Json.Reader
import KeyedCoding.Json.Writer

/-!
# Coding through JSON text

Value trees to text and back.  A fault of the text is an error at the root path.
-/

namespace KeyedCoding

namespace Value

/-- Compact JSON text. -/
def compactText (v : Value) : String := v.toJson.compact

/-- Indented JSON text. -/
def prettyText (v : Value) : String := v.toJson.pretty 0

/-- The tree of JSON text. -/
def ofText (text : String) : Except CodingError Value :=
  match Json.read text with
  | .ok j => .ok (ofJson j)
  | .error fault => .error ⟨.root, .json fault.message⟩

end Value

namespace Registry

/-- The datum of JSON text. -/
def fromText (types : Registry) (shape : Shape) (text : String) : Except CodingError Datum := do
  let v ← Value.ofText text
  types.fromValue shape v

/-- The compact JSON text of a datum. -/
def toText (types : Registry) (shape : Shape) (x : Datum) : Except CodingError String := do
  let v ← types.toValue shape x
  .ok v.compactText

/-- The indented JSON text of a datum. -/
def toPrettyText (types : Registry) (shape : Shape) (x : Datum) : Except CodingError String := do
  let v ← types.toValue shape x
  .ok v.prettyText

end Registry

end KeyedCoding
