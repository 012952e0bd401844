import KeyedCoding.Coding.Shape
import KeyedCoding.Source.Literal
import KeyedCoding.Source.Parser

/-!
# Closed expressions as data

The datum that a closed expression stands for in a place of a given shape: literals, negated
numbers, empty and optional values, and variants of declared enums applied to closed expressions.
-/

namespace KeyedCoding

namespace Constant

/-- The shapes of the members of a declared enum's variant. -/
abbrev Variants := String → String → Option (List Shape)

/-- The fraction of digits and a power of ten. -/
def fraction (digits : Nat) (power : Int) : Nat × Nat :=
  if 0 ≤ power then (digits * Nat.pow 10 power.toNat, 1) else (digits, Nat.pow 10 (-power).toNat)

/-- The kind of number or text that a literal stands for: the suffix of a float makes whole digits a
float. -/
def meant (text : String) : LiteralKind :=
  match LiteralText.kind text, LiteralText.intSuffix text with
  | .int, "f32" | .int, "f64" => .float
  | kind, _ => kind

/-- The datum of a literal. -/
def ofLiteral (shape : Shape) (negative : Bool) (text : String) : Option Datum :=
  match meant text, shape with
  | .string, .string => some (.string (LiteralText.stringValue text))
  | .char, .char => (LiteralText.charValue? text).map .char
  | .int, .int kind =>
      let n : Int := LiteralText.intValue text
      let signed := if negative then -n else n
      if kind.fits signed then some (.int signed) else none
  | .float, .float64 =>
      let (digits, power) := LiteralText.decimalValue text
      let (numerator, denominator) := fraction digits power
      some (.float64 (Binary64.ofRatio negative numerator denominator))
  | .float, .float32 =>
      let (digits, power) := LiteralText.decimalValue text
      let (numerator, denominator) := fraction digits power
      some (.float32 (Binary32.ofRatio negative numerator denominator))
  | _, _ => none

/-- Tokens divided at their commas; a comma at the end divides nothing. -/
def splitArguments : Tokens → List Tokens
  | [] => []
  | .punct ',' _ _ :: rest => [] :: splitArguments rest
  | t :: rest =>
      match rest, splitArguments rest with
      | .punct ',' _ _ :: _, _ :: more => [t] :: more
      | _, part :: more => (t :: part) :: more
      | _, [] => [[t]]

mutual

/-- The datum of an expression in a place of a shape. -/
def eval (variants : Variants) : Nat → Shape → Tokens → Option Datum
  | 0, _, _ => none
  | fuel + 1, .box inner, tokens =>
      match tokens with
      | [.ident "Box" _, .punct ':' _ _, .punct ':' _ _, .ident "new" _, .group .paren body _] =>
          eval variants fuel inner body
      | _ => none
  | fuel + 1, shape, tokens =>
      match shape, tokens with
      | _, [.literal text _] => ofLiteral shape false text
      | _, [.punct '-' _ _, .literal text _] => ofLiteral shape true text
      | _, [.group .paren body _] => eval variants fuel shape body
      | .bool, [.ident "true" _] => some (.bool true)
      | .bool, [.ident "false" _] => some (.bool false)
      | .option _, [.ident "None" _] => some .none
      | .option inner, [.ident "Some" _, .group .paren body _] =>
          (eval variants fuel inner body).map .some
      | .list _, [.ident "Vec" _, .punct ':' _ _, .punct ':' _ _, .ident "new" _,
          .group .paren [] _] => some (.list [])
      | .string, [.ident "String" _, .punct ':' _ _, .punct ':' _ _, .ident "new" _,
          .group .paren [] _] => some (.string "")
      | .string, [.ident "String" _, .punct ':' _ _, .punct ':' _ _, .ident "from" _,
          .group .paren body _] => eval variants fuel .string body
      | .named name, [.ident _ _, .punct ':' _ _, .punct ':' _ _, .ident variant _] => do
          let shapes ← variants name variant
          if shapes.isEmpty then some (.variant variant []) else none
      | .named name, [.ident _ _, .punct ':' _ _, .punct ':' _ _, .ident variant _,
          .group .paren body _] => do
          let shapes ← variants name variant
          let fields ← evalAll variants fuel shapes (splitArguments body)
          some (.variant variant fields)
      | _, _ => none

/-- The data of expressions in places of shapes. -/
def evalAll (variants : Variants) : Nat → List Shape → List Tokens → Option (List Datum)
  | 0, _, _ => none
  | _ + 1, [], [] => some []
  | fuel + 1, s :: shapes, t :: tokens => do
      let x ← eval variants fuel s t
      let xs ← evalAll variants fuel shapes tokens
      some (x :: xs)
  | _ + 1, _, _ => none

end

/-- The datum that closed tokens stand for in a place of a shape. -/
def ofTokens? (variants : Variants) (shape : Shape) (tokens : Tokens) : Option Datum :=
  eval variants (2 * Token.sizeAll tokens + 4) shape tokens

end Constant

end KeyedCoding
