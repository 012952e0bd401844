import KeyedCoding.Coding.Shape
import KeyedCoding.Source.Parser

/-!
# Types as shapes

The shape that the tokens of a type stand for: built-in types by their names, type parameters by
what they are replaced with, and declared types by name, with their arguments if they have some.
-/

namespace KeyedCoding

namespace Shape

/-- The shape as a type is written. -/
def text : Shape → String
  | bool => "bool"
  | int kind => kind.name
  | float32 => "f32"
  | float64 => "f64"
  | string => "String"
  | char => "char"
  | value => "Value"
  | option inner => "Option<" ++ inner.text ++ ">"
  | box inner => "Box<" ++ inner.text ++ ">"
  | list inner => "Vec<" ++ inner.text ++ ">"
  | map .ordered inner => "BTreeMap<String," ++ inner.text ++ ">"
  | map .hashed inner => "HashMap<String," ++ inner.text ++ ">"
  | phantom => "PhantomData"
  | named name => name

/-- The name of a declared type with arguments. -/
def instanceName (name : String) (arguments : List Shape) : String :=
  if arguments.isEmpty then name
  else name ++ "<" ++ ",".intercalate (arguments.map text) ++ ">"

/-- The shapes of the built-in types without arguments. -/
def simple? (name : String) : Option Shape :=
  match IntKind.ofName? name with
  | some kind => some (int kind)
  | none =>
      [("bool", bool), ("f32", float32), ("f64", float64), ("String", string), ("char", char),
        ("Value", value)].lookup name

end Shape

/-- The names that a type may use. -/
structure TypeScope where
  /-- What type parameters, and the type itself, are replaced with. -/
  parameters : List (String × Shape)
  /-- Names of declared types. -/
  declared : List String

namespace TypeScope

/-- The shape of a name with arguments. -/
def shape? (scope : TypeScope) (name : String) (arguments : List Shape) : Option Shape :=
  match name, arguments with
  | "Option", [s] => some (.option s)
  | "Box", [s] => some (.box s)
  | "Vec", [s] => some (.list s)
  | "BTreeMap", [.string, s] => some (.map .ordered s)
  | "HashMap", [.string, s] => some (.map .hashed s)
  | "PhantomData", [_] => some .phantom
  | name, [] =>
      scope.parameters.lookup name <|> Shape.simple? name
        <|> (if scope.declared.contains name then some (.named name) else none)
  | name, arguments =>
      if scope.declared.contains name then some (.named (Shape.instanceName name arguments))
      else none

mutual

/-- The shape at the front of tokens and the tokens behind it. -/
def read (scope : TypeScope) : Nat → Tokens → Option (Shape × Tokens)
  | 0, _ => none
  | fuel + 1, .ident _ _ :: .punct ':' _ _ :: .punct ':' _ _ :: rest => read scope fuel rest
  | fuel + 1, .ident name _ :: .punct '<' _ _ :: rest => do
      let (arguments, rest) ← readArguments scope fuel rest
      let s ← scope.shape? name arguments
      some (s, rest)
  | _ + 1, .ident name _ :: rest => do
      let s ← scope.shape? name []
      some (s, rest)
  | _ + 1, _ => none

/-- Shapes divided by commas up to a closing angle bracket. -/
def readArguments (scope : TypeScope) : Nat → Tokens → Option (List Shape × Tokens)
  | 0, _ => none
  | _ + 1, .punct '>' _ _ :: rest => some ([], rest)
  | fuel + 1, tokens => do
      let (s, rest) ← read scope fuel tokens
      match rest with
      | .punct ',' _ _ :: rest => do
          let (more, rest) ← readArguments scope fuel rest
          some (s :: more, rest)
      | .punct '>' _ _ :: rest => some ([s], rest)
      | _ => none

end

/-- The shape that the tokens of a type stand for. -/
def shapeOf? (scope : TypeScope) (tokens : Tokens) : Option Shape :=
  match scope.read (tokens.length + 1) tokens with
  | some (s, []) => some s
  | _ => none

end TypeScope

end KeyedCoding
