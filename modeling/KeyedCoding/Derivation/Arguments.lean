import KeyedCoding.Derivation.Settings

/-!
# Arguments of attributes

Each function reads the arguments of one sort of attribute.  Checking an attribute and using it
read its arguments by the same function.
-/

namespace KeyedCoding

namespace Attribute

/-- The attribute with dots for its arguments, as messages show it. -/
def pattern (a : Attribute) : String :=
  (if a.inner then "#!" else "#") ++ "[" ++ "::".intercalate (Meta.names a.path) ++ "(...)]"

/-- Nothing behind the path. -/
def noArguments (a : Attribute) : Except Failure Unit :=
  match a.content with
  | .path _ => .ok ()
  | .list _ _ _ span => .error ⟨"unexpected token in attribute", span.opening⟩
  | .nameValue _ equals _ => .error ⟨"unexpected token in attribute", Tokens.extent equals⟩

/-- The arguments in brackets, parsed to their end. -/
def parseArguments {α : Type} (p : Grammar → Parser α) (a : Attribute) : Except Failure α :=
  match a.content with
  | .path path =>
      .error ⟨"expected attribute arguments in parentheses: " ++ a.pattern, Tokens.extent path⟩
  | .nameValue _ equals _ =>
      .error ⟨"expected parentheses: " ++ a.pattern, Tokens.extent equals⟩
  | .list _ _ body span => Language.parse p span.closing body

/-- A string that is not empty. -/
def keyArgument (a : Attribute) : Except Failure String := do
  let t ← parseArguments Language.string a
  let key := LiteralText.stringValue t.text
  if key.isEmpty then .error ⟨"coding key must not be empty", t.span⟩ else .ok key

/-- A path. -/
def pathArgument (a : Attribute) : Except Failure Tokens := parseArguments Language.path a

/-- An expression. -/
def expressionArgument (a : Attribute) : Except Failure Expression :=
  parseArguments Language.expression a

/-- The protocols asked for: those listed, or both if nothing follows the path. -/
def protocols (a : Attribute) : Except Failure (List Tokens) :=
  match a.content with
  | .path _ => .ok [[Make.ident "Decodable"], [Make.ident "Encodable"]]
  | .list _ _ _ _ => parseArguments Language.types a
  | .nameValue _ _ _ =>
      .error ⟨"expected #[codable] or #[codable(Decodable, Encodable)]", a.content.span⟩

/-- The key strategy asked for. -/
def strategy (a : Attribute) : Except Failure KeyStrategy := KeyStrategy.ofContent a.content

end Attribute

end KeyedCoding
