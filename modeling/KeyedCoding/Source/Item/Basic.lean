import KeyedCoding.Source.Generics

/-!
# Items as data

Structs, enums and unions are kept in their parts, down to each field and its comma; of every other
item only what its declaration needs is kept, beside the tokens it is printed with.  The tokens of
an item are put together again from its parts.
-/

namespace KeyedCoding

/-- A field of a struct, union or variant. -/
structure Field where
  attributes : List Attribute
  visibility : Tokens
  /-- The name, unless the field is positional. -/
  name : Option Token
  colon : Tokens
  type : Tokens
  /-- The comma behind the field, if there is one. -/
  comma : Tokens

/-- The fields of a struct or variant, with the span of their brackets. -/
inductive Fields where
  | named (fields : List Field) (span : Span)
  | unnamed (fields : List Field) (span : Span)
  | unit

/-- A variant of an enum. -/
structure Variant where
  attributes : List Attribute
  name : Token
  fields : Fields
  /-- The equals sign and the number behind it, if there is one. -/
  discriminant : Tokens
  comma : Tokens

/-- What kind of item is not taken apart. -/
inductive PlainKind where
  | function
  | trait
  | implementation
  | other
deriving DecidableEq, Repr

/-- The parts of an item behind its attributes and visibility. -/
inductive ItemBody where
  | struct (keyword : Tokens) (name : Token) (generics : Generics) (fields : Fields)
      (semicolon : Tokens)
  | enum (keyword : Tokens) (name : Token) (generics : Generics) (variants : List Variant)
      (span : Span)
  | union (keyword : Tokens) (name : Token) (generics : Generics) (fields : List Field)
      (span : Span)
  /-- Any other item: its tokens up to its body, and the content of the body. -/
  | plain (kind : PlainKind) (name : Option Token) (lead : Tokens) (body : Option (Tokens × Span))

/-- An item. -/
structure Item where
  attributes : List Attribute
  visibility : Tokens
  body : ItemBody

namespace Field

/-- The tokens of a field without the comma behind it. -/
def tokens (f : Field) : Tokens :=
  Attribute.tokensOf f.attributes ++ f.visibility ++ f.name.toList ++ f.colon ++ f.type

/-- The span of a field. -/
def span (f : Field) : Span := f.tokens.extent

end Field

namespace Fields

/-- The fields in order. -/
def toList : Fields → List Field
  | named fields _ => fields
  | unnamed fields _ => fields
  | unit => []

/-- The tokens of fields with their commas. -/
def listTokens (fields : List Field) : Tokens := fields.flatMap fun f => f.tokens ++ f.comma

/-- The tokens of fields between their brackets. -/
def tokens : Fields → Tokens
  | named fields span => [.group .brace (listTokens fields) span]
  | unnamed fields span => [.group .paren (listTokens fields) span]
  | unit => []

/-- The same fields, each changed. -/
def map (change : Field → Field) : Fields → Fields
  | named fields span => named (fields.map change) span
  | unnamed fields span => unnamed (fields.map change) span
  | unit => unit

end Fields

namespace Variant

/-- The tokens of a variant without the comma behind it. -/
def tokens (v : Variant) : Tokens :=
  Attribute.tokensOf v.attributes ++ v.name :: (v.fields.tokens ++ v.discriminant)

/-- The span of a variant. -/
def span (v : Variant) : Span := v.tokens.extent

end Variant

namespace ItemBody

/-- The tokens of the parts of an item; `inner` are the attributes that stand in its body. -/
def tokens (inner : Tokens) : ItemBody → Tokens
  | struct keyword name generics fields semicolon =>
      let start := keyword ++ name :: generics.declared
      match fields with
      | .unnamed _ _ => start ++ fields.tokens ++ generics.conditionTokens ++ semicolon
      | _ => start ++ generics.conditionTokens ++ fields.tokens ++ semicolon
  | enum keyword name generics variants span =>
      keyword ++ name :: (generics.declared ++ generics.conditionTokens
        ++ [.group .brace (variants.flatMap fun v => v.tokens ++ v.comma) span])
  | union keyword name generics fields span =>
      keyword ++ name :: (generics.declared ++ generics.conditionTokens
        ++ [.group .brace (Fields.listTokens fields) span])
  | plain _ _ lead body =>
      match body with
      | some (content, span) => lead ++ [.group .brace (inner ++ content) span]
      | none => lead

end ItemBody

namespace Item

/-- The tokens of an item. -/
def tokens (item : Item) : Tokens :=
  let outer := item.attributes.filter fun a => !a.inner
  let inner := item.attributes.filter fun a => a.inner
  Attribute.tokensOf outer ++ item.visibility ++ item.body.tokens (Attribute.tokensOf inner)

/-- An item kept as it was written. -/
def verbatim (tokens : Tokens) : Item := ⟨[], [], .plain .other none tokens none⟩

end Item

end KeyedCoding
