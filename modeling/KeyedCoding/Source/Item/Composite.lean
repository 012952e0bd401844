import KeyedCoding.Source.Item.Basic

/-!
# Structs, enums and unions

Fields with and without names, the variants of an enum, and the declarations that hold them.  The
conditions of a struct stand before its fields in braces and behind its fields in parentheses.
-/

namespace KeyedCoding

namespace Grammar

open KeyedCoding.Parser

/-! ## Fields and variants -/

/-- The tokens of a visibility; a tuple behind `pub` is not part of it. -/
def visibility : Parser Tokens := do
  if ← peekWord "pub" then do
    let keyword ← word "pub"
    match ← ahead with
    | .group .paren body _ :: _ =>
        if Tokens.startsWord "in" body then do
          let scope ← grouped .paren (do
            let within ← word "in"
            let p ← plainPath
            pure (within ++ p))
          pure (keyword ++ scope)
        else
          match body with
          | [.ident name _] =>
              if name == "crate" || name == "self" || name == "super" then do
                let scope ← anyToken
                pure (keyword ++ [scope])
              else pure keyword
          | _ => pure keyword
    | _ => pure keyword
  else pure []

/-- The type of a field whose name is an underscore: it may be a record without a name, which is
kept as it was written. -/
def innerRecordType (g : Grammar) : Parser Tokens := do
  let tokens ← ahead
  if tokens.startsWord "struct"
      || (tokens.startsWord "union" && tokens.behind.startsGroup .brace) then do
    let start ← get
    let _ ← anyWord
    g.record
    since start
  else g.anyType

/-- A field with a name. -/
def namedField (g : Grammar) : Parser Field := do
  let attributes ← outerAttributes g
  let visible ← visibility
  let unnamed ← peekWord "_"
  let t ← (do
    if unnamed then anyWord else name)
  let colon ← op ":"
  let type ← (do
    if unnamed then innerRecordType g else g.anyType)
  pure ⟨attributes, visible, some t, colon, type, []⟩

/-- A field without a name. -/
def unnamedField (g : Grammar) : Parser Field := do
  let attributes ← outerAttributes g
  let visible ← visibility
  let type ← g.anyType
  pure ⟨attributes, visible, none, [], type, []⟩

/-- Fields divided by commas. -/
def fieldList (p : Parser Field) : Parser (List Field) := do
  let parts ← terminated p
  pure (parts.map fun (f, comma) => { f with comma })

/-- Fields in braces. -/
def namedFields (g : Grammar) : Parser (List Field × Span) :=
  group .brace (fieldList (namedField g))

/-- The fields in braces of a record type without a name. -/
def recordStep (g : Grammar) : Parser Unit := do
  let _ ← namedFields g

/-- Fields in parentheses. -/
def unnamedFields (g : Grammar) : Parser (List Field × Span) :=
  group .paren (fieldList (unnamedField g))

/-- A variant of an enum; a visibility before it is dropped. -/
def variant (g : Grammar) : Parser Variant := do
  let attributes ← outerAttributes g
  let _ ← visibility
  let t ← name
  let fields ← (do
    if ← peekGroup .brace then do
      let (fields, span) ← namedFields g
      pure (Fields.named fields span)
    else if ← peekGroup .paren then do
      let (fields, span) ← unnamedFields g
      pure (Fields.unnamed fields span)
    else pure Fields.unit)
  let discriminant ← (do
    if ← peekOp "=" then do
      let equals ← op "="
      let value ← g.anyExpression
      pure (equals ++ value)
    else pure [])
  pure ⟨attributes, t, fields, discriminant, []⟩

/-! ## Structs, enums and unions -/

/-- The generic parameters with conditions read later. -/
def conditioned (generics : Generics) (condition : Option WhereClause) : Generics :=
  { generics with condition }

/-- The rest of a struct behind its generic parameters. -/
def structBody (g : Grammar) (keyword : Tokens) (t : Token) (generics : Generics) :
    Parser ItemBody := do
  let condition ← whereClause g
  let tokens ← ahead
  if condition.isNone && tokens.startsGroup .paren then do
    let (fields, span) ← unnamedFields g
    let condition ← whereClause g
    if ← peekOp ";" then do
      let semicolon ← op ";"
      pure (.struct keyword t (conditioned generics condition) (.unnamed fields span) semicolon)
    else if condition.isSome then expected [.op ";"]
    else expected [.word "where", .op ";"]
  else if tokens.startsGroup .brace then do
    let (fields, span) ← namedFields g
    pure (.struct keyword t (conditioned generics condition) (.named fields span) [])
  else if tokens.startsOp [';'] then do
    let semicolon ← op ";"
    pure (.struct keyword t (conditioned generics condition) .unit semicolon)
  else if condition.isSome then expected [.group .brace, .op ";"]
  else expected [.word "where", .group .paren, .group .brace, .op ";"]

/-- A struct behind its visibility. -/
def structItem (g : Grammar) : Parser ItemBody := do
  let keyword ← word "struct"
  let t ← name
  let generics ← genericParameters g
  structBody g keyword t generics

/-- An enum behind its visibility. -/
def enumItem (g : Grammar) : Parser ItemBody := do
  let keyword ← word "enum"
  let t ← name
  let generics ← genericParameters g
  let condition ← whereClause g
  let (variants, span) ← group .brace (terminated (variant g))
  pure (.enum keyword t (conditioned generics condition)
    (variants.map fun (v, comma) => { v with comma }) span)

/-- A union behind its visibility. -/
def unionItem (g : Grammar) : Parser ItemBody := do
  let keyword ← word "union"
  let t ← name
  let generics ← genericParameters g
  let condition ← whereClause g
  let (fields, span) ← namedFields g
  pure (.union keyword t (conditioned generics condition) fields span)

end Grammar

end KeyedCoding
