import KeyedCoding.Derivation.Declaration

/-!
# Coding keys

The enum of wire keys that is generated beside a type, and the check that no two keys of one scope
are written alike.
-/

namespace KeyedCoding

/-- A wire key. -/
structure KeyEntry where
  /-- The variant of the key enum. -/
  variant : String
  /-- The text on the wire. -/
  value : String
  /-- The member or variant that the key belongs to. -/
  member : String
  /-- Where a collision is reported. -/
  span : Span
  /-- The attribute that can change the key. -/
  remap : String
deriving DecidableEq, Repr

/-- The enum of the wire keys of a type. -/
structure KeyEnum where
  ident : String
  entries : List KeyEntry
deriving DecidableEq, Repr

namespace KeyEnum

/-- The name of the key enum of a type. -/
def nameFor (typeIdent : String) : String := Identifier.unmarked typeIdent ++ "CodingKeys"

/-- The code that names a key. -/
def path (ident variant : String) : Tokens := Make.path false [ident, variant]

/-- The declaration of the key enum and of the texts of its keys. -/
def declaration (keys : KeyEnum) (visibility : Tokens) : Tokens :=
  let variants := Make.commaTerminated (keys.entries.map fun e => [Make.ident e.variant])
  let arms := Make.commaTerminated (keys.entries.map fun e =>
    Make.path false ["Self", e.variant] ++ Make.op "=>" ++ [Make.string e.value])
  let derived := Make.commaSeparated
    (["Clone", "Copy", "Debug", "PartialEq", "Eq"].map fun name => [Make.ident name])
  let lints := Make.commaSeparated
    [[Make.ident "non_camel_case_types"], [Make.ident "dead_code"]]
  let reader :=
    [Make.ident "fn", Make.ident "string_value",
      Make.parens (Make.op "&" ++ [Make.ident "self"])]
      ++ Make.op "->" ++ Make.op "&" ++ Make.lifetime "static" ++ [Make.ident "str"]
      ++ [Make.braces ([Make.ident "match"] ++ Make.op "*" ++ [Make.ident "self"]
        ++ [Make.braces arms])]
  Make.allow lints
    ++ Make.hashed [Make.ident "derive", Make.parens derived]
    ++ visibility ++ [Make.ident "enum", Make.ident keys.ident, Make.braces variants]
    ++ [Make.ident "impl"] ++ Make.path true ["codable", "CodingKey"]
    ++ [Make.ident "for", Make.ident keys.ident, Make.braces reader]

end KeyEnum

/-! ## Collisions -/

/-- The finding about an entry whose key an earlier entry already has. -/
def KeyEntry.collision (typeName : String) (first entry : KeyEntry) : Diagnostic :=
  (Diagnostic.error entry.span ("coding key \"" ++ entry.value ++ "\" of `" ++ entry.member
    ++ "` collides with `" ++ first.member ++ "` in `" ++ typeName ++ "`")).withFixIt
    ⟨"give `" ++ entry.member ++ "` a distinct key with #[" ++ entry.remap ++ "(\"...\")]", none⟩

/-- The findings about entries of one scope, `seen` being the first holders of the keys before. -/
def collisionsFrom (typeName : String) : List KeyEntry → List KeyEntry → List Diagnostic
  | _, [] => []
  | seen, entry :: rest =>
      match seen.find? fun e => e.value == entry.value with
      | some first => KeyEntry.collision typeName first entry :: collisionsFrom typeName seen rest
      | none => collisionsFrom typeName (seen ++ [entry]) rest

/-- The findings about entries of one scope: one for every entry whose key an earlier one has. -/
def collisions (typeName : String) (scope : List KeyEntry) : List Diagnostic :=
  collisionsFrom typeName [] scope

end KeyedCoding
