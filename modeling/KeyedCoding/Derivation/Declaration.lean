import KeyedCoding.Derivation.Catalog
import KeyedCoding.Source.Item

/-!
# Declarations

An item as attributes see it: what it declares, its stored members, and every place in it that
attributes can be attached to.  Stripping removes the known attributes from exactly these places.
-/

namespace KeyedCoding

/-- How the fields of a struct or variant are written. -/
inductive FieldStyle where
  | named
  | unnamed
  | unit
deriving DecidableEq, Repr

/-- The style of fields. -/
def Fields.style : Fields → FieldStyle
  | .named _ _ => .named
  | .unnamed _ _ => .unnamed
  | .unit => .unit

namespace Identifier

/-- An identifier without the mark of a raw one. -/
def unmarked (name : String) : String :=
  match name.toList with
  | 'r' :: '#' :: rest => String.ofList rest
  | _ => name

end Identifier

/-- A stored member: a field of a struct, union or variant. -/
structure StoredMember where
  /-- The name of the field, or `_0`, `_1`, … for positional ones. -/
  ident : String
  index : Nat
  named : Bool
  type : Tokens
  attributes : List Attribute
  span : Span

namespace StoredMember

/-- The member of a field at an index. -/
def ofField (index : Nat) (f : Field) : StoredMember :=
  let ident := match f.name with
    | some t => t.text
    | none => "_" ++ toString index
  ⟨ident, index, f.name.isSome, f.type, f.attributes, f.span⟩

/-- The members of fields from an index on. -/
def ofFields : Nat → List Field → List StoredMember
  | _, [] => []
  | index, f :: rest => ofField index f :: ofFields (index + 1) rest

/-- The name without the mark of a raw identifier. -/
def name (m : StoredMember) : String := Identifier.unmarked m.ident

/-- What stands behind the dot to reach the member in its struct. -/
def accessor (m : StoredMember) : Tokens :=
  [if m.named then Make.ident m.ident else Make.literal (toString m.index)]

/-- The member as a target of attributes. -/
def target (m : StoredMember) : Target := ⟨.field, m.name, m.attributes⟩

end StoredMember

/-- A variant of a declared enum. -/
structure DeclaredVariant where
  ident : String
  attributes : List Attribute
  style : FieldStyle
  members : List StoredMember
  span : Span

namespace DeclaredVariant

/-- The variant of an item. -/
def ofVariant (v : Variant) : DeclaredVariant :=
  ⟨v.name.text, v.attributes, v.fields.style, StoredMember.ofFields 0 v.fields.toList, v.span⟩

/-- The variant as a target of attributes, with its members behind it. -/
def targets (v : DeclaredVariant) : List Target :=
  ⟨.variant, v.ident, v.attributes⟩ :: v.members.map StoredMember.target

end DeclaredVariant

/-- A declaration. -/
structure Declaration where
  kind : DeclarationKind
  ident : Option String
  visibility : Tokens
  generics : Generics
  /-- The attributes of the declaration itself. -/
  attributes : List Attribute
  style : FieldStyle
  members : List StoredMember
  variants : List DeclaredVariant
  item : Item

namespace PlainKind

/-- The kind of declaration of an item that is not taken apart. -/
def declared : PlainKind → DeclarationKind
  | function => .function
  | trait => .trait
  | implementation => .implementation
  | other => .other

end PlainKind

namespace Declaration

/-- The declaration of an item. -/
def ofItem (item : Item) : Declaration :=
  match item.body with
  | .struct _ name generics fields _ =>
      ⟨.struct, some name.text, item.visibility, generics, item.attributes, fields.style,
        StoredMember.ofFields 0 fields.toList, [], item⟩
  | .enum _ name generics variants _ =>
      ⟨.enum, some name.text, item.visibility, generics, item.attributes, .unit, [],
        variants.map DeclaredVariant.ofVariant, item⟩
  | .union _ name generics fields _ =>
      ⟨.union, some name.text, item.visibility, generics, item.attributes, .named,
        StoredMember.ofFields 0 fields, [], item⟩
  | .plain kind name _ _ =>
      let visibility := if name.isSome then item.visibility else []
      ⟨kind.declared, name.map Token.text, visibility, .none, item.attributes, .unit, [], [], item⟩

/-- The declaration with an attribute in front of its own. -/
def withMarker (d : Declaration) (marker : Attribute) : Declaration :=
  { d with attributes := marker :: d.attributes }

/-- The name in messages: the identifier, or the kind where there is none. -/
def typeName (d : Declaration) : String := d.ident.getD d.kind.name

/-- The declaration and its members in source order, each as a target of attributes. -/
def targets (d : Declaration) : List Target :=
  ⟨d.kind, d.typeName, d.attributes⟩ :: d.members.map StoredMember.target
    ++ d.variants.flatMap DeclaredVariant.targets

end Declaration

/-! ## Stripping -/

/-- The attributes that are not known. -/
def Attribute.foreign (attributes : List Attribute) : List Attribute :=
  attributes.filter fun a => !Known.isKnown a

/-- The field without known attributes. -/
def Field.stripped (f : Field) : Field := { f with attributes := Attribute.foreign f.attributes }

/-- The variant and its fields without known attributes. -/
def Variant.stripped (v : Variant) : Variant :=
  { v with attributes := Attribute.foreign v.attributes, fields := v.fields.map Field.stripped }

/-- The parts of an item without known attributes. -/
def ItemBody.stripped : ItemBody → ItemBody
  | .struct keyword name generics fields semicolon =>
      .struct keyword name generics (fields.map Field.stripped) semicolon
  | .enum keyword name generics variants span =>
      .enum keyword name generics (variants.map Variant.stripped) span
  | .union keyword name generics fields span =>
      .union keyword name generics (fields.map Field.stripped) span
  | .plain kind name lead body => .plain kind name lead body

/-- The item without known attributes. -/
def Item.stripped (item : Item) : Item :=
  { item with attributes := Attribute.foreign item.attributes, body := item.body.stripped }

end KeyedCoding
