import KeyedCoding.Derivation.Context
import KeyedCoding.Derivation.Keys
import KeyedCoding.Derivation.Options

/-!
# Coded types

A struct or enum as coding sees it: its members with their keys and options, and the keys of its
variants.
-/

namespace KeyedCoding

/-- A stored member with its key and its options. -/
structure CodedMember where
  stored : StoredMember
  key : KeyEntry
  options : MemberOptions

namespace CodedMember

/-- Whether the member is read when its type is decoded. -/
def decoded (m : CodedMember) : Bool := !m.options.ignoreDecoding

/-- Whether the member is written when its type is encoded. -/
def encoded (m : CodedMember) : Bool := !m.options.ignoreEncoding

/-- Whether the member takes part in coding at all. -/
def coded (m : CodedMember) : Bool := !m.options.ignored

/-- The member under a variant of the key enum.  A name without a given key is converted by the
strategy; a position is not. -/
def ofStored (m : StoredMember) (keyVariant : String) (s : KeyStrategy) :
    Except Failure CodedMember := do
  let options ← MemberOptions.ofAttributes m.attributes
  let (value, span) := match options.key with
    | some given => (given.key, given.span)
    | none => (if m.named then s.apply m.name else m.name, m.span)
  .ok ⟨m, ⟨keyVariant, value, m.name, span, Known.codedAt.name⟩, options⟩

/-- The keys of members that take part in coding. -/
def keysOf (members : List CodedMember) : List KeyEntry :=
  (members.filter coded).map key

end CodedMember

/-- A variant with its key and its members. -/
structure CodedCase where
  ident : String
  key : KeyEntry
  style : FieldStyle
  members : List CodedMember

namespace CodedCase

/-- The case of a variant. -/
def ofVariant (v : DeclaredVariant) (s : KeyStrategy) : Except Failure CodedCase := do
  let options ← VariantOptions.ofAttributes v.attributes
  let (value, span) := match options.key with
    | some given => (given.key, given.span)
    | none => (s.apply v.ident, v.span)
  let members ← v.members.mapM fun m =>
    CodedMember.ofStored m (Identifier.unmarked v.ident ++ "__" ++ m.name) s
  .ok ⟨v.ident, ⟨v.ident, value, v.ident, span, Known.codedAs.name⟩, v.style, members⟩

end CodedCase

/-- The members or cases of a coded type. -/
inductive CodedBody where
  | struct (style : FieldStyle) (members : List CodedMember)
  | enum (cases : List CodedCase)

/-- A type that can be coded. -/
structure CodedType where
  ident : String
  visibility : Tokens
  generics : Generics
  body : CodedBody

namespace CodedType

/-- The coded type of a declaration; nothing for anything but a struct or enum. -/
def ofDeclaration (d : Declaration) (s : KeyStrategy) : Except Failure (Option CodedType) :=
  match d.ident, d.kind with
  | some ident, .struct => do
      let members ← d.members.mapM fun m => CodedMember.ofStored m m.ident s
      .ok (some ⟨ident, d.visibility, d.generics, .struct d.style members⟩)
  | some ident, .enum => do
      let cases ← d.variants.mapM fun v => CodedCase.ofVariant v s
      .ok (some ⟨ident, d.visibility, d.generics, .enum cases⟩)
  | _, _ => .ok none

/-- The scopes in which keys must differ. -/
def scopes (t : CodedType) : List (List KeyEntry) :=
  match t.body with
  | .struct _ members => [CodedMember.keysOf members]
  | .enum cases =>
      cases.map CodedCase.key :: cases.map fun c => CodedMember.keysOf c.members

/-- The key enum of a coded type. -/
def keys (t : CodedType) : KeyEnum where
  ident := KeyEnum.nameFor t.ident
  entries :=
    match t.body with
    | .struct _ members => CodedMember.keysOf members
    | .enum cases => cases.flatMap fun c => c.key :: CodedMember.keysOf c.members

/-- The findings about keys that are written alike. -/
def keyFindings (t : CodedType) : List Diagnostic := t.scopes.flatMap (collisions t.ident)

end CodedType

/-! ## Protocols -/

/-- Whether a list occurs within another. -/
def hasInfix (part : List Char) : List Char → Bool
  | [] => part.isEmpty
  | c :: rest => part.isPrefixOf (c :: rest) || hasInfix part rest

/-- The protocol of a name among candidates: the first one written exactly so, or the bare name if
some candidate's text merely contains it. -/
def findProtocol (name : String) (candidates : List Tokens) : Option Tokens :=
  match candidates.find? fun c => c.text == name with
  | some c => some c
  | none =>
      if candidates.any fun c => hasInfix name.toList c.text.toList then some [Make.ident name]
      else none

end KeyedCoding
