import KeyedCoding.Derivation.Catalog

/-!
# What attributes ask for

The options that the attributes of a declaration, a member or a variant amount to.  A later
attribute replaces what an earlier one of its name asked for.
-/

namespace KeyedCoding

/-- Options of a declaration. -/
structure ContainerOptions where
  /-- The protocols asked for; none unless coding is asked for at all. -/
  protocols : Option (List Tokens)
  memberInit : Bool
  strategy : KeyStrategy

namespace ContainerOptions

/-- The options without attributes. -/
def initial : ContainerOptions := ⟨none, false, .verbatim⟩

/-- The options after one more attribute. -/
def adding (o : ContainerOptions) (a : Attribute) : Except Failure ContainerOptions :=
  match Known.of? a with
  | some .codable => do
      let protocols ← a.protocols
      .ok { o with protocols := some protocols }
  | some .memberInit => .ok { o with memberInit := true }
  | some .codingKeys => do
      let strategy ← a.strategy
      .ok { o with strategy }
  | _ => .ok o

/-- The options of attributes. -/
def ofAttributes (attributes : List Attribute) : Except Failure ContainerOptions :=
  attributes.foldlM adding initial

end ContainerOptions

/-- A key given by an attribute, with the span of the attribute. -/
structure GivenKey where
  key : String
  span : Span
deriving DecidableEq, Repr

/-- Options of a member. -/
structure MemberOptions where
  key : Option GivenKey
  helper : Option Tokens
  default : Option Expression
  initial : Option Expression
  ignoreDecoding : Bool
  ignoreEncoding : Bool

namespace MemberOptions

/-- The options without attributes. -/
def none : MemberOptions := ⟨Option.none, Option.none, Option.none, Option.none, false, false⟩

/-- The options after one more attribute. -/
def adding (o : MemberOptions) (a : Attribute) : Except Failure MemberOptions :=
  match Known.of? a with
  | some .codedAt => do
      let key ← a.keyArgument
      .ok { o with key := some ⟨key, a.span⟩ }
  | some .codedBy => do
      let helper ← a.pathArgument
      .ok { o with helper := some helper }
  | some .defaultValue => do
      let e ← a.expressionArgument
      .ok { o with default := some e }
  | some .initial => do
      let e ← a.expressionArgument
      .ok { o with initial := some e }
  | some .ignoreCoding => .ok { o with ignoreDecoding := true, ignoreEncoding := true }
  | some .ignoreDecoding => .ok { o with ignoreDecoding := true }
  | some .ignoreEncoding => .ok { o with ignoreEncoding := true }
  | _ => .ok o

/-- The options of attributes. -/
def ofAttributes (attributes : List Attribute) : Except Failure MemberOptions :=
  attributes.foldlM adding none

/-- Whether the member takes no part in coding. -/
def ignored (o : MemberOptions) : Bool := o.ignoreDecoding && o.ignoreEncoding

/-- The expression that stands for the member where it is not given. -/
def preset (o : MemberOptions) : Option Expression := o.default <|> o.initial

end MemberOptions

/-- An expression as it is assigned to a member: a string literal is converted first, anything else
is used as written. -/
def Expression.assigned (e : Expression) : Tokens :=
  match e.kind with
  | .literal .string =>
      Make.path true ["core", "convert", "Into", "into"] ++ [Make.parens e.tokens]
  | _ => e.tokens

/-- The code for a member that is not read: its preset, or the default of its type. -/
def MemberOptions.fallback (o : MemberOptions) : Tokens :=
  match o.preset with
  | some e => e.assigned
  | Option.none => Make.path true ["core", "default", "Default", "default"] ++ [Make.parens []]

/-- Options of a variant. -/
structure VariantOptions where
  key : Option GivenKey

namespace VariantOptions

/-- The options after one more attribute. -/
def adding (o : VariantOptions) (a : Attribute) : Except Failure VariantOptions :=
  match Known.of? a with
  | some .codedAs => do
      let key ← a.keyArgument
      .ok ⟨some ⟨key, a.span⟩⟩
  | _ => .ok o

/-- The options of attributes. -/
def ofAttributes (attributes : List Attribute) : Except Failure VariantOptions :=
  attributes.foldlM adding ⟨none⟩

end VariantOptions

end KeyedCoding
