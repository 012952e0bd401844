import KeyedCoding.Coding.Schema
import KeyedCoding.Derivation.Code
import KeyedCoding.Meaning.Constant
import KeyedCoding.Meaning.TypeName

/-!
# Declared types as schemas

What the generated methods of a declaration do, as the schema of the declared type: keys and
options decide where each member comes from and goes to, the tokens of its type give its shape,
and the closed expressions of its attributes give its default.
-/

namespace KeyedCoding

/-- What the members of a declaration refer to: types, helpers and closed expressions by their
tokens, and the defaults of types. -/
structure Surroundings where
  /-- The shape that the tokens of a type stand for. -/
  shape? : Tokens → Option Shape
  /-- The helper that a path names. -/
  helper? : Tokens → Option Helper
  /-- The datum that a closed expression stands for in a place of a shape. -/
  constant? : Shape → Tokens → Option Datum
  /-- The datum that stands for a shape where none is given. -/
  default? : Shape → Option Datum

namespace CodedMember

/-- The datum of a member that is not read: its preset, or the default of its type. -/
def fallback? (s : Surroundings) (shape : Shape) (o : MemberOptions) : Option Datum :=
  match o.preset with
  | some e => s.constant? shape e.tokens
  | none => s.default? shape

/-- Where a member comes from when its type is decoded. -/
def source? (s : Surroundings) (shape : Shape) (m : CodedMember) : Option Source :=
  if m.decoded then
    match m.options.default with
    | some e => (s.constant? shape e.tokens).map .defaulted
    | none => some .required
  else (fallback? s shape m.options).map .fixed

/-- The helper of a member, if it has one. -/
def helper? (s : Surroundings) (m : CodedMember) : Option (Option Helper) :=
  match m.options.helper with
  | none => some none
  | some path => (s.helper? path).map some

/-- The preset of a member, if it has one. -/
def preset? (s : Surroundings) (shape : Shape) (m : CodedMember) : Option (Option Datum) :=
  match m.options.preset with
  | none => some none
  | some e => (s.constant? shape e.tokens).map some

/-- The member as coding treats it. -/
def schema? (s : Surroundings) (m : CodedMember) : Option Member := do
  let shape ← s.shape? m.stored.type
  let helper ← m.helper? s
  let source ← m.source? s shape
  let preset ← m.preset? s shape
  some ⟨m.stored.ident, m.stored.name, m.stored.index, m.stored.named, m.key.value, shape, helper,
    source, m.encoded, preset⟩

end CodedMember

namespace CodedCase

/-- The variant as coding treats it. -/
def schema? (s : Surroundings) (c : CodedCase) : Option Case := do
  let members ← c.members.mapM (CodedMember.schema? s)
  some ⟨c.ident, c.key.value, members⟩

end CodedCase

namespace CodedType

/-- The schema of a coded type. -/
def schema? (s : Surroundings) (t : CodedType) : Option Schema :=
  match t.body with
  | .struct _ members => do
      let members ← members.mapM (CodedMember.schema? s)
      some (.struct t.ident members)
  | .enum cases => do
      let cases ← cases.mapM (CodedCase.schema? s)
      some (.enum t.ident cases)

end CodedType

namespace Declaration

/-- The coded type that a declaration's own attributes make it. -/
def codedType? (d : Declaration) : Option CodedType :=
  match ContainerOptions.ofAttributes d.attributes with
  | .ok o =>
      match CodedType.ofDeclaration d o.strategy with
      | .ok t => t
      | .error _ => none
  | .error _ => none

/-- Whether a declaration asks for a protocol. -/
def conforms (d : Declaration) (direction : Direction) : Bool :=
  match ContainerOptions.ofAttributes d.attributes with
  | .ok o => (findProtocol direction.protocol (o.protocols.getD [])).isSome
  | .error _ => false

/-- The scope of a declaration whose type parameters are replaced by shapes. -/
def typeScope (declared : List String) (d : Declaration) (arguments : List Shape) : TypeScope :=
  let parameters := (d.generics.typeNames.map Tokens.text).zip arguments
  let self := Shape.named (Shape.instanceName (d.ident.getD "") arguments)
  ⟨("Self", self) :: parameters, declared⟩

end Declaration

/-- Declarations that refer to each other, and the helpers that they use. -/
structure Library where
  declarations : List Declaration
  helpers : List (String × Helper)

namespace Library

/-- The names of the declared types. -/
def names (l : Library) : List String := l.declarations.filterMap Declaration.ident

/-- The declaration of a name. -/
def find? (l : Library) (name : String) : Option Declaration :=
  l.declarations.find? fun d => d.ident == some name

/-- The shapes of the members of a variant of a declared enum without type parameters. -/
def variants (l : Library) : Constant.Variants := fun name variant => do
  let d ← l.find? name
  let v ← d.variants.find? fun v => v.ident == variant
  v.members.mapM fun m => (d.typeScope l.names []).shapeOf? m.type

/-- What the members of a declaration refer to in the library: a helper goes by the last name of
its path. -/
def surroundings (l : Library) (d : Declaration) (arguments : List Shape) : Surroundings where
  shape? := (d.typeScope l.names arguments).shapeOf?
  helper? := fun path => do
    let name ← (Meta.names path).getLast?
    l.helpers.lookup name
  constant? := Constant.ofTokens? l.variants
  default? := Shape.zero?

/-- The schema of a declared type with its type parameters replaced by shapes. -/
def schema? (l : Library) (name : String) (arguments : List Shape) : Option Schema := do
  let d ← l.find? name
  let t ← d.codedType?
  t.schema? (l.surroundings d arguments)

/-- The instances of the declarations without type parameters. -/
def plainInstances (l : Library) : List (String × List Shape) :=
  (l.declarations.filter fun d => d.generics.typeNames.isEmpty).filterMap fun d =>
    d.ident.map fun name => (name, [])

/-- Whether the declaration of a name asks for a protocol. -/
def conforms (l : Library) (name : String) (direction : Direction) : Bool :=
  (l.find? name).any fun d => d.conforms direction

/-- The registry of instances of declared types; those without meaning are left out. -/
def registry (l : Library) (instances : List (String × List Shape)) : Registry where
  schemas := instances.filterMap fun (name, arguments) => do
    let schema ← l.schema? name arguments
    some (Shape.instanceName name arguments, schema)

end Library

end KeyedCoding
