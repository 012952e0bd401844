import KeyedCoding.Derivation.Code

/-!
# Synthesis of methods

The bodies that decode and encode a coded type.  Fresh names are drawn in the order in which the
code is put together.
-/

namespace KeyedCoding

namespace CodedMember

/-- The key of a member in code. -/
def keyRef (keys : String) (m : CodedMember) : KeyRef := ⟨keys, m.key.variant⟩

/-- How a member is bound when its type is decoded. -/
def binding (keys container : String) (m : CodedMember) : Expanding Binding := do
  let made := fun (reading : Reading) => (⟨m.stored.ident, m.stored.type, reading⟩ : Binding)
  if m.decoded then
    match m.options.default with
    | some e => do
        let temporary ← Expanding.freshName "value"
        pure (made (.defaulted container m.options.helper (m.keyRef keys) temporary e.assigned))
    | none => pure (made (.required container m.options.helper (m.keyRef keys)))
  else pure (made (.fallback m.options.fallback))

/-- How members are bound, in order. -/
def bindings (keys container : String) : List CodedMember → Expanding (List Binding)
  | [] => pure []
  | m :: rest => do
      let b ← m.binding keys container
      let bs ← bindings keys container rest
      pure (b :: bs)

/-- What is written for members, in order; `access` is the code that refers to one. -/
def writings (keys container : String) (access : CodedMember → Tokens)
    (members : List CodedMember) : List Writing :=
  (members.filter encoded).map fun m =>
    ⟨container, m.options.helper, m.stored.ident, access m, m.keyRef keys⟩

/-- The construction from bound members. -/
def construction (path : Tokens) (style : FieldStyle) (members : List CodedMember) :
    Construction :=
  ⟨path, style, members.map fun m => m.stored.ident⟩

/-- The pattern that binds the members to be written. -/
def pattern (path : Tokens) (style : FieldStyle) (members : List CodedMember) : CasePattern :=
  ⟨path, style, members.map fun m => (m.stored.ident, m.encoded)⟩

end CodedMember

namespace CodedCase

/-- The path of a variant. -/
def path (c : CodedCase) : Tokens := Make.path false ["Self", c.ident]

/-- The arm that decodes a case. -/
def decodeArm (keys : String) (c : CodedCase) : Expanding DecodeArm := do
  let decoder ← Expanding.freshName "decoder"
  let container ← Expanding.freshName "container"
  let bindings ← CodedMember.bindings keys container c.members
  pure ⟨c.key.value, ⟨keys, c.key.variant⟩, decoder, container, bindings,
    CodedMember.construction c.path c.style c.members⟩

/-- The arms that decode cases, in order. -/
def decodeArms (keys : String) : List CodedCase → Expanding (List DecodeArm)
  | [] => pure []
  | c :: rest => do
      let arm ← c.decodeArm keys
      let arms ← decodeArms keys rest
      pure (arm :: arms)

/-- The arm that encodes a case. -/
def encodeArm (keys : String) (c : CodedCase) : Expanding EncodeArm := do
  let encoder ← Expanding.freshName "encoder"
  let container ← Expanding.freshName "container"
  pure ⟨CodedMember.pattern c.path c.style c.members, ⟨keys, c.key.variant⟩, encoder, container,
    CodedMember.writings keys container (fun m => [Make.ident m.stored.ident]) c.members⟩

/-- The arms that encode cases, in order. -/
def encodeArms (keys : String) : List CodedCase → Expanding (List EncodeArm)
  | [] => pure []
  | c :: rest => do
      let arm ← c.encodeArm keys
      let arms ← encodeArms keys rest
      pure (arm :: arms)

end CodedCase

namespace CodedType

/-- The body of the decoding method. -/
def decodeBody (t : CodedType) : Expanding DecodeBody := do
  let keys := t.keys.ident
  let container ← Expanding.freshName "container"
  match t.body with
  | .struct style members => do
      let bindings ← CodedMember.bindings keys container members
      pure (.struct container keys bindings
        (CodedMember.construction [Make.ident "Self"] style members))
  | .enum cases => do
      let tag ← Expanding.freshName "tag"
      let arms ← CodedCase.decodeArms keys cases
      pure (.enum container keys tag arms)

/-- The body of the encoding method. -/
def encodeBody (t : CodedType) : Expanding EncodeBody :=
  let keys := t.keys.ident
  match t.body with
  | .struct _ members => do
      let container ← Expanding.freshName "container"
      let access := fun (m : CodedMember) =>
        Make.op "&" ++ Make.ident "self" :: Make.op "." ++ m.stored.accessor
      pure (.struct container keys (CodedMember.writings keys container access members))
  | .enum [] => pure .never
  | .enum cases => do
      let container ← Expanding.freshName "container"
      let arms ← CodedCase.encodeArms keys cases
      pure (.enum container keys arms)

end CodedType

/-- A generated method with what its implementation needs. -/
structure Generated where
  direction : Direction
  code : Tokens
  /-- Conditions on the type parameters. -/
  predicates : List Tokens
  conformance : Tokens

namespace Direction

/-- The path of the protocol. -/
def protocolPath (d : Direction) : Tokens := Make.path true ["codable", d.protocol]

/-- The type of the method's parameter. -/
def parameterType : Direction → Tokens
  | decode =>
      Make.op "&" ++ Make.path true ["codable", "Decoder"] ++ Make.op "<" ++ Make.lifetime "_"
        ++ Make.op ">"
  | encode => Make.op "&" ++ Make.ident "mut" :: Make.path true ["codable", "Encoder"]

/-- The signature of the method. -/
def signature (d : Direction) : Tokens :=
  let parameter := Make.ident d.parameter :: Make.op ":" ++ d.parameterType
  let (parameters, value) : Tokens × Tokens := match d with
    | decode => (parameter, [Make.ident "Self"])
    | encode =>
        (Make.op "&" ++ Make.ident "self" :: Make.op "," ++ parameter, [Make.parens []])
  [Make.ident "fn", Make.ident d.method, Make.parens parameters] ++ Make.op "->"
    ++ Make.path true ["core", "result", "Result"] ++ Make.op "<" ++ value ++ Make.op ","
    ++ Make.path true ["codable", "CodingError"] ++ Make.op ">"

end Direction

namespace CodedType

/-- The conditions that a protocol puts on the type parameters. -/
def predicates (t : CodedType) (d : Direction) : List Tokens :=
  t.generics.typeNames.map fun name => name ++ Make.op ":" ++ d.protocolPath

/-- The method of a protocol, if it is among those asked for. -/
def synthesize (t : CodedType) (d : Direction) (protocols : List Tokens) :
    Expanding (Option Generated) := do
  match findProtocol d.protocol protocols with
  | none => pure none
  | some _ => do
      let code ← (match d with
        | .decode => do
            let body ← t.decodeBody
            pure body.tokens
        | .encode => do
            let body ← t.encodeBody
            pure body.tokens)
      pure (some ⟨d, code, t.predicates d, d.protocolPath⟩)

/-- Whether a protocol is asked for. -/
def requested (protocols : List Tokens) : Bool :=
  (findProtocol Direction.decode.protocol protocols).isSome
    || (findProtocol Direction.encode.protocol protocols).isSome

/-- The key enum, if a protocol is asked for; keys written alike are reported. -/
def keyDeclarations (t : CodedType) (protocols : List Tokens) : Expanding (List Tokens) := do
  if requested protocols then do
    Expanding.report t.keyFindings
    pure [t.keys.declaration t.visibility]
  else pure []

/-- The implementation of a protocol around a generated method. -/
def conformance (t : CodedType) (g : Generated) : Tokens :=
  let generics := t.generics.adding g.predicates
  Make.hashed [Make.ident "automatically_derived"]
    ++ Make.ident "impl" :: generics.implemented ++ g.conformance
    ++ [Make.ident "for", Make.ident t.ident] ++ generics.applied ++ generics.conditionTokens
    ++ [Make.braces (g.direction.signature ++ [Make.braces g.code])]

end CodedType

end KeyedCoding
