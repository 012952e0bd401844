import KeyedCoding.Coding.Schema
import KeyedCoding.Text.Quoted

/-!
# Decoding and encoding by shape

`Shape.decodeWith` and `Shape.encodeWith` descend on the shape and leave declared types to a
given function.  `Registry.decodeNamed` and `Registry.encodeNamed` tie the knot: each level of
declared types takes one step of the bound, and the depth of the tree or datum bounds the levels,
since every declared type reads an object and writes one.
-/

namespace KeyedCoding

/-! ## Decoding -/

/-- The single character of a string. -/
def singleChar (d : Decoder) (s : String) : Except CodingError Datum :=
  match s.toList with
  | [c] => .ok (.char c)
  | _ => .error ⟨d.path, .custom ("expected a single character, found " ++ Quoted.shown s)⟩

/-- The integer at a place, if the type has it. -/
def decodeInteger (kind : IntKind) (d : Decoder) : Except CodingError Int :=
  match d.value.integer? with
  | some n =>
      if kind.fits n then .ok n else .error ⟨d.path, .outOfRange (toString n) kind.name⟩
  | none => .error (d.mismatch "integer")

/-- The number at a place; integers are rounded to the nearest. -/
def decodeFloat (d : Decoder) : Except CodingError Binary64 :=
  match d.value with
  | .float x => .ok x
  | .int n => .ok (Binary64.ofInt n.toInt)
  | .uint n => .ok (Binary64.ofInt n.toNat)
  | _ => .error (d.mismatch "float")

/-- The string at a place. -/
def decodeString (d : Decoder) : Except CodingError String :=
  match d.value with
  | .string s => .ok s
  | _ => .error (d.mismatch "string")

/-- Decode items in order, each at its index. -/
def decodeItems (body : Decoding Datum) (path : CodingPath) :
    Nat → List Value → Except CodingError (List Datum)
  | _, [] => .ok []
  | index, v :: rest => do
      let x ← body ⟨v, path.child (toString index)⟩
      let xs ← decodeItems body path (index + 1) rest
      .ok (x :: xs)

/-- Decode entries in key order, each at its key. -/
def decodeEntries (body : Decoding Datum) (path : CodingPath) :
    List (String × Value) → Except CodingError (List (String × Datum))
  | [] => .ok []
  | (key, v) :: rest => do
      let x ← body ⟨v, path.child key⟩
      let xs ← decodeEntries body path rest
      .ok ((key, x) :: xs)

/-- Decode a shape; `named` decodes declared types. -/
def Shape.decodeWith (named : String → Decoding Datum) : Shape → Decoding Datum
  | .bool, d =>
      match d.value with
      | .bool b => .ok (.bool b)
      | _ => .error (d.mismatch "bool")
  | .int kind, d => (decodeInteger kind d).map .int
  | .float64, d => (decodeFloat d).map .float64
  | .float32, d => (decodeFloat d).map fun x => .float32 x.narrow
  | .string, d => (decodeString d).map .string
  | .char, d => do
      let s ← decodeString d
      singleChar d s
  | .value, d => .ok (.value d.value)
  | .option inner, d =>
      match d.value with
      | .null => .ok .none
      | _ => (inner.decodeWith named d).map .some
  | .box inner, d => inner.decodeWith named d
  | .list inner, d =>
      match d.value with
      | .array items => (decodeItems (inner.decodeWith named) d.path 0 items).map .list
      | _ => .error (d.mismatch "array")
  | .map _ inner, d =>
      match d.value with
      | .object entries => (decodeEntries (inner.decodeWith named) d.path entries).map .map
      | _ => .error (d.mismatch "object")
  | .phantom, _ => .ok .phantom
  | .named name, d => named name d

/-- Decode a member from its object. -/
def Member.decode (body : Shape → Decoding Datum) (m : Member) (c : KeyedDecoder) :
    Except CodingError Datum :=
  match m.source, m.helper with
  | .fixed x, _ => .ok x
  | .required, some helper => c.decodeWith helper.decode m.key
  | .required, none => c.decode (body m.shape) m.shape.missing m.key
  | .defaulted x, some helper =>
      match c.decodeIfPresent helper.decode m.key with
      | .ok (some y) => .ok y
      | _ => .ok x
  | .defaulted x, none =>
      match c.decodeIfPresent (body m.shape) m.key with
      | .ok (some y) => .ok y
      | _ => .ok x

/-- Decode members in declaration order. -/
def decodeMembers (body : Shape → Decoding Datum) (c : KeyedDecoder) :
    List Member → Except CodingError (List Datum)
  | [] => .ok []
  | m :: rest => do
      let x ← m.decode body c
      let xs ← decodeMembers body c rest
      .ok (x :: xs)

/-- Decode a declared type: a struct from an object, an enum from an object whose only key names
the variant and whose entry holds the variant's members. -/
def Schema.decode (body : Shape → Decoding Datum) : Schema → Decoding Datum
  | .struct _ members, d => do
      let c ← d.container
      let fields ← decodeMembers body c members
      .ok (.record fields)
  | .enum _ cases, d => do
      let c ← d.container
      let tag ← c.singleKey
      match cases.find? (fun case => case.key == tag) with
      | some case => do
          let payload ← c.nested case.key
          let inner ← payload.container
          let fields ← decodeMembers body inner case.members
          .ok (.variant case.ident fields)
      | none => .error ⟨c.path, .unknownVariant tag (cases.map Case.key)⟩

namespace Registry

/-- The error for a name that no declared type has. -/
def unknown (name : String) : CodingCause := .custom ("no declared type " ++ name)

/-- Decode a declared type through at most `bound` levels of declared types. -/
def decodeNamed (types : Registry) : Nat → String → Decoding Datum
  | 0, name, d => .error ⟨d.path, unknown name⟩
  | bound + 1, name, d =>
      match types.find? name with
      | some schema => schema.decode (Shape.decodeWith (types.decodeNamed bound)) d
      | none => .error ⟨d.path, unknown name⟩

/-- Decode a shape. -/
def decode (types : Registry) (shape : Shape) : Decoding Datum := fun d =>
  shape.decodeWith (types.decodeNamed (d.value.depth + 1)) d

end Registry

/-! ## Encoding -/

/-- The tree of an integer. -/
def encodeInteger (n : Int) : Encoding Unit :=
  match Value.ofInteger? n with
  | some v => Encoding.value v
  | none => Encoding.fail (.outOfRange (toString n) "u64")

/-- The trees of items, each written on its own. -/
def encodeItems (body : Datum → Encoding Unit) : List Datum → Except CodingError (List Value)
  | [] => .ok []
  | x :: rest => do
      let v ← Encoding.toValue (body x)
      let vs ← encodeItems body rest
      .ok (v :: vs)

/-- The trees of entries, each written on its own. -/
def encodeEntries (body : Datum → Encoding Unit) :
    List (String × Datum) → Except CodingError (List (String × Value))
  | [] => .ok []
  | (key, x) :: rest => do
      let v ← Encoding.toValue (body x)
      let vs ← encodeEntries body rest
      .ok ((key, v) :: vs)

/-- Encode a datum of a shape; `named` encodes declared types.  A datum that is not of the shape
writes nothing. -/
def Shape.encodeWith (named : String → Datum → Encoding Unit) : Shape → Datum → Encoding Unit
  | .bool, .bool b => Encoding.value (.bool b)
  | .int _, .int n => encodeInteger n
  | .float64, .float64 x => Encoding.value (.float x)
  | .float32, .float32 x => Encoding.value (.float x.widen)
  | .string, .string s => Encoding.value (.string s)
  | .char, .char c => Encoding.value (.string (String.singleton c))
  | .value, .value v => Encoding.value v
  | .option _, .none => Encoding.value .null
  | .option inner, .some x => inner.encodeWith named x
  | .box inner, x => inner.encodeWith named x
  | .list inner, .list items =>
      match encodeItems (inner.encodeWith named) items with
      | .ok values => Encoding.value (.array values)
      | .error e => throw e
  | .map _ inner, .map entries =>
      match encodeEntries (inner.encodeWith named) entries with
      | .ok values => Encoding.value (Value.ofPairs values)
      | .error e => throw e
  | .phantom, .phantom => Encoding.value .null
  | .named name, x => named name x
  | _, _ => pure ()

/-- Encode a member at its key. -/
def Member.encode (body : Shape → Datum → Encoding Unit) (m : Member) (x : Datum) :
    Encoding Unit :=
  if m.encoded then
    Encoding.nested m.key
      (match m.helper with
      | some helper => helper.encode x
      | none => body m.shape x)
  else pure ()

/-- Encode members in declaration order. -/
def encodeMembers (body : Shape → Datum → Encoding Unit) :
    List Member → List Datum → Encoding Unit
  | m :: members, x :: fields => do
      m.encode body x
      encodeMembers body members fields
  | _, _ => pure ()

/-- Encode a declared type: a struct as an object, an enum as an object with one entry. -/
def Schema.encode (body : Shape → Datum → Encoding Unit) : Schema → Datum → Encoding Unit
  | .struct _ members, .record fields => do
      Encoding.container
      encodeMembers body members fields
  | .enum _ cases, .variant name fields => do
      Encoding.container
      match cases.find? (fun case => case.ident == name) with
      | some case =>
          Encoding.nested case.key do
            Encoding.container
            encodeMembers body case.members fields
      | none => pure ()
  | _, _ => pure ()

namespace Registry

/-- Encode a declared type through at most `bound` levels of declared types. -/
def encodeNamed (types : Registry) : Nat → String → Datum → Encoding Unit
  | 0, _, _ => pure ()
  | bound + 1, name, x =>
      match types.find? name with
      | some schema => schema.encode (Shape.encodeWith (types.encodeNamed bound)) x
      | none => pure ()

/-- Encode a datum of a shape. -/
def encode (types : Registry) (shape : Shape) (x : Datum) : Encoding Unit :=
  shape.encodeWith (types.encodeNamed (x.depth + 1)) x

/-- The value tree of a datum. -/
def toValue (types : Registry) (shape : Shape) (x : Datum) : Except CodingError Value :=
  Encoding.toValue (types.encode shape x)

/-- The datum of a value tree. -/
def fromValue (types : Registry) (shape : Shape) (v : Value) : Except CodingError Datum :=
  types.decode shape (.root v)

end Registry

end KeyedCoding
