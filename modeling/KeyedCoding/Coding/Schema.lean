import KeyedCoding.Coding.Decoder
import KeyedCoding.Coding.Encoder
import KeyedCoding.Coding.Shape

/-!
# Schemas of declared types

What coding has to know about a declared type: its members with their keys, where each member
comes from when the type is decoded, and whether it is written when the type is encoded.
-/

namespace KeyedCoding

/-- Coding of one member by rules of its own. -/
structure Helper where
  /-- The shape of the data that the helper codes. -/
  coded : Shape
  decode : Decoding Datum
  encode : Datum → Encoding Unit

/-- Where a member comes from when its type is decoded. -/
inductive Source where
  /-- From its entry, or decoding fails. -/
  | required
  /-- From its entry if that is present and decodes, else the default. -/
  | defaulted (value : Datum)
  /-- From no entry: always this value. -/
  | fixed (value : Datum)

/-- A stored member of a declared type. -/
structure Member where
  /-- The identifier as written; `_0`, `_1`, … for positional members. -/
  ident : String
  /-- The name without a raw-identifier mark. -/
  name : String
  index : Nat
  named : Bool
  key : String
  shape : Shape
  helper : Option Helper
  source : Source
  encoded : Bool
  /-- The value that an initializer gives the member if it takes none for it. -/
  preset : Option Datum

/-- A variant of an enum. -/
structure Case where
  ident : String
  key : String
  members : List Member

/-- A declared type. -/
inductive Schema where
  | struct (name : String) (members : List Member)
  | enum (name : String) (cases : List Case)

/-- Declared types by the name that shapes use for them. -/
structure Registry where
  schemas : List (String × Schema)

/-- The declared type of a name. -/
def Registry.find? (types : Registry) (name : String) : Option Schema :=
  types.schemas.lookup name

end KeyedCoding
