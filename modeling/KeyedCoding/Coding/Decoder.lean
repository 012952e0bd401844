import KeyedCoding.Coding.Error

/-!
# Decoders

The reading side of coding: a decoder stands on one value of a tree and knows the path that led
there.  A keyed decoder views an object and hands out decoders for its entries, each one key
further down.
-/

namespace KeyedCoding

/-- A place in a value tree. -/
structure Decoder where
  value : Value
  path : CodingPath

/-- An object seen as entries addressed by keys. -/
structure KeyedDecoder where
  entries : Entries Value
  path : CodingPath

/-- Decoding reads a place and gives a result or the error it met. -/
abbrev Decoding (α : Type) := Decoder → Except CodingError α

namespace Decoder

/-- The decoder of a whole tree. -/
def root (v : Value) : Decoder := ⟨v, .root⟩

/-- The error for a value of another form than `expected`. -/
def mismatch (d : Decoder) (expected : String) : CodingError :=
  ⟨d.path, .typeMismatch expected d.value.kindName⟩

/-- The object at this place. -/
def container (d : Decoder) : Except CodingError KeyedDecoder :=
  match d.value with
  | .object entries => .ok ⟨entries, d.path⟩
  | _ => .error (d.mismatch "object")

/-- The place of an entry. -/
def child (d : Decoder) (key : String) (v : Value) : Decoder := ⟨v, d.path.child key⟩

end Decoder

namespace KeyedDecoder

variable {α : Type}

/-- Whether there is an entry at `key`. -/
def contains (c : KeyedDecoder) (key : String) : Bool := (Entries.get? c.entries key).isSome

/-- Number of entries. -/
def size (c : KeyedDecoder) : Nat := c.entries.length

/-- Whether there is no entry. -/
def isEmpty (c : KeyedDecoder) : Bool := c.entries.isEmpty

/-- The only key, as a tagged value must have it. -/
def singleKey (c : KeyedDecoder) : Except CodingError String :=
  match c.entries with
  | [(key, _)] => .ok key
  | entries => .error ⟨c.path, .invalidEnumShape entries.length⟩

/-- The error for an absent entry. -/
def absent (c : KeyedDecoder) (key : String) : CodingError := ⟨c.path, .keyNotFound key⟩

/-- The place of the entry at `key`. -/
def nested (c : KeyedDecoder) (key : String) : Except CodingError Decoder :=
  match Entries.get? c.entries key with
  | some v => .ok ⟨v, c.path.child key⟩
  | none => .error (c.absent key)

/-- Decode the entry at `key`; `missing` answers for an absent one. -/
def decode (c : KeyedDecoder) (body : Decoding α)
    (missing : CodingPath → String → Except CodingError α) (key : String) : Except CodingError α :=
  match Entries.get? c.entries key with
  | some v => body ⟨v, c.path.child key⟩
  | none => missing c.path key

/-- Decode the entry at `key`; nothing for an absent or null one. -/
def decodeIfPresent (c : KeyedDecoder) (body : Decoding α) (key : String) :
    Except CodingError (Option α) :=
  match Entries.get? c.entries key with
  | none => .ok none
  | some .null => .ok none
  | some v => (body ⟨v, c.path.child key⟩).map some

/-- Decode the entry at `key`, which must be present. -/
def decodeWith (c : KeyedDecoder) (body : Decoding α) (key : String) : Except CodingError α := do
  let d ← c.nested key
  body d

end KeyedDecoder

end KeyedCoding
