import KeyedCoding.Coding.Error

/-!
# Encoders

The writing side of coding: an encoder holds a single value or the entries of an object.  Writing
a single value drops the entries, opening the object drops the single value, and a keyed write
stores what its body wrote only if the body succeeds.
-/

namespace KeyedCoding

/-- What has been written so far, and the path it belongs to. -/
structure Encoder where
  path : CodingPath
  single : Option Value
  keyed : Option (Entries Value)

/-- Encoding changes an encoder and may fail; what was written before a failure stays. -/
abbrev Encoding := EStateM CodingError Encoder

namespace Encoder

/-- An encoder that holds nothing yet. -/
def fresh (path : CodingPath) : Encoder := ⟨path, none, none⟩

/-- The tree written: entries, else the single value, else null. -/
def toValue (e : Encoder) : Value :=
  match e.keyed, e.single with
  | some entries, _ => .object entries
  | none, some v => v
  | none, none => .null

/-- Hold `v` alone. -/
def hold (e : Encoder) (v : Value) : Encoder := { e with single := some v, keyed := none }

/-- Hold entries: those already held, or none yet. -/
def opened (e : Encoder) : Encoder :=
  { e with single := none, keyed := some (e.keyed.getD []) }

/-- Hold `v` at `key`. -/
def store (e : Encoder) (key : String) (v : Value) : Encoder :=
  { e with single := none, keyed := some (Entries.put (e.keyed.getD []) key v) }

end Encoder

namespace Encoding

variable {α : Type}

/-- Write a single value in place of everything held. -/
def value (v : Value) : Encoding Unit := modify fun e => e.hold v

/-- Open the object; what it already holds stays. -/
def container : Encoding Unit := modify Encoder.opened

/-- The path being written. -/
def path : Encoding CodingPath := do
  let e ← get
  pure e.path

/-- Fail at the path being written. -/
def fail (cause : CodingCause) : Encoding α := do
  throw ⟨← path, cause⟩

/-- Run `body` on a fresh encoder one key further and store its tree at `key`. -/
def nested (key : String) (body : Encoding α) : Encoding α := fun e =>
  let e := e.opened
  match body (Encoder.fresh (e.path.child key)) with
  | .ok a inner => .ok a (e.store key inner.toValue)
  | .error err _ => .error err e

/-- The tree written by a body of its own, from the root path. -/
def toValue (body : Encoding Unit) : Except CodingError Value :=
  match body (Encoder.fresh .root) with
  | .ok _ e => .ok e.toValue
  | .error err _ => .error err

end Encoding

end KeyedCoding
