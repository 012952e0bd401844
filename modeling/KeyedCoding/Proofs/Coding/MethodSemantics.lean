import KeyedCoding.Coding.Codec
import KeyedCoding.Derivation.Synthesis
import KeyedCoding.Meaning.Declared
import KeyedCoding.Proofs.Derivation.InitializerCode
import KeyedCoding.Proofs.Derivation.KeyNames

/-!
# Running generated methods

The body of a generated method is run here statement by statement.  Names stand for what they are
bound to, the last binding first; a key stands for the text that the key enum gives its variant; a
path of the type puts a value together or takes one apart by the names or positions of its fields.
Code that names something that is not there does nothing: it is stuck, and has no result at all.

What the code of a type, of a helper and of a closed expression stands for is up to the
surroundings, as it is for a schema.
-/

namespace KeyedCoding

/-! ## Code that stands for something -/

/-- The absolute path that code starts with, and the code behind it. -/
def Tokens.absolute : Tokens → List String × Tokens
  | .punct ':' _ _ :: .punct ':' _ _ :: .ident name _ :: rest =>
      let (names, behind) := Tokens.absolute rest
      (name :: names, behind)
  | code => ([], code)

/-- The datum that the code of a value stands for in a place of a shape: the default of the shape,
an expression that is converted, or an expression as it is written. -/
def Surroundings.value? (s : Surroundings) (shape : Shape) (code : Tokens) : Option Datum :=
  match Tokens.absolute code with
  | ([], _) => s.constant? shape code
  | (["core", "convert", "Into", "into"], [.group .paren inner _]) => s.constant? shape inner
  | (["core", "default", "Default", "default"], [.group .paren [] _]) => s.default? shape
  | _ => none

namespace Surroundings

/-- Closed expressions do not start with an absolute path. -/
def Relative (s : Surroundings) : Prop :=
  ∀ shape tokens y, s.constant? shape tokens = some y → (Tokens.absolute tokens).1 = []

theorem value?_assigned {s : Surroundings} (h : s.Relative) {shape : Shape} {e : Expression}
    {y : Datum} (hy : s.constant? shape e.tokens = some y) :
    s.value? shape e.assigned = some y := by
  unfold Expression.assigned
  split
  · exact hy
  · have hrelative : Tokens.absolute e.tokens = ([], (Tokens.absolute e.tokens).2) :=
      Prod.ext (h shape e.tokens y hy) rfl
    unfold value?
    rw [hrelative]
    exact hy

theorem value?_default (s : Surroundings) (shape : Shape) :
    s.value? shape (Make.path true ["core", "default", "Default", "default"] ++ [Make.parens []]) =
      s.default? shape := rfl

/-- What stands in for a member that is not read. -/
theorem value?_fallback {s : Surroundings} (h : s.Relative) {shape : Shape} {o : MemberOptions}
    {y : Datum} (hy : CodedMember.fallback? s shape o = some y) :
    s.value? shape o.fallback = some y := by
  unfold CodedMember.fallback? at hy
  unfold MemberOptions.fallback
  cases hpreset : o.preset with
  | none =>
      rw [hpreset] at hy
      exact (value?_default s shape).trans hy
  | some e =>
      rw [hpreset] at hy
      exact value?_assigned h hy

end Surroundings

theorem Tokens.absolute_eq_nil_or (code : Tokens) :
    (Tokens.absolute code).1 = [] ∨
      ∃ joint joint' name at₁ at₂ at₃ rest, code =
        .punct ':' joint at₁ :: .punct ':' joint' at₂ :: .ident name at₃ :: rest := by
  unfold Tokens.absolute
  split
  · exact .inr ⟨_, _, _, _, _, _, _, rfl⟩
  · exact .inl rfl

theorem Constant.eval_absolute (variants : Constant.Variants) (fuel : Nat) (shape : Shape)
    (joint joint' : Bool) (name : String) (at₁ at₂ at₃ : Span) (rest : Tokens) :
    Constant.eval variants fuel shape
      (.punct ':' joint at₁ :: .punct ':' joint' at₂ :: .ident name at₃ :: rest) = none := by
  cases fuel with
  | zero => rfl
  | succ fuel => cases shape <;> rfl

/-- The expressions that have a meaning in a library do not start with an absolute path. -/
theorem Library.relative_surroundings (l : Library) (d : Declaration) (arguments : List Shape) :
    (l.surroundings d arguments).Relative := by
  intro shape tokens y hy
  rcases Tokens.absolute_eq_nil_or tokens with
    habsolute | ⟨joint, joint', name, at₁, at₂, at₃, rest, rfl⟩
  · exact habsolute
  · have hnone : (l.surroundings d arguments).constant? shape
        (.punct ':' joint at₁ :: .punct ':' joint' at₂ :: .ident name at₃ :: rest) = none :=
      Constant.eval_absolute l.variants _ shape joint joint' name at₁ at₂ at₃ rest
    rw [hnone] at hy
    cases hy

/-- The text of a key named in code, if it is a key of the key enum. -/
def KeyEnum.textOf? (keys : KeyEnum) (key : KeyRef) : Option String :=
  if key.ident = keys.ident then keys.text? key.variant else none

/-- Where the names of the keys differ, every key has its own text. -/
theorem KeyEnum.textOf?_of_mem {keys : KeyEnum} (h : (keys.entries.map KeyEntry.name).Nodup)
    {e : KeyEntry} (he : e ∈ keys.entries) :
    keys.textOf? ⟨keys.ident, e.variant⟩ = some e.value := by
  have hfind := find?_key_of_nodup h he
  show (if keys.ident = keys.ident then
    (keys.entries.find? fun other => other.name == e.name).map KeyEntry.value else none) = _
  rw [if_pos rfl, hfind]
  rfl

/-- The forms of the values of a type. -/
inductive Form where
  | record
  | variant (ident : String)

namespace Form

/-- The form that a path stands for. -/
def ofPath? : Tokens → Option Form
  | [.ident "Self" _] => some .record
  | [.ident "Self" _, .punct ':' _ _, .punct ':' _ _, .ident name _] => some (.variant name)
  | _ => none

/-- The datum of a form with given fields. -/
def datum : Form → List Datum → Datum
  | record, fields => .record fields
  | variant ident, fields => .variant ident fields

/-- The fields of a datum if it has the form. -/
def fields? : Form → Datum → Option (List Datum)
  | record, .record fields => some fields
  | variant ident, .variant name fields => if ident = name then some fields else none
  | _, _ => none

@[simp] theorem fields?_datum (form : Form) (fields : List Datum) :
    form.fields? (form.datum fields) = some fields := by
  cases form with
  | record => rfl
  | variant ident => exact if_pos rfl

end Form

/-- The declared fields of a form of a type. -/
def CodedType.fieldsOf? (t : CodedType) : Form → Option (List StoredMember)
  | .record =>
      match t.body with
      | .struct _ members => some (members.map CodedMember.stored)
      | .enum _ => none
  | .variant ident =>
      match t.body with
      | .struct _ _ => none
      | .enum cases =>
          (cases.find? fun c => c.ident == ident).map fun c => c.members.map CodedMember.stored

/-- Names with what they are bound to, the last one first. -/
abbrev Scope (α : Type) := List (String × α)

/-! ## Decoding -/

/-- Running code gives a result or an error, unless it is stuck. -/
abbrev Running (α : Type) := ExceptT CodingError Option α

namespace Running

variable {α : Type}

/-- A step that is stuck where there is nothing. -/
def given (o : Option α) : Running α := ExceptT.mk (o.map .ok)

/-- A step that gives a result or an error. -/
def done (r : Except CodingError α) : Running α := ExceptT.mk (some r)

end Running

open Running (given done)

/-- What names stand for while a decoding method runs. -/
inductive DecodeVariable where
  | decoder (d : Decoder)
  | container (c : KeyedDecoder)
  | text (tag : String)
  | datum (x : Datum)

namespace DecodeVariable

def decoder? : DecodeVariable → Option Decoder
  | decoder d => some d
  | _ => none

def container? : DecodeVariable → Option KeyedDecoder
  | container c => some c
  | _ => none

def text? : DecodeVariable → Option String
  | text tag => some tag
  | _ => none

def datum? : DecodeVariable → Option Datum
  | datum x => some x
  | _ => none

end DecodeVariable

/-- The fields that a construction fills, each with the variable it is filled from. -/
def Construction.filled (c : Construction) : List (FieldPlace × String) :=
  match c.style with
  | .named => c.idents.map fun ident => (.name ident, ident)
  | .unnamed => c.idents.zipIdx.map fun (ident, index) => (.position index, ident)
  | .unit => []

/-- The fields that a construction fills with the data of variables. -/
def Construction.values? (c : Construction) (scope : Scope DecodeVariable) :
    Option (FieldValues Datum) :=
  c.filled.mapM fun (place, ident) =>
    ((scope.lookup ident).bind DecodeVariable.datum?).map fun x => (place, x)

/-- The values of declared fields in order, if each of them is filled and nothing else is. -/
def FieldValues.inOrder? {α : Type} (filled : FieldValues α) (fields : List StoredMember) :
    Option (List α) :=
  if filled.length = fields.length then fields.mapM fun m => filled.lookup m.place else none

section Decoding

-- `body` decodes the types of members.
variable (t : CodedType) (s : Surroundings) (body : Shape → Decoding Datum)

/-- The value put together from variables. -/
def Construction.run (c : Construction) (scope : Scope DecodeVariable) : Option Datum := do
  let form ← Form.ofPath? c.path
  let fields ← t.fieldsOf? form
  let filled ← c.values? scope
  let xs ← filled.inOrder? fields
  some (form.datum xs)

/-- What a member is bound to. -/
def Reading.run (r : Reading) (shape : Shape) (scope : Scope DecodeVariable) : Running Datum :=
  match r with
  | fallback value => given (s.value? shape value)
  | required container helper key => do
      let c ← given ((scope.lookup container).bind DecodeVariable.container?)
      let text ← given (t.keys.textOf? key)
      match helper with
      | none => done (c.decode (body shape) shape.missing text)
      | some path => do
          let h ← given (s.helper? path)
          done (c.decodeWith h.decode text)
  | defaulted container helper key _ value => do
      let c ← given ((scope.lookup container).bind DecodeVariable.container?)
      let text ← given (t.keys.textOf? key)
      let read ← match helper with
        | none => given (some (body shape))
        | some path => given ((s.helper? path).map Helper.decode)
      match c.decodeIfPresent read text with
      | .ok (some x) => done (.ok x)
      | _ => given (s.value? shape value)

/-- A binding adds its member to the names. -/
def Binding.run (b : Binding) (scope : Scope DecodeVariable) : Running (Scope DecodeVariable) := do
  let shape ← given (s.shape? b.type)
  let x ← b.reading.run t s body shape scope
  done (.ok ((b.ident, .datum x) :: scope))

/-- Bindings run in order. -/
def Binding.runAll : List Binding → Scope DecodeVariable → Running (Scope DecodeVariable)
  | [], scope => done (.ok scope)
  | b :: rest, scope => do
      let scope ← b.run t s body scope
      Binding.runAll rest scope

/-- Opening a container adds it to the names. -/
def openReading (container decoder keys : String) (scope : Scope DecodeVariable) :
    Running (Scope DecodeVariable) := do
  let d ← given ((scope.lookup decoder).bind DecodeVariable.decoder?)
  let c ← done d.container
  given (if keys = t.keys.ident then some ((container, .container c) :: scope) else none)

/-- An arm reads the payload from the container of the whole value. -/
def DecodeArm.run (outer keys : String) (a : DecodeArm) (scope : Scope DecodeVariable) :
    Running Datum := do
  let c ← given ((scope.lookup outer).bind DecodeVariable.container?)
  let text ← given (t.keys.textOf? a.key)
  let d ← done (c.nested text)
  let scope ← openReading t a.container a.decoder keys ((a.decoder, .decoder d) :: scope)
  let scope ← Binding.runAll t s body a.bindings scope
  given (a.construction.run t scope)

/-- A decoding method runs on a decoder; only the last arm of an enum binds the tag. -/
def DecodeBody.run (code : DecodeBody) (d : Decoder) : Running Datum :=
  let scope := [(Direction.decode.parameter, DecodeVariable.decoder d)]
  match code with
  | struct container keys bindings construction => do
      let scope ← openReading t container Direction.decode.parameter keys scope
      let scope ← Binding.runAll t s body bindings scope
      given (construction.run t scope)
  | enum container keys tag arms => do
      let scope ← openReading t container Direction.decode.parameter keys scope
      let c ← given ((scope.lookup container).bind DecodeVariable.container?)
      let text ← done c.singleKey
      match arms.find? fun a => a.text == text with
      | some a => a.run t s body container keys scope
      | none => do
          let scope := (tag, DecodeVariable.text text) :: scope
          let c ← given ((scope.lookup container).bind DecodeVariable.container?)
          let text ← given ((scope.lookup tag).bind DecodeVariable.text?)
          done (.error ⟨c.path, .unknownVariant text (arms.map DecodeArm.text)⟩)

end Decoding

/-! ## Encoding -/

/-- What names stand for while an encoding method runs: the encoder at hand, its container, or a
field of the value with its shape. -/
inductive EncodeVariable where
  | encoder
  | container
  | field (shape : Shape) (x : Datum)

namespace EncodeVariable

def isEncoder : EncodeVariable → Bool
  | encoder => true
  | _ => false

def isContainer : EncodeVariable → Bool
  | container => true
  | _ => false

def field? : EncodeVariable → Option (Shape × Datum)
  | field shape x => some (shape, x)
  | _ => none

end EncodeVariable

/-- The fields that a pattern binds, each with the variable that it is bound to. -/
def CasePattern.binders (p : CasePattern) : List (FieldPlace × String) :=
  match p.style with
  | .named => p.bound.map fun ident => (.name ident, ident)
  | .unnamed =>
      (p.slots.zipIdx.filter fun (slot, _) => slot.2).map fun (slot, index) =>
        (.position index, slot.1)
  | .unit => []

/-- What a pattern binds of given fields. -/
def CasePattern.bindTo (p : CasePattern) (fields : FieldValues (Shape × Datum)) :
    Option (Scope EncodeVariable) :=
  p.binders.mapM fun e => (fields.lookup e.1).map fun field => (e.2, .field field.1 field.2)

/-- The field that code refers to: a field of the value itself, or one bound by a pattern. -/
def operand? (fields : FieldValues (Shape × Datum)) (scope : Scope EncodeVariable) :
    Tokens → Option (Shape × Datum)
  | [.punct '&' _ _, .ident "self" _, .punct '.' _ _, .ident name _] => fields.lookup (.name name)
  | [.punct '&' _ _, .ident "self" _, .punct '.' _ _, .literal text _] =>
      fields.lookup (.position (Nat.ofDigitChars 10 text.toList 0))
  | [.ident name _] => (scope.lookup name).bind EncodeVariable.field?
  | _ => none

section Encoding

-- `body` encodes the types of members.
variable (t : CodedType) (s : Surroundings) (body : Shape → Datum → Encoding Unit)

/-- The declared fields of a form, with the data that a value has for them. -/
def typedFields? (form : Form) (xs : List Datum) : Option (FieldValues (Shape × Datum)) := do
  let fields ← t.fieldsOf? form
  if fields.length = xs.length then
    (fields.zip xs).mapM fun e => (s.shape? e.1.type).map fun shape => (e.1.place, shape, e.2)
  else none

/-- An entry is written to the container at hand. -/
def Writing.run (fields : FieldValues (Shape × Datum)) (w : Writing)
    (scope : Scope EncodeVariable) : Option (Encoding Unit) :=
  if (scope.lookup w.container).any EncodeVariable.isContainer then do
    let text ← t.keys.textOf? w.key
    let (shape, x) ← operand? fields scope w.access
    let write ← match w.helper with
      | none => some (body shape)
      | some path => (s.helper? path).map Helper.encode
    some (Encoding.nested text (write x))
  else none

/-- Entries are written in order. -/
def Writing.runAll (fields : FieldValues (Shape × Datum)) (scope : Scope EncodeVariable) :
    List Writing → Option (Encoding Unit)
  | [] => some (pure ())
  | w :: rest => do
      let first ← w.run t s body fields scope
      let behind ← Writing.runAll fields scope rest
      some (do
        first
        behind)

/-- Opening a container adds it to the names. -/
def openWriting (container encoder keys : String) (scope : Scope EncodeVariable) :
    Option (Scope EncodeVariable) :=
  if keys = t.keys.ident ∧ (scope.lookup encoder).any EncodeVariable.isEncoder then
    some ((container, .container) :: scope)
  else none

/-- The names that a pattern binds, if it is a pattern for all fields of the form. -/
def CasePattern.run (p : CasePattern) (x : Datum) : Option (Scope EncodeVariable) := do
  let form ← Form.ofPath? p.path
  let xs ← form.fields? x
  let fields ← typedFields? t s form xs
  if p.slots.length = fields.length then p.bindTo fields else none

/-- Whether a pattern is for the form of a datum. -/
def CasePattern.suits (p : CasePattern) (x : Datum) : Bool :=
  (do
    let form ← Form.ofPath? p.path
    form.fields? x).isSome

/-- An arm writes the payload under the key of its variant, by an encoder of its own. -/
def EncodeArm.run (outer keys : String) (a : EncodeArm) (x : Datum)
    (scope : Scope EncodeVariable) : Option (Encoding Unit) := do
  let bound ← a.pattern.run t s x
  if ((bound ++ scope).lookup outer).any EncodeVariable.isContainer then
    let text ← t.keys.textOf? a.key
    let inner ← openWriting t a.container a.encoder keys ((a.encoder, .encoder) :: bound)
    let write ← Writing.runAll t s body [] inner a.writings
    some (Encoding.nested text (do
      Encoding.container
      write))
  else none

/-- An encoding method runs on a value. -/
def EncodeBody.run (code : EncodeBody) (x : Datum) : Option (Encoding Unit) :=
  let scope := [(Direction.encode.parameter, EncodeVariable.encoder)]
  match code with
  | struct container keys writings => do
      let xs ← Form.record.fields? x
      let fields ← typedFields? t s .record xs
      let scope ← openWriting t container Direction.encode.parameter keys scope
      let write ← Writing.runAll t s body fields scope writings
      some (do
        Encoding.container
        write)
  | enum container keys arms => do
      let scope ← openWriting t container Direction.encode.parameter keys scope
      let a ← arms.find? fun a => a.pattern.suits x
      let write ← a.run t s body container keys x scope
      some (do
        Encoding.container
        write)
  | never => none

end Encoding

end KeyedCoding
