import KeyedCoding.Derivation.Initializer
import KeyedCoding.Derivation.Synthesis

/-!
# Expansion

A declaration with attributes is checked by their rules; if nothing is wrong, the code it asks for
is generated beside it.  The declaration itself is given back without the known attributes.
-/

namespace KeyedCoding

/-- Whether a declaration is taken as it is. -/
inductive Outcome where
  | accepted
  | rejected
deriving DecidableEq, Repr

/-- The result of expanding a declaration. -/
structure Expansion where
  /-- The item without known attributes. -/
  item : Item
  /-- The code generated beside it; none if it is rejected. -/
  generated : List Tokens
  diagnostics : List Diagnostic
  outcome : Outcome

namespace Expansion

/-- The item, the generated code and the findings as code. -/
def tokens (e : Expansion) : Tokens :=
  e.item.tokens ++ e.generated.flatten ++ Diagnostic.allTokens e.diagnostics

end Expansion

namespace Declaration

/-- What the rules of all attributes of a declaration find. -/
def findings (d : Declaration) : List Diagnostic := d.targets.flatMap Known.findings

/-- The initializer, if one is asked for. -/
def initializerCode (d : Declaration) (o : ContainerOptions) : Expanding (List Tokens) := do
  if o.memberInit then
    match Initializer.ofDeclaration d with
    | .ok (some i) => pure [i.tokens]
    | .ok none => pure []
    | .error f => do
        Expanding.report [Diagnostic.ofFailure f]
        pure []
  else pure []

/-- The key enum and the conformances of a coded type. -/
def codingCode (t : CodedType) (protocols : List Tokens) : Expanding (List Tokens) := do
  let keys ← t.keyDeclarations protocols
  let decoding ← t.synthesize .decode protocols
  let encoding ← t.synthesize .encode protocols
  pure (keys ++ (decoding.toList ++ encoding.toList).map t.conformance)

/-- The code that a declaration without findings asks for. -/
def build (d : Declaration) : Expanding (List Tokens) := do
  match ContainerOptions.ofAttributes d.attributes with
  | .error f => do
      Expanding.report [Diagnostic.ofFailure f]
      pure []
  | .ok o => do
      let first ← d.initializerCode o
      match o.protocols with
      | none => pure first
      | some protocols =>
          match CodedType.ofDeclaration d o.strategy with
          | .ok (some t) => do
              let rest ← codingCode t protocols
              pure (first ++ rest)
          | .ok none => pure first
          | .error f => do
              Expanding.report [Diagnostic.ofFailure f]
              pure first

/-- Expand a declaration. -/
def expand (d : Declaration) : Expansion :=
  let checked : Context := ⟨0, d.findings⟩
  let (generated, final) := if checked.hasErrors then ([], checked) else d.build checked
  let rejected := final.hasErrors
  { item := d.item.stripped
    generated := if rejected then [] else generated
    diagnostics := final.diagnostics
    outcome := if rejected then .rejected else .accepted }

end Declaration

/-! ## Markers -/

/-- An attribute of a name as code makes it, with arguments unless there are none. -/
def Attribute.marker (name : String) (arguments : Tokens) : Attribute :=
  let path := [Make.ident name]
  .make (if arguments.isEmpty then .path path else .list path .paren arguments .made)

/-- Expand an item as the attribute of a name with arguments does: the attribute is put in front of
those on the item.  An item that is refused is reported instead. -/
def expandMarker (name : String) (arguments item : Tokens) : Tokens :=
  match Language.parse Language.item .made item with
  | .ok i => ((Declaration.ofItem i).withMarker (.marker name arguments)).expand.tokens
  | .error f => Make.compileError f.message

end KeyedCoding
