import KeyedCoding.Coding.Memberwise
import KeyedCoding.Derivation.Code

/-!
# Memberwise initializers

A constructor that takes the members without a preset, and one setter for each of the others.
-/

namespace KeyedCoding

/-- A member of a struct as its initializer treats it. -/
structure InitParameter where
  member : StoredMember
  /-- The value that the constructor gives the member without being told. -/
  preset : Option Expression

namespace InitParameter

/-- Whether the constructor takes the member. -/
def required (p : InitParameter) : Bool := p.preset.isNone

/-- The name of the setter. -/
def setter (p : InitParameter) : String :=
  Memberwise.setterName p.member.named p.member.name p.member.index

/-- The code of the member's value in the constructor. -/
def value (p : InitParameter) : Tokens :=
  match p.preset with
  | some e => e.assigned
  | none => [Make.ident p.member.ident]

/-- The parameter of a member. -/
def ofMember (m : StoredMember) : Except Failure InitParameter := do
  let options ← MemberOptions.ofAttributes m.attributes
  .ok ⟨m, options.preset⟩

end InitParameter

/-- The initializer of a struct. -/
structure Initializer where
  ident : String
  visibility : Tokens
  generics : Generics
  style : FieldStyle
  parameters : List InitParameter

namespace Initializer

/-- The initializer of a declaration; nothing for one without an identifier. -/
def ofDeclaration (d : Declaration) : Except Failure (Option Initializer) :=
  match d.ident with
  | none => .ok none
  | some ident => do
      let parameters ← d.members.mapM InitParameter.ofMember
      .ok (some ⟨ident, d.visibility, d.generics, d.style, parameters⟩)

/-- A documentation attribute. -/
def documented (text : String) : Tokens :=
  Make.hashed (Make.ident "doc" :: Make.op "=" ++ [Make.string text])

/-- The code of the constructed value. -/
def constructed (i : Initializer) : Tokens :=
  let self := Make.ident "Self"
  match i.style with
  | .named =>
      let fields := i.parameters.map fun p =>
        Make.ident p.member.ident :: if p.required then [] else Make.op ":" ++ p.value
      [self, Make.braces (Make.commaSeparated fields)]
  | .unnamed =>
      [self, Make.parens (Make.commaSeparated (i.parameters.map InitParameter.value))]
  | .unit => [self]

/-- The code of a setter. -/
def setterTokens (i : Initializer) (p : InitParameter) : Tokens :=
  let self := Make.ident "self"
  let parameters := [Make.ident "mut", self] ++ Make.op "," ++ Make.ident "value" :: Make.op ":"
    ++ p.member.type
  let body := self :: Make.op "." ++ p.member.accessor ++ Make.op "=" ++ [Make.ident "value"]
    ++ Make.op ";" ++ [self]
  documented ("Replaces `" ++ p.member.name ++ "`, which `new` sets to its default.")
    ++ Make.hashed [Make.ident "must_use"]
    ++ (if hasInfix ['_', '_'] p.setter.toList then Make.allow [Make.ident "non_snake_case"]
      else [])
    ++ i.visibility ++ [Make.ident "fn", Make.ident p.setter, Make.parens parameters]
    ++ Make.op "->" ++ [Make.ident "Self", Make.braces body]

/-- The code of the constructor. -/
def constructorTokens (i : Initializer) : Tokens :=
  let parameters := (i.parameters.filter InitParameter.required).map fun p =>
    Make.ident p.member.ident :: Make.op ":" ++ p.member.type
  documented ("Creates a `" ++ i.ident ++ "` from its members.")
    ++ Make.allow (Make.path false ["clippy", "too_many_arguments"])
    ++ i.visibility
    ++ [Make.ident "fn", Make.ident "new", Make.parens (Make.commaSeparated parameters)]
    ++ Make.op "->" ++ [Make.ident "Self", Make.braces i.constructed]

/-- The code of the initializer. -/
def tokens (i : Initializer) : Tokens :=
  let setters := i.parameters.filter fun p => !p.required
  Make.allow [Make.ident "dead_code"]
    ++ Make.ident "impl" :: i.generics.implemented ++ [Make.ident i.ident] ++ i.generics.applied
    ++ i.generics.conditionTokens
    ++ [Make.braces (i.constructorTokens ++ setters.flatMap i.setterTokens)]

end Initializer

end KeyedCoding
