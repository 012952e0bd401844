import KeyedCoding.Derivation.Model

/-!
# Generated code

The bodies of the generated methods as data: which member is bound to what, in which order, under
which key, and what the bound members are put together to.  Printing them gives the tokens.
-/

namespace KeyedCoding

/-- The two protocols. -/
inductive Direction where
  | decode
  | encode
deriving DecidableEq, Repr

namespace Direction

/-- The name of the protocol. -/
def protocol : Direction → String
  | decode => "Decodable"
  | encode => "Encodable"

/-- The name of the method. -/
def method : Direction → String
  | decode => "decode"
  | encode => "encode"

/-- The name of the method's parameter. -/
def parameter : Direction → String
  | decode => "decoder"
  | encode => "encoder"

end Direction

/-- A key named in code. -/
structure KeyRef where
  ident : String
  variant : String
deriving DecidableEq, Repr

/-- What a member is bound to when its type is decoded. -/
inductive Reading where
  /-- A value that is not read. -/
  | fallback (value : Tokens)
  /-- The entry, or decoding fails. -/
  | required (container : String) (helper : Option Tokens) (key : KeyRef)
  /-- The entry if it is present and decodes, else a default. -/
  | defaulted (container : String) (helper : Option Tokens) (key : KeyRef) (temporary : String)
      (value : Tokens)

/-- A member bound before its value is put together. -/
structure Binding where
  ident : String
  type : Tokens
  reading : Reading

/-- A value put together from bound members. -/
structure Construction where
  path : Tokens
  style : FieldStyle
  idents : List String

/-- An entry written for a member. -/
structure Writing where
  container : String
  helper : Option Tokens
  /-- The member that is written. -/
  ident : String
  /-- The code that refers to it. -/
  access : Tokens
  key : KeyRef

/-- A variant taken apart: its members in order, each bound or passed over. -/
structure CasePattern where
  path : Tokens
  style : FieldStyle
  slots : List (String × Bool)

/-- The arm that decodes a variant. -/
structure DecodeArm where
  text : String
  key : KeyRef
  decoder : String
  container : String
  bindings : List Binding
  construction : Construction

/-- The body of a decoding method. -/
inductive DecodeBody where
  | struct (container keys : String) (bindings : List Binding) (construction : Construction)
  | enum (container keys tag : String) (arms : List DecodeArm)

/-- The arm that encodes a variant. -/
structure EncodeArm where
  pattern : CasePattern
  key : KeyRef
  encoder : String
  container : String
  writings : List Writing

/-- The body of an encoding method. -/
inductive EncodeBody where
  | struct (container keys : String) (writings : List Writing)
  | enum (container keys : String) (arms : List EncodeArm)
  /-- An enum without variants has no values. -/
  | never

/-! ## Printing -/

namespace Make

/-- A call of a method without arguments in angle brackets. -/
def send (receiver : String) (method : String) (arguments : Tokens) : Tokens :=
  ident receiver :: op "." ++ [ident method, parens arguments]

/-- A call of a method with an argument in angle brackets. -/
def sendFor (receiver : String) (method : String) (type : Tokens) (arguments : Tokens) : Tokens :=
  ident receiver :: op "." ++ ident method :: op "::" ++ op "<" ++ type ++ op ">"
    ++ [parens arguments]

/-- A successful result. -/
def succeed (value : Tokens) : Tokens :=
  path true ["core", "result", "Result", "Ok"] ++ [parens value]

/-- The attribute on a container that may go unused. -/
def allowUnused : Tokens := allow [ident "unused_mut"]

end Make

namespace KeyRef

/-- The code that names a key. -/
def tokens (k : KeyRef) : Tokens := KeyEnum.path k.ident k.variant

end KeyRef

namespace Reading

/-- The call that reads an entry. -/
def call (container : String) (helper : Option Tokens) (type : Tokens) (key : KeyRef)
    (suffix : String) : Tokens :=
  match helper with
  | some h => Make.sendFor container ("decode_with" ++ suffix) h key.tokens
  | none => Make.sendFor container ("decode" ++ suffix) type key.tokens

/-- The code of the bound value. -/
def tokens (type : Tokens) : Reading → Tokens
  | fallback value => value
  | required container helper key => call container helper type key "" ++ Make.op "?"
  | defaulted container helper key temporary value =>
      let found := Make.path true ["core", "option", "Option", "Some"]
        ++ [Make.parens [Make.ident temporary]]
      let arms := Make.succeed found ++ Make.op "=>" ++ [Make.ident temporary] ++ Make.op ","
        ++ [Make.ident "_"] ++ Make.op "=>" ++ value ++ Make.op ","
      Make.ident "match" :: call container helper type key "_if_present" ++ [Make.braces arms]

end Reading

namespace Binding

/-- The code of a binding. -/
def tokens (b : Binding) : Tokens :=
  [Make.ident "let", Make.ident b.ident] ++ Make.op ":" ++ b.type ++ Make.op "="
    ++ b.reading.tokens b.type ++ Make.op ";"

end Binding

namespace Construction

/-- The code of a construction. -/
def tokens (c : Construction) : Tokens :=
  let members := Make.commaSeparated (c.idents.map fun i => [Make.ident i])
  match c.style with
  | .named => c.path ++ [Make.braces members]
  | .unnamed => c.path ++ [Make.parens members]
  | .unit => c.path

end Construction

namespace Writing

/-- The code of a written entry. -/
def tokens (w : Writing) : Tokens :=
  let arguments := w.access ++ Make.op "," ++ w.key.tokens
  (match w.helper with
    | some h => Make.sendFor w.container "encode_with" h arguments
    | none => Make.send w.container "encode" arguments) ++ Make.op "?" ++ Make.op ";"

end Writing

namespace CasePattern

/-- The members that the pattern binds. -/
def bound (p : CasePattern) : List String := (p.slots.filter Prod.snd).map Prod.fst

/-- The code of a pattern. -/
def tokens (p : CasePattern) : Tokens :=
  match p.style with
  | .named =>
      let names := p.bound.map fun i => [Make.ident i]
      if p.slots.all Prod.snd then p.path ++ [Make.braces (Make.commaSeparated names)]
      else p.path ++ [Make.braces (Make.commaTerminated names ++ Make.op "..")]
  | .unnamed =>
      p.path ++ [Make.parens (Make.commaSeparated (p.slots.map fun (i, bound) =>
        [Make.ident (if bound then i else "_")]))]
  | .unit => p.path

end CasePattern

/-- The code that opens a container for reading. -/
def openForReading (container decoder keys : String) : Tokens :=
  [Make.ident "let", Make.ident container] ++ Make.op "="
    ++ Make.sendFor decoder "container" [Make.ident keys] [] ++ Make.op "?" ++ Make.op ";"

/-- The code that opens a container for writing. -/
def openForWriting (container encoder keys : String) : Tokens :=
  [Make.ident "let", Make.ident "mut", Make.ident container] ++ Make.op "="
    ++ Make.sendFor encoder "container" [Make.ident keys] [] ++ Make.op ";"

namespace DecodeArm

/-- The code of an arm that decodes a variant; `outer` is the container of the whole value. -/
def tokens (outer keys : String) (a : DecodeArm) : Tokens :=
  let body :=
    [Make.ident "let", Make.ident a.decoder] ++ Make.op "="
      ++ Make.send outer "nested_decoder" a.key.tokens ++ Make.op "?" ++ Make.op ";"
      ++ openForReading a.container a.decoder keys
      ++ a.bindings.flatMap Binding.tokens ++ Make.succeed a.construction.tokens
  Make.string a.text :: Make.op "=>" ++ [Make.braces body]

end DecodeArm

namespace DecodeBody

/-- The code of a decoding method's body. -/
def tokens : DecodeBody → Tokens
  | struct container keys bindings construction =>
      openForReading container Direction.decode.parameter keys
        ++ bindings.flatMap Binding.tokens ++ Make.succeed construction.tokens
  | enum container keys tag arms =>
      let valid := Make.commaSeparated (arms.map fun a => [Make.string a.text])
      let unknown := Make.path true ["codable", "CodingError", "unknown_variant"]
        ++ [Make.parens (Make.send container "coding_path" [] ++ Make.op "," ++ [Make.ident tag]
          ++ Make.op "," ++ Make.op "&" ++ [Make.brackets valid] ++ Make.op ",")]
      let last := Make.ident tag :: Make.op "=>"
        ++ Make.path true ["core", "result", "Result", "Err"]
        ++ [Make.parens unknown] ++ Make.op ","
      openForReading container Direction.decode.parameter keys
        ++ Make.ident "match" :: Make.send container "single_key" [] ++ Make.op "?"
        ++ [Make.braces (arms.flatMap (DecodeArm.tokens container keys) ++ last)]

end DecodeBody

namespace EncodeArm

/-- The code of an arm that encodes a variant; `outer` is the container of the whole value. -/
def tokens (outer keys : String) (a : EncodeArm) : Tokens :=
  let body :=
    Make.allowUnused ++ openForWriting a.container a.encoder keys
      ++ a.writings.flatMap Writing.tokens ++ Make.succeed [Make.parens []]
  let closure := Make.op "|" ++ [Make.ident a.encoder] ++ Make.op "|" ++ [Make.braces body]
  a.pattern.tokens ++ Make.op "=>"
    ++ [Make.braces (Make.send outer "encode_nested" (a.key.tokens ++ Make.op "," ++ closure)
      ++ Make.op "?" ++ Make.op ";")]

end EncodeArm

namespace EncodeBody

/-- The code of an encoding method's body. -/
def tokens : EncodeBody → Tokens
  | struct container keys writings =>
      Make.allowUnused ++ openForWriting container Direction.encode.parameter keys
        ++ writings.flatMap Writing.tokens ++ Make.succeed [Make.parens []]
  | enum container keys arms =>
      openForWriting container Direction.encode.parameter keys
        ++ [Make.ident "match", Make.ident "self",
          Make.braces (arms.flatMap (EncodeArm.tokens container keys))]
        ++ Make.succeed [Make.parens []]
  | never => Make.ident "match" :: Make.op "*" ++ [Make.ident "self", Make.braces []]

end EncodeBody

end KeyedCoding
