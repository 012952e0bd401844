import KeyedCoding.Proofs.Derivation.KeyNames
import KeyedCoding.Proofs.Derivation.WellFormed

/-!
# What generated code looks like

The judgements below are about tokens.  Each says of a piece of code what it does for a member, a
variant or a declaration, and lists the fresh names that it introduces.  What the code takes over
from the declaration, such as types, helpers and defaults, is found in the attributes of the member
that it is for; everything else in it is a keyword, an absolute path, a name that was bound before,
or a key of the key enum.
-/

namespace KeyedCoding

namespace Code

/-- Code does something for each element of a list, in order. -/
inductive ForEach {α : Type} (each : α → List String → Tokens → Prop) :
    List α → List String → Tokens → Prop
  | nil : ForEach each [] [] []
  | cons {a : α} {rest : List α} {names names' : List String} {code code' : Tokens}
      (hfirst : each a names code) (hrest : ForEach each rest names' code') :
      ForEach each (a :: rest) (names ++ names') (code ++ code')

/-! ## Values -/

/-- Code gives the value of an expression: a string literal is converted, anything else stands as it
is written. -/
inductive Evaluates (e : Expression) : Tokens → Prop
  | converted (h : e.kind = .literal .string) :
      Evaluates e (Make.path true ["core", "convert", "Into", "into"] ++ [Make.parens e.tokens])
  | written (h : e.kind ≠ .literal .string) : Evaluates e e.tokens

/-- Code gives a member that is not read its value: its preset, or the default of its type. -/
inductive StandsIn (m : StoredMember) : Tokens → Prop
  | preset {e : Expression} {code : Tokens} (h : m.preset? = some e) (hcode : Evaluates e code) :
      StandsIn m code
  | default (h : m.preset? = none) :
      StandsIn m (Make.path true ["core", "default", "Default", "default"] ++ [Make.parens []])

/-- The code of a successful result. -/
def success (value : Tokens) : Tokens :=
  Make.path true ["core", "result", "Result", "Ok"] ++ [Make.parens value]

/-- The variant of the key enum that is for a field of an enum's variant. -/
def fieldKey (v : DeclaredVariant) (m : StoredMember) : String :=
  joinedName (Identifier.unmarked v.ident) m.name

section Methods

variable (keys : KeyEnum) (s : KeyStrategy)

/-- Code names a variant of the key enum, and the key enum has it with a text. -/
def NamesKey (variant text : String) (code : Tokens) : Prop :=
  (∃ e ∈ keys.entries, e.variant = variant ∧ e.value = text) ∧
    code = Make.ident keys.ident :: Make.op "::" ++ [Make.ident variant]

/-! ## Members -/

section Members

-- `variant` is the variant of the key enum that a member goes by.
variable (variant : StoredMember → String)

/-- Code asks a container for the entry of a member, by a method that goes by a suffix: through the
helper of the member, or for its type. -/
inductive ReadsEntry (container suffix : String) (m : StoredMember) : Tokens → Prop
  | plain {key : Tokens} (hhelper : m.helperPath? = none)
      (hkey : NamesKey keys (variant m) (m.wireKey s) key) :
      ReadsEntry container suffix m
        (Make.ident container :: Make.op "." ++ Make.ident ("decode" ++ suffix) :: Make.op "::"
          ++ Make.op "<" ++ m.type ++ Make.op ">" ++ [Make.parens key])
  | helped {helper key : Tokens} (hhelper : m.helperPath? = some helper)
      (hkey : NamesKey keys (variant m) (m.wireKey s) key) :
      ReadsEntry container suffix m
        (Make.ident container :: Make.op "." ++ Make.ident ("decode_with" ++ suffix)
          :: Make.op "::" ++ Make.op "<" ++ helper ++ Make.op ">" ++ [Make.parens key])

/-- Code gives a member its value when its type is decoded. -/
inductive GivesValue (container : String) (m : StoredMember) : List String → Tokens → Prop
  /-- What its entry holds, or decoding fails. -/
  | required {call : Tokens} (hread : m.isRead = true) (hdefault : m.default? = none)
      (hcall : ReadsEntry keys s variant container "" m call) :
      GivesValue container m [] (call ++ Make.op "?")
  /-- What its entry holds if that is present and decodes, else its default. -/
  | defaulted {e : Expression} {call value : Tokens} (temporary : String)
      (hread : m.isRead = true) (hdefault : m.default? = some e)
      (hcall : ReadsEntry keys s variant container "_if_present" m call)
      (hvalue : Evaluates e value) :
      GivesValue container m [temporary]
        (Make.ident "match" :: call ++ [Make.braces
          (success (Make.path true ["core", "option", "Option", "Some"]
              ++ [Make.parens [Make.ident temporary]])
            ++ Make.op "=>" ++ [Make.ident temporary] ++ Make.op ","
            ++ [Make.ident "_"] ++ Make.op "=>" ++ value ++ Make.op ",")])
  /-- What stands in for it. -/
  | unread {value : Tokens} (hread : m.isRead = false) (hvalue : StandsIn m value) :
      GivesValue container m [] value

/-- Code binds a member to its value. -/
inductive Binds (container : String) (m : StoredMember) : List String → Tokens → Prop
  | intro {names : List String} {value : Tokens}
      (hvalue : GivesValue keys s variant container m names value) :
      Binds container m names
        ([Make.ident "let", Make.ident m.ident] ++ Make.op ":" ++ m.type ++ Make.op "=" ++ value
          ++ Make.op ";")

/-- Code writes a member to a container under the key of the member: through its helper, or as it
is.  `access` is the code that refers to a member. -/
inductive Writes (container : String) (access : StoredMember → Tokens) (m : StoredMember) :
    List String → Tokens → Prop
  | plain {key : Tokens} (hhelper : m.helperPath? = none)
      (hkey : NamesKey keys (variant m) (m.wireKey s) key) :
      Writes container access m []
        (Make.ident container :: Make.op "."
          ++ [Make.ident "encode", Make.parens (access m ++ Make.op "," ++ key)]
          ++ Make.op "?" ++ Make.op ";")
  | helped {helper key : Tokens} (hhelper : m.helperPath? = some helper)
      (hkey : NamesKey keys (variant m) (m.wireKey s) key) :
      Writes container access m []
        (Make.ident container :: Make.op "." ++ Make.ident "encode_with" :: Make.op "::"
          ++ Make.op "<" ++ helper ++ Make.op ">"
          ++ [Make.parens (access m ++ Make.op "," ++ key)] ++ Make.op "?" ++ Make.op ";")

end Members

/-! ## Decoding -/

/-- Code puts a value together from all of its members. -/
inductive Constructs (path : Tokens) (members : List StoredMember) : FieldStyle → Tokens → Prop
  | named : Constructs path members .named
      (path ++ [Make.braces (Make.commaSeparated (members.map fun m => [Make.ident m.ident]))])
  | unnamed : Constructs path members .unnamed
      (path ++ [Make.parens (Make.commaSeparated (members.map fun m => [Make.ident m.ident]))])
  | unit (hnone : members = []) : Constructs path members .unit path

/-- The code that opens a container for reading. -/
def opening (container decoder : String) : Tokens :=
  [Make.ident "let", Make.ident container] ++ Make.op "=" ++ Make.ident decoder :: Make.op "."
    ++ Make.ident "container" :: Make.op "::" ++ Make.op "<" ++ [Make.ident keys.ident]
    ++ Make.op ">" ++ [Make.parens []] ++ Make.op "?" ++ Make.op ";"

/-- Code is the arm that decodes a variant: under the text of the variant it opens the payload,
binds the members, and then puts them together. -/
inductive DecodesVariant (outer : String) (v : DeclaredVariant) : List String → Tokens → Prop
  | intro {names : List String} {key bindings value : Tokens} (decoder container : String)
      (hkey : NamesKey keys v.ident (v.wireKey s) key)
      (hbindings : ForEach (Binds keys s (fieldKey v) container) v.members names bindings)
      (hvalue : Constructs (Make.path false ["Self", v.ident]) v.members v.style value) :
      DecodesVariant outer v (decoder :: container :: names)
        (Make.string (v.wireKey s) :: Make.op "=>" ++ [Make.braces
          ([Make.ident "let", Make.ident decoder] ++ Make.op "="
            ++ (Make.ident outer :: Make.op "." ++ [Make.ident "nested_decoder", Make.parens key])
            ++ Make.op "?" ++ Make.op ";" ++ opening keys container decoder ++ bindings
            ++ success value)])

/-- The arm for a tag that is the text of no variant: an error that lists the texts. -/
def unknownArm (container tag : String) (variants : List DeclaredVariant) : Tokens :=
  let path := Make.ident container :: Make.op "." ++ [Make.ident "coding_path", Make.parens []]
  let texts := Make.commaSeparated (variants.map fun v => [Make.string (v.wireKey s)])
  Make.ident tag :: Make.op "=>" ++ Make.path true ["core", "result", "Result", "Err"]
    ++ [Make.parens (Make.path true ["codable", "CodingError", "unknown_variant"]
      ++ [Make.parens (path ++ Make.op "," ++ [Make.ident tag] ++ Make.op "," ++ Make.op "&"
        ++ [Make.brackets texts] ++ Make.op ",")])] ++ Make.op ","

/-- Code is the body that decodes a declared type: of a struct it binds the members and then puts
them together; of an enum it has an arm for each variant, and one for any other tag. -/
inductive DecodesBody (d : Declaration) : List String → Tokens → Prop
  | struct {names : List String} {bindings value : Tokens} (container : String)
      (hkind : d.kind = .struct)
      (hbindings : ForEach (Binds keys d.strategy StoredMember.ident container) d.members names
        bindings)
      (hvalue : Constructs [Make.ident "Self"] d.members d.style value) :
      DecodesBody d (container :: names)
        (opening keys container "decoder" ++ bindings ++ success value)
  | enum {names : List String} {arms : Tokens} (container tag : String) (hkind : d.kind = .enum)
      (harms : ForEach (DecodesVariant keys d.strategy container) d.variants names arms) :
      DecodesBody d (container :: tag :: names)
        (opening keys container "decoder"
          ++ Make.ident "match" :: (Make.ident container :: Make.op "."
            ++ [Make.ident "single_key", Make.parens []]) ++ Make.op "?"
          ++ [Make.braces (arms ++ unknownArm d.strategy container tag d.variants)])

/-! ## Encoding -/

/-- Code is a pattern that takes a variant apart: it binds the members that are written and passes
over the others, with a slot for each field where fields have no names. -/
inductive TakesApart (path : Tokens) (members : List StoredMember) : FieldStyle → Tokens → Prop
  | named (hall : ∀ m ∈ members, m.isWritten = true) : TakesApart path members .named
      (path ++ [Make.braces (Make.commaSeparated (members.map fun m => [Make.ident m.ident]))])
  | partly {m : StoredMember} (hm : m ∈ members) (hunwritten : m.isWritten = false) :
      TakesApart path members .named
        (path ++ [Make.braces (Make.commaTerminated
          ((members.filter StoredMember.isWritten).map fun m => [Make.ident m.ident])
          ++ Make.op "..")])
  | unnamed : TakesApart path members .unnamed
      (path ++ [Make.parens (Make.commaSeparated (members.map fun m =>
        [Make.ident (if m.isWritten then m.ident else "_")]))])
  | unit (hnone : members = []) : TakesApart path members .unit path

/-- The code that opens a container for writing. -/
def openingMut (container encoder : String) : Tokens :=
  [Make.ident "let", Make.ident "mut", Make.ident container] ++ Make.op "="
    ++ Make.ident encoder :: Make.op "." ++ Make.ident "container" :: Make.op "::" ++ Make.op "<"
    ++ [Make.ident keys.ident] ++ Make.op ">" ++ [Make.parens []] ++ Make.op ";"

/-- The attribute on a container to which nothing may be written. -/
def maybeUnused : Tokens :=
  Make.op "#" ++ [Make.brackets [Make.ident "allow", Make.parens [Make.ident "unused_mut"]]]

/-- Code is the arm that encodes a variant: it binds the members that it then writes to a container
of its own, under the key of the variant. -/
inductive EncodesVariant (outer : String) (v : DeclaredVariant) : List String → Tokens → Prop
  | intro {pattern key writings : Tokens} (encoder container : String)
      (hpattern : TakesApart (Make.path false ["Self", v.ident]) v.members v.style pattern)
      (hkey : NamesKey keys v.ident (v.wireKey s) key)
      (hwritings : ForEach (Writes keys s (fieldKey v) container fun m => [Make.ident m.ident])
        (v.members.filter StoredMember.isWritten) [] writings) :
      EncodesVariant outer v [encoder, container]
        (pattern ++ Make.op "=>" ++ [Make.braces
          ((Make.ident outer :: Make.op "." ++ [Make.ident "encode_nested", Make.parens
            (key ++ Make.op "," ++ (Make.op "|" ++ [Make.ident encoder] ++ Make.op "|"
              ++ [Make.braces (maybeUnused ++ openingMut keys container encoder ++ writings
                ++ success [Make.parens []])]))])
            ++ Make.op "?" ++ Make.op ";")])

/-- Code is the body that encodes a declared type: of a struct it writes the members in order; of an
enum it has an arm for each variant, and none if there is no variant. -/
inductive EncodesBody (d : Declaration) : List String → Tokens → Prop
  | struct {writings : Tokens} (container : String) (hkind : d.kind = .struct)
      (hwritings : ForEach (Writes keys d.strategy StoredMember.ident container fun m =>
          Make.op "&" ++ Make.ident "self" :: Make.op "."
            ++ [if m.named then Make.ident m.ident else Make.literal (toString m.index)])
        (d.members.filter StoredMember.isWritten) [] writings) :
      EncodesBody d [container]
        (maybeUnused ++ openingMut keys container "encoder" ++ writings
          ++ success [Make.parens []])
  | enum {names : List String} {arms : Tokens} (container : String) (hkind : d.kind = .enum)
      (harms : ForEach (EncodesVariant keys d.strategy container) d.variants names arms) :
      EncodesBody d (container :: names)
        (openingMut keys container "encoder"
          ++ [Make.ident "match", Make.ident "self", Make.braces arms]
          ++ success [Make.parens []])
  | never (hkind : d.kind = .enum) (hnone : d.variants = []) :
      EncodesBody d []
        (Make.ident "match" :: Make.op "*" ++ [Make.ident "self", Make.braces []])

end Methods

/-! ## Declarations -/

/-- The attributes of the key enum. -/
def keyAttributes : Tokens :=
  Make.op "#" ++ [Make.brackets [Make.ident "allow", Make.parens
      (Make.ident "non_camel_case_types" :: Make.op "," ++ [Make.ident "dead_code"])]]
    ++ Make.op "#" ++ [Make.brackets [Make.ident "derive", Make.parens
      (Make.ident "Clone" :: Make.op "," ++ Make.ident "Copy" :: Make.op "," ++ Make.ident "Debug"
        :: Make.op "," ++ Make.ident "PartialEq" :: Make.op "," ++ [Make.ident "Eq"])]]

/-- Code declares the key enum: its variants, and the text of each of them. -/
def DeclaresKeys (keys : KeyEnum) (visibility code : Tokens) : Prop :=
  code = keyAttributes ++ visibility
    ++ [Make.ident "enum", Make.ident keys.ident,
      Make.braces (keys.entries.flatMap fun e => Make.ident e.variant :: Make.op ",")]
    ++ [Make.ident "impl"] ++ Make.path true ["codable", "CodingKey"]
    ++ [Make.ident "for", Make.ident keys.ident, Make.braces
      ([Make.ident "fn", Make.ident "string_value",
          Make.parens (Make.op "&" ++ [Make.ident "self"])]
        ++ Make.op "->" ++ Make.op "&" ++ Make.lifetime "static" ++ [Make.ident "str"]
        ++ [Make.braces ([Make.ident "match"] ++ Make.op "*" ++ [Make.ident "self", Make.braces
          (keys.entries.flatMap fun e => Make.ident "Self" :: Make.op "::"
            ++ Make.ident e.variant :: Make.op "=>" ++ Make.string e.value :: Make.op ",")])])]

/-- The path of a protocol. -/
def protocol : Direction → Tokens
  | .decode => Make.path true ["codable", "Decodable"]
  | .encode => Make.path true ["codable", "Encodable"]

/-- The signature of the method of a protocol. -/
def signature : Direction → Tokens
  | .decode =>
      [Make.ident "fn", Make.ident "decode", Make.parens (Make.ident "decoder" :: Make.op ":"
          ++ (Make.op "&" ++ Make.path true ["codable", "Decoder"] ++ Make.op "<"
            ++ Make.lifetime "_" ++ Make.op ">"))]
        ++ Make.op "->" ++ Make.path true ["core", "result", "Result"] ++ Make.op "<"
        ++ [Make.ident "Self"] ++ Make.op "," ++ Make.path true ["codable", "CodingError"]
        ++ Make.op ">"
  | .encode =>
      [Make.ident "fn", Make.ident "encode", Make.parens (Make.op "&" ++ Make.ident "self"
          :: Make.op "," ++ (Make.ident "encoder" :: Make.op ":" ++ (Make.op "&"
            ++ Make.ident "mut" :: Make.path true ["codable", "Encoder"])))]
        ++ Make.op "->" ++ Make.path true ["core", "result", "Result"] ++ Make.op "<"
        ++ [Make.parens []] ++ Make.op "," ++ Make.path true ["codable", "CodingError"]
        ++ Make.op ">"

/-- Code implements a protocol by a method with a body, for every choice of type parameters that
conform to the protocol themselves. -/
def Implements (t : CodedType) (direction : Direction) (body code : Tokens) : Prop :=
  let conditions := t.generics.typeNames.map fun name => name ++ Make.op ":" ++ protocol direction
  let generics := t.generics.adding conditions
  code = Make.op "#" ++ [Make.brackets [Make.ident "automatically_derived"]]
    ++ Make.ident "impl" :: generics.implemented ++ protocol direction
    ++ [Make.ident "for", Make.ident t.ident] ++ generics.applied ++ generics.conditionTokens
    ++ [Make.braces (signature direction ++ [Make.braces body])]

end Code

end KeyedCoding
