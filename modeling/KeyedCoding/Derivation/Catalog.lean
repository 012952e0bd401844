import KeyedCoding.Derivation.Arguments
import KeyedCoding.Derivation.Rule

/-!
# The catalog of attributes

The attributes that are known, each with its name, the kinds it may stand on, how its arguments are
checked and what it may or must stand beside.
-/

namespace KeyedCoding

/-- A known attribute. -/
inductive Known where
  | codable
  | memberInit
  | codingKeys
  | codedAt
  | codedAs
  | codedBy
  | defaultValue
  | initial
  | ignoreCoding
  | ignoreDecoding
  | ignoreEncoding
deriving DecidableEq, Repr

namespace Known

/-- All known attributes. -/
def all : List Known :=
  [codable, memberInit, codingKeys, codedAt, codedAs, codedBy, defaultValue, initial,
    ignoreCoding, ignoreDecoding, ignoreEncoding]

/-- The name that an attribute is written with. -/
def name : Known → String
  | codable => "codable"
  | memberInit => "member_init"
  | codingKeys => "coding_keys"
  | codedAt => "coded_at"
  | codedAs => "coded_as"
  | codedBy => "coded_by"
  | defaultValue => "default_value"
  | initial => "initial"
  | ignoreCoding => "ignore_coding"
  | ignoreDecoding => "ignore_decoding"
  | ignoreEncoding => "ignore_encoding"

/-- The kinds of declarations an attribute may stand on. -/
def kinds : Known → List DeclarationKind
  | codable | codingKeys => [.struct, .enum]
  | memberInit => [.struct]
  | codedAs => [.variant]
  | _ => [.field]

/-- How bad it is if an attribute stands beside the one that ignores its member. -/
def ignored? : Known → Option Severity
  | codedAt | codedBy => some .error
  | ignoreDecoding | ignoreEncoding => some .warning
  | _ => none

/-- Whether the arguments of an attribute are accepted. -/
def check : Known → Attribute → Except Failure Unit
  | codable, a => a.protocols.map fun _ => ()
  | codingKeys, a => a.strategy.map fun _ => ()
  | codedAt, a | codedAs, a => a.keyArgument.map fun _ => ()
  | codedBy, a => a.pathArgument.map fun _ => ()
  | defaultValue, a | initial, a => a.expressionArgument.map fun _ => ()
  | memberInit, a | ignoreCoding, a | ignoreDecoding, a | ignoreEncoding, a => a.noArguments

/-- The check with its failure as a list. -/
def checkAll (k : Known) (a : Attribute) : Except (List Failure) Unit :=
  match k.check a with
  | .ok _ => .ok ()
  | .error f => .error [f]

/-- The known attribute that an attribute is. -/
def of? (a : Attribute) : Option Known := all.find? fun k => a.isNamed k.name

/-- Whether an attribute is known. -/
def isKnown (a : Attribute) : Bool := all.any fun k => a.isNamed k.name

/-- The rule for one use of a known attribute. -/
def rule (k : Known) (a : Attribute) : Rule :=
  let ref : AttributeRef := ⟨k.name, a.span⟩
  let excluded := match k.ignored? with
    | some severity => [Rule.excludes ref ignoreCoding.name severity]
    | none => []
  let required := if k = codingKeys then [Rule.requires ref codable.name] else []
  .all ([.expects ref k.kinds, .once ref] ++ excluded ++ required
    ++ [.arguments ref a k.checkAll])

/-- What the rules of the known attributes of a target find, in source order. -/
def findings (target : Target) : List Diagnostic :=
  target.attributes.flatMap fun a =>
    match of? a with
    | some k => (k.rule a).findings target
    | none => []

end Known

end KeyedCoding
