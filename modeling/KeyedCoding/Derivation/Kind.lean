import KeyedCoding.Source.Attribute

/-!
# Kinds of declarations

What attributes can be attached to, and a declaration seen from the attributes on it.
-/

namespace KeyedCoding

/-- What kind of thing a declaration declares. -/
inductive DeclarationKind where
  | struct
  | enum
  | union
  | function
  | trait
  | implementation
  | field
  | variant
  | other
deriving DecidableEq, Repr

namespace DeclarationKind

/-- The kind in messages. -/
def name : DeclarationKind → String
  | struct => "struct"
  | enum => "enum"
  | union => "union"
  | function => "function"
  | trait => "trait"
  | implementation => "impl"
  | field => "field"
  | variant => "enum variant"
  | other => "item"

/-- Kinds as alternatives in words. -/
def describe (kinds : List DeclarationKind) : String :=
  match kinds.reverse with
  | [] => "no"
  | [only] => only.name
  | last :: before => ", ".intercalate (before.reverse.map name) ++ " or " ++ last.name

end DeclarationKind

/-- A declaration with the attributes attached to it. -/
structure Target where
  kind : DeclarationKind
  name : String
  attributes : List Attribute

/-- Number of attributes of a name. -/
def Target.count (t : Target) (name : String) : Nat :=
  (t.attributes.filter fun a => a.isNamed name).length

end KeyedCoding
