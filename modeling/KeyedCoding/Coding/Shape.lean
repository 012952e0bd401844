import KeyedCoding.Coding.Error

/-!
# Shapes and data

A shape is a type that can be coded: a built-in one, a composition of shapes, or a declared type
referred to by name.  A datum is a value of a shape.
-/

namespace KeyedCoding

/-- The integer types. -/
inductive IntKind where
  | i8 | i16 | i32 | i64 | isize | u8 | u16 | u32 | u64 | usize
deriving DecidableEq, Repr

namespace IntKind

/-- Name of the type, as error messages give it. -/
def name : IntKind → String
  | i8 => "i8"
  | i16 => "i16"
  | i32 => "i32"
  | i64 => "i64"
  | isize => "isize"
  | u8 => "u8"
  | u16 => "u16"
  | u32 => "u32"
  | u64 => "u64"
  | usize => "usize"

/-- Number of bits; the size types have 64. -/
def bits : IntKind → Nat
  | i8 | u8 => 8
  | i16 | u16 => 16
  | i32 | u32 => 32
  | i64 | u64 | isize | usize => 64

/-- Whether the type has negative numbers. -/
def signed : IntKind → Bool
  | i8 | i16 | i32 | i64 | isize => true
  | u8 | u16 | u32 | u64 | usize => false

/-- The least number. -/
def least (k : IntKind) : Int := if k.signed then -(Nat.pow 2 (k.bits - 1) : Nat) else 0

/-- The greatest number. -/
def greatest (k : IntKind) : Int :=
  (Nat.pow 2 (if k.signed then k.bits - 1 else k.bits) : Nat) - 1

/-- Whether the type has the number. -/
def fits (k : IntKind) (n : Int) : Bool := k.least ≤ n && n ≤ k.greatest

/-- All integer types. -/
def all : List IntKind := [i8, i16, i32, i64, isize, u8, u16, u32, u64, usize]

/-- The integer type of a name. -/
def ofName? (name : String) : Option IntKind := all.find? fun k => k.name == name

end IntKind

/-- How a string-keyed map orders its entries: by key, or in an order of its own. -/
inductive MapKind where
  | ordered
  | hashed
deriving DecidableEq, Repr

/-- A type that can be coded. -/
inductive Shape where
  | bool
  | int (kind : IntKind)
  | float32
  | float64
  | string
  | char
  /-- Any value tree, as it is. -/
  | value
  | option (inner : Shape)
  | box (inner : Shape)
  | list (inner : Shape)
  | map (kind : MapKind) (inner : Shape)
  /-- A marker without content. -/
  | phantom
  /-- A declared type. -/
  | named (name : String)
deriving DecidableEq, Repr

/-- A value of a shape.  A boxed value is its content. -/
inductive Datum where
  | bool (b : Bool)
  | int (n : Int)
  | float32 (x : Binary32)
  | float64 (x : Binary64)
  | string (s : String)
  | char (c : Char)
  | value (v : Value)
  | none
  | some (x : Datum)
  | list (items : List Datum)
  | map (entries : List (String × Datum))
  | phantom
  | record (fields : List Datum)
  | variant (name : String) (fields : List Datum)
deriving Repr

namespace Datum

mutual

/-- Number of declared types on the longest way down. -/
def depth : Datum → Nat
  | some x => depth x
  | list items => depthItems items
  | map entries => depthEntries entries
  | record fields => depthItems fields + 1
  | variant _ fields => depthItems fields + 1
  | _ => 0

/-- The greatest depth among items. -/
def depthItems : List Datum → Nat
  | [] => 0
  | x :: rest => max (depth x) (depthItems rest)

/-- The greatest depth among entries. -/
def depthEntries : List (String × Datum) → Nat
  | [] => 0
  | (_, x) :: rest => max (depth x) (depthEntries rest)

end

end Datum

namespace Shape

/-- The datum that stands for a shape where none is given; declared types have none. -/
def zero? : Shape → Option Datum
  | bool => some (.bool false)
  | int _ => some (.int 0)
  | float32 => some (.float32 ⟨0⟩)
  | float64 => some (.float64 ⟨0⟩)
  | string => some (.string "")
  | char => some (.char '\x00')
  | value => some (.value .null)
  | option _ => some .none
  | box inner => zero? inner
  | list _ => some (.list [])
  | map _ _ => some (.map [])
  | phantom => some .phantom
  | named _ => none

/-- What an absent entry means: nothing for an option, the marker for a marker, and an error for
every other shape. -/
def missing : Shape → CodingPath → String → Except CodingError Datum
  | option _, _, _ => .ok .none
  | phantom, _, _ => .ok .phantom
  | _, path, key => .error ⟨path, .keyNotFound key⟩

end Shape

end KeyedCoding
