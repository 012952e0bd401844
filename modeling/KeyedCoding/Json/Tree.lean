import KeyedCoding.Value

/-!
# Text-format trees

The tree behind JSON text.  Its numbers come in three disjoint forms: naturals of 64 bits,
negative integers of 64 bits, and finite binary numbers.  `Value.ofJson` and `Value.toJson` carry
data between this tree and value trees; a number that has no JSON form becomes null.
-/

namespace KeyedCoding

/-- A number of JSON text. -/
inductive JsonNumber where
  | natural (n : UInt64)
  | negative (n : Int64) (lt_zero : n.toInt < 0)
  | float (x : Binary64) (finite : x.isFinite = true)
deriving Repr

/-- A tree of JSON text. -/
inductive Json where
  | null
  | bool (b : Bool)
  | number (n : JsonNumber)
  | string (s : String)
  | array (items : List Json)
  | object (entries : List (String × Json))
deriving Repr

namespace JsonNumber

/-- The number of a signed integer. -/
def ofInt64 (n : Int64) : JsonNumber :=
  if h : n.toInt < 0 then negative n h else natural (UInt64.ofNat n.toInt.toNat)

/-- The integer, where it fits into 64 signed bits. -/
def signed? : JsonNumber → Option Int64
  | natural n => if n.toNat < Nat.pow 2 63 then some (Int64.ofNat n.toNat) else none
  | negative n _ => some n
  | float _ _ => none

/-- The integer, where it is natural. -/
def natural? : JsonNumber → Option UInt64
  | natural n => some n
  | _ => none

/-- The value of a number: the first of signed, unsigned and float that fits. -/
def toValue : JsonNumber → Value
  | natural n => Value.ofNat64 n
  | negative n _ => Value.int n
  | float x _ => Value.float x

end JsonNumber

namespace Json

/-- The tree of a binary number: null unless it is finite. -/
def ofBinary (x : Binary64) : Json :=
  if h : x.isFinite = true then number (.float x h) else null

end Json

namespace Value

mutual

/-- The value tree of a JSON tree. -/
def ofJson : Json → Value
  | .null => null
  | .bool b => bool b
  | .number n => n.toValue
  | .string s => string s
  | .array items => array (ofJsonItems items)
  | .object entries => object (ofJsonEntries entries)

/-- The value trees of items. -/
def ofJsonItems : List Json → List Value
  | [] => []
  | j :: rest => ofJson j :: ofJsonItems rest

/-- The value trees of entries. -/
def ofJsonEntries : List (String × Json) → List (String × Value)
  | [] => []
  | (key, j) :: rest => (key, ofJson j) :: ofJsonEntries rest

end

mutual

/-- The JSON tree of a value tree. -/
def toJson : Value → Json
  | null => .null
  | bool b => .bool b
  | int n => .number (JsonNumber.ofInt64 n)
  | uint n => .number (.natural n)
  | float x => Json.ofBinary x
  | string s => .string s
  | array items => .array (toJsonItems items)
  | object entries => .object (toJsonEntries entries)

/-- The JSON trees of items. -/
def toJsonItems : List Value → List Json
  | [] => []
  | v :: rest => toJson v :: toJsonItems rest

/-- The JSON trees of entries. -/
def toJsonEntries : List (String × Value) → List (String × Json)
  | [] => []
  | (key, v) :: rest => (key, toJson v) :: toJsonEntries rest

end

end Value

end KeyedCoding
