import KeyedCoding.Number.Binary
import KeyedCoding.Value.Entries

/-!
# Value trees

The format-independent tree that decoding reads and encoding writes.  Signed integers fill 64
bits; `Value.uint` is meant for the unsigned numbers beyond them, and `Value.ofNat64` picks it
only for those.
-/

namespace KeyedCoding

/-- A tree of plain data. -/
inductive Value where
  | null
  | bool (b : Bool)
  | int (n : Int64)
  | uint (n : UInt64)
  | float (x : Binary64)
  | string (s : String)
  | array (items : List Value)
  | object (entries : List (String × Value))
deriving Repr

namespace Value

instance : Inhabited Value := ⟨null⟩

/-- Name of a tree's outermost form, as error messages give it. -/
def kindName : Value → String
  | null => "null"
  | bool _ => "bool"
  | int _ => "integer"
  | uint _ => "integer"
  | float _ => "float"
  | string _ => "string"
  | array _ => "array"
  | object _ => "object"

/-- Whether the tree is null. -/
def isNull : Value → Bool
  | null => true
  | _ => false

/-- The entries of an object. -/
def entries? : Value → Option (Entries Value)
  | object entries => some entries
  | _ => none

/-- What an object holds at `key`. -/
def get? (v : Value) (key : String) : Option Value :=
  v.entries?.bind fun entries => Entries.get? entries key

/-- An unsigned number: signed where it fits into 63 bits. -/
def ofNat64 (n : UInt64) : Value :=
  if n.toNat < Nat.pow 2 63 then int (Int64.ofNat n.toNat) else uint n

/-- An integer that fits neither form has no tree. -/
def ofInteger? (n : Int) : Option Value :=
  if -(Nat.pow 2 63 : Nat) ≤ n ∧ n < (Nat.pow 2 63 : Nat) then some (int (Int64.ofInt n))
  else if 0 ≤ n ∧ n < (Nat.pow 2 64 : Nat) then some (uint (UInt64.ofNat n.toNat))
  else none

/-- The integer of either integer form. -/
def integer? : Value → Option Int
  | int n => some n.toInt
  | uint n => some (n.toNat : Int)
  | _ => none

/-- An object put together from pairs; of two pairs with one key the later stays. -/
def ofPairs (pairs : List (String × Value)) : Value :=
  object (Entries.ofList pairs)

mutual

/-- Number of arrays and objects on the longest way down. -/
def depth : Value → Nat
  | array items => depthItems items + 1
  | object entries => depthEntries entries + 1
  | _ => 0

/-- The greatest depth among items. -/
def depthItems : List Value → Nat
  | [] => 0
  | v :: rest => max (depth v) (depthItems rest)

/-- The greatest depth among entries. -/
def depthEntries : List (String × Value) → Nat
  | [] => 0
  | (_, v) :: rest => max (depth v) (depthEntries rest)

end

theorem ofNat64_of_lt {n : UInt64} (h : n.toNat < Nat.pow 2 63) :
    ofNat64 n = int (Int64.ofNat n.toNat) := by
  simp only [ofNat64, if_pos h]

theorem ofNat64_of_le {n : UInt64} (h : Nat.pow 2 63 ≤ n.toNat) : ofNat64 n = uint n := by
  simp only [ofNat64, if_neg (Nat.not_lt.mpr h)]

end Value

end KeyedCoding
