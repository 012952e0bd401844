import KeyedCoding.Json.Tree
import KeyedCoding.Proofs.Value.Entries

/-!
# Canonical trees

JSON text does not tell an unsigned number from a signed one of the same value, and has no form for
a number that is not finite.  `Value.canonical` is what is left of a tree: going to a JSON tree and
back makes a tree canonical, and changes nothing else.
-/

namespace KeyedCoding

namespace Value

mutual

/-- The tree with unsigned numbers made signed where they fit, and null for what is not finite. -/
def canonical : Value → Value
  | null => null
  | bool b => bool b
  | int n => int n
  | uint n => if n.toNat < Nat.pow 2 63 then int (Int64.ofNat n.toNat) else uint n
  | float x => if x.isFinite then float x else null
  | string s => string s
  | array items => array (canonicalItems items)
  | object entries => object (canonicalEntries entries)

/-- The items of an array made canonical. -/
def canonicalItems : List Value → List Value
  | [] => []
  | v :: rest => canonical v :: canonicalItems rest

/-- The entries of an object made canonical, each at its key. -/
def canonicalEntries : List (String × Value) → List (String × Value)
  | [] => []
  | (key, v) :: rest => (key, canonical v) :: canonicalEntries rest

end

end Value

/-! ## There and back -/

/-- A signed number keeps its value and its form. -/
theorem JsonNumber.toValue_ofInt64 (n : Int64) : (ofInt64 n).toValue = .int n := by
  unfold ofInt64
  by_cases hneg : n.toInt < 0
  · rw [dif_pos hneg]
    rfl
  · rw [dif_neg hneg]
    have hlt : n.toInt < 2 ^ 63 := n.toInt_lt
    have htoNat : (UInt64.ofNat n.toInt.toNat).toNat = n.toInt.toNat := by
      rw [UInt64.toNat_ofNat']
      omega
    have hcast : ((n.toInt.toNat : Nat) : Int) = n.toInt := Int.toNat_of_nonneg (by omega)
    have hback : Int64.ofNat n.toInt.toNat = n := by
      rw [← Int64.ofInt_eq_ofNat, hcast, Int64.ofInt_toInt]
    have hfits : (UInt64.ofNat n.toInt.toNat).toNat < Nat.pow 2 63 := by
      show _ < 2 ^ 63
      omega
    show Value.ofNat64 (UInt64.ofNat n.toInt.toNat) = .int n
    rw [Value.ofNat64_of_lt hfits, htoNat, hback]

theorem Value.ofJson_ofBinary (x : Binary64) :
    ofJson (Json.ofBinary x) = (Value.float x).canonical := by
  unfold Json.ofBinary
  by_cases hfinite : x.isFinite = true
  · rw [dif_pos hfinite, canonical, if_pos hfinite]
    rfl
  · rw [dif_neg hfinite, canonical, if_neg hfinite]
    rfl

namespace Value

mutual

/-- A tree that goes to JSON and back becomes canonical. -/
theorem ofJson_toJson : (v : Value) → ofJson v.toJson = v.canonical
  | null => rfl
  | bool _ => rfl
  | int n => JsonNumber.toValue_ofInt64 n
  | uint _ => rfl
  | float x => ofJson_ofBinary x
  | string _ => rfl
  | array items => congrArg array (ofJsonItems_toJsonItems items)
  | object entries => congrArg object (ofJsonEntries_toJsonEntries entries)

theorem ofJsonItems_toJsonItems : (items : List Value) →
    ofJsonItems (toJsonItems items) = canonicalItems items
  | [] => rfl
  | v :: rest => congrArg₂ List.cons (ofJson_toJson v) (ofJsonItems_toJsonItems rest)

theorem ofJsonEntries_toJsonEntries : (entries : List (String × Value)) →
    ofJsonEntries (toJsonEntries entries) = canonicalEntries entries
  | [] => rfl
  | (key, v) :: rest =>
      congrArg₂ List.cons (congrArg (Prod.mk key) (ofJson_toJson v))
        (ofJsonEntries_toJsonEntries rest)

end

end Value

end KeyedCoding
