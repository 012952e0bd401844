import KeyedCoding.Proofs.Value.Canonical

/-!
# Between JSON trees and value trees

A JSON tree that becomes a value tree and then a JSON tree again is what it was, and a value tree on
the other way round becomes canonical.  All that has to be decided on the way is the form of a
number, and `JsonNumber.toValue_eq` says how: a number is taken for the first of a signed integer, a
natural one and a binary number.
-/

namespace KeyedCoding

/-! ## The form of a number -/

namespace JsonNumber

/-- The binary number nearest to a number; a number without an integer form is one itself. -/
def binary : JsonNumber → Binary64
  | natural n => Binary64.ofInt n.toNat
  | negative n _ => Binary64.ofInt n.toInt
  | float x _ => x

/-- The integer views of a number are tried before the binary one, the signed before the natural. -/
theorem toValue_eq (n : JsonNumber) :
    n.toValue =
      match n.signed?, n.natural? with
      | some i, _ => .int i
      | none, some u => .uint u
      | none, none => .float n.binary := by
  cases n with
  | natural n =>
      by_cases hfits : n.toNat < Nat.pow 2 63
      · simp only [toValue, signed?, if_pos hfits, Value.ofNat64_of_lt hfits]
      · simp only [toValue, signed?, natural?, if_neg hfits,
          Value.ofNat64_of_le (Nat.le_of_not_lt hfits)]
  | negative n hneg => rfl
  | float x hfinite => rfl

/-- A number with a signed view is the number of that integer. -/
theorem ofInt64_of_signed? {n : JsonNumber} {i : Int64} (h : n.signed? = some i) :
    ofInt64 i = n := by
  cases n with
  | natural m =>
      simp only [signed?, Option.ite_none_right_eq_some, Option.some.injEq] at h
      obtain ⟨hfits, rfl⟩ := h
      have htoInt : (Int64.ofNat m.toNat).toInt = m.toNat := Int64.toInt_ofNat_of_lt hfits
      have hnonneg : ¬ (Int64.ofNat m.toNat).toInt < 0 := by omega
      rw [ofInt64, dif_neg hnonneg, htoInt, Int.toNat_natCast, UInt64.ofNat_toNat]
  | negative m hneg =>
      cases h
      exact dif_pos hneg
  | float x hfinite => cases h

theorem natural_of_natural? {n : JsonNumber} {u : UInt64} (h : n.natural? = some u) :
    natural u = n := by
  cases n <;> cases h
  rfl

/-- A number without an integer view is a binary one. -/
theorem ofBinary_binary {n : JsonNumber} (hsigned : n.signed? = none)
    (hnatural : n.natural? = none) : Json.ofBinary n.binary = .number n := by
  cases n with
  | natural n => cases hnatural
  | negative n hneg => cases hsigned
  | float x hfinite => exact dif_pos hfinite

/-- The value of a number tells which number it was. -/
theorem toJson_toValue (n : JsonNumber) : n.toValue.toJson = .number n := by
  rw [toValue_eq]
  split
  · next hsigned => exact congrArg Json.number (ofInt64_of_signed? hsigned)
  · next hnatural => exact congrArg Json.number (natural_of_natural? hnatural)
  · next hsigned hnatural => exact ofBinary_binary hsigned hnatural

end JsonNumber

/-! ## There and back from JSON -/

namespace Value

mutual

/-- A JSON tree that goes to a value tree and back is unchanged. -/
theorem toJson_ofJson : (j : Json) → (ofJson j).toJson = j
  | .null => rfl
  | .bool _ => rfl
  | .number n => n.toJson_toValue
  | .string _ => rfl
  | .array items => congrArg Json.array (toJsonItems_ofJsonItems items)
  | .object entries => congrArg Json.object (toJsonEntries_ofJsonEntries entries)

theorem toJsonItems_ofJsonItems : (items : List Json) → toJsonItems (ofJsonItems items) = items
  | [] => rfl
  | j :: rest => congrArg₂ List.cons (toJson_ofJson j) (toJsonItems_ofJsonItems rest)

theorem toJsonEntries_ofJsonEntries : (entries : List (String × Json)) →
    toJsonEntries (ofJsonEntries entries) = entries
  | [] => rfl
  | (key, j) :: rest =>
      congrArg₂ List.cons (congrArg (Prod.mk key) (toJson_ofJson j))
        (toJsonEntries_ofJsonEntries rest)

end

/-- Nothing of a JSON tree is lost in the value tree that it becomes, and of a value tree that
becomes a JSON tree nothing but what makes it canonical. -/
theorem lossless_between_json :
    (∀ j : Json, (ofJson j).toJson = j) ∧ ∀ v : Value, ofJson v.toJson = v.canonical :=
  ⟨toJson_ofJson, ofJson_toJson⟩

end Value

end KeyedCoding
