import KeyedCoding.Proofs.Coding.Return

/-!
# Integers between types

An integer type has the numbers that its words stand for.  A number is written as one tree whichever
type it is of: in the signed form up to the greatest number of that form, in the unsigned form
beyond.  Every type reads both forms of every number, as the number itself if a word of its own
stands for it, and as an error that names the number if none does.  So a number is never cut down
to the width of a word.
-/

namespace KeyedCoding

/-! ## The numbers of a type -/

namespace IntKind

/-- The words of an integer type. -/
abbrev Word (kind : IntKind) := BitVec kind.bits

/-- The number that a word stands for, in two's complement if the type is signed. -/
def number (kind : IntKind) (w : kind.Word) : Int := if kind.signed then w.toInt else w.toNat

/-- A type has the numbers that its words stand for. -/
def Has (kind : IntKind) (n : Int) : Prop := ∃ w, kind.number w = n

theorem bits_pos (kind : IntKind) : 0 < kind.bits := by cases kind <;> decide

theorem has_of_signed {kind : IntKind} (hsigned : kind.signed = true) {n : Int} :
    kind.Has n ↔
      -(Nat.pow 2 (kind.bits - 1) : Nat) ≤ n ∧ n < (Nat.pow 2 (kind.bits - 1) : Nat) := by
  have hpow : ((Nat.pow 2 (kind.bits - 1) : Nat) : Int) = 2 ^ (kind.bits - 1) :=
    Int.natCast_pow 2 _
  simp only [Has, number, hsigned, if_true, hpow]
  constructor
  · rintro ⟨w, rfl⟩
    exact ⟨w.le_toInt, w.toInt_lt⟩
  · rintro ⟨hleast, hgreatest⟩
    exact ⟨BitVec.ofInt kind.bits n, BitVec.toInt_ofInt_eq_self kind.bits_pos hleast hgreatest⟩

theorem has_of_unsigned {kind : IntKind} (hunsigned : kind.signed = false) {n : Int} :
    kind.Has n ↔ 0 ≤ n ∧ n < (Nat.pow 2 kind.bits : Nat) := by
  simp only [Has, number, hunsigned, Bool.false_eq_true, if_false]
  constructor
  · rintro ⟨w, rfl⟩
    exact ⟨Int.natCast_nonneg _, Int.ofNat_lt.mpr w.isLt⟩
  · rintro ⟨hleast, hgreatest⟩
    have hlt : n.toNat < 2 ^ kind.bits := (Int.toNat_lt hleast).mpr hgreatest
    refine ⟨BitVec.ofNat kind.bits n.toNat, ?_⟩
    rw [BitVec.toNat_ofNat, Nat.mod_eq_of_lt hlt, Int.toNat_of_nonneg hleast]

/-- The bounds of a type enclose the numbers of its words and no others. -/
theorem fits_iff_has {kind : IntKind} {n : Int} : kind.fits n = true ↔ kind.Has n := by
  unfold fits least greatest
  rw [Bool.and_eq_true, decide_eq_true_iff, decide_eq_true_iff, Int.le_sub_one_iff]
  by_cases hsigned : kind.signed = true
  · rw [has_of_signed hsigned, if_pos hsigned, if_pos hsigned]
  · rw [has_of_unsigned (by simpa using hsigned), if_neg hsigned, if_neg hsigned]

/-- What a type makes of a number at a place: the number itself if the type has it, else an error
that names the number and the type. -/
structure TakesOver (kind : IntKind) (n : Int) (path : CodingPath)
    (result : Except CodingError Datum) : Prop where
  has : kind.Has n → result = .ok (.int n)
  lacks : ¬ kind.Has n → result = .error ⟨path, .outOfRange (toString n) kind.name⟩

end IntKind

/-! ## The tree of a number -/

/-- The tree that is written for a number: the signed form up to the greatest number that it has,
the unsigned form beyond. -/
structure Value.WrittenFor (v : Value) (n : Int) : Prop where
  signed : n ≤ Int64.maxValue.toInt → ∃ m : Int64, v = .int m ∧ m.toInt = n
  unsigned : Int64.maxValue.toInt < n → ∃ m : UInt64, v = .uint m ∧ (m.toNat : Int) = n

/-- A number of an integer type has a tree, in the form that belongs to it. -/
theorem IntKind.Has.exists_writtenFor {kind : IntKind} {n : Int} (h : kind.Has n) :
    ∃ v, Value.ofInteger? n = some v ∧ v.integer? = some n ∧ v.WrittenFor n := by
  have hfits := fits_iff_has.mpr h
  have hbounds := bounds_of_fits hfits
  obtain ⟨v, hv, hn⟩ := exists_integer_of_fits hfits
  refine ⟨v, hv, hn, fun hle => ?_, fun hlt => ?_⟩
  · rw [Int64.toInt_maxValue] at hle
    rw [Value.ofInteger?_of_signed ⟨hbounds.1, by omega⟩, Option.some.injEq] at hv
    subst hv
    exact ⟨_, rfl, Option.some.inj hn⟩
  · rw [Int64.toInt_maxValue] at hlt
    rw [Value.ofInteger?_of_unsigned ⟨by omega, hbounds.2⟩, Option.some.injEq] at hv
    subst hv
    exact ⟨_, rfl, Option.some.inj hn⟩

/-! ## From type to type -/

namespace Registry

/-- A type takes over the number of either integer form. -/
theorem takesOver_decode (types : Registry) (kind : IntKind) {v : Value} {n : Int}
    (h : v.integer? = some n) (path : CodingPath) :
    kind.TakesOver n path (types.decode (.int kind) ⟨v, path⟩) := by
  have hdecode : types.decode (.int kind) ⟨v, path⟩ =
      (decodeInteger kind ⟨v, path⟩).map .int := rfl
  rw [hdecode, decodeInteger]
  simp only [h]
  constructor
  · intro hhas
    rw [if_pos (IntKind.fits_iff_has.mpr hhas)]
    rfl
  · intro hlacks
    rw [if_neg fun hfits => hlacks (IntKind.fits_iff_has.mp hfits)]
    rfl

theorem encode_int_eq (types : Registry) (kind : IntKind) {n : Int} {v : Value}
    (h : Value.ofInteger? n = some v) :
    types.encode (.int kind) (.int n) = Encoding.value v := by
  show encodeInteger n = _
  rw [encodeInteger, h]

/-- The number of every word is written as one tree by all types that have the number, and is taken
over from that tree by every type; so is any number from either integer form, wherever it
stands. -/
theorem integers_cross_types (types : Registry) :
    (∀ (source : IntKind) (w : source.Word), ∃ v, v.WrittenFor (source.number w) ∧
      (∀ other : IntKind, other.Has (source.number w) →
        types.encode (.int other) (.int (source.number w)) = Encoding.value v ∧
        types.toValue (.int other) (.int (source.number w)) = .ok v) ∧
      ∀ target : IntKind,
        target.TakesOver (source.number w) .root (types.fromValue (.int target) v)) ∧
    (∀ (target : IntKind) (m : Int64) (path : CodingPath),
      target.TakesOver m.toInt path (types.decode (.int target) ⟨.int m, path⟩)) ∧
    ∀ (target : IntKind) (m : UInt64) (path : CodingPath),
      target.TakesOver m.toNat path (types.decode (.int target) ⟨.uint m, path⟩) := by
  refine ⟨fun source w => ?_, fun target m path => types.takesOver_decode target rfl path,
    fun target m path => types.takesOver_decode target rfl path⟩
  have hhas : source.Has (source.number w) := ⟨w, rfl⟩
  obtain ⟨v, hv, hn, hwritten⟩ := hhas.exists_writtenFor
  refine ⟨v, hwritten, fun other _ => ?_, fun target => types.takesOver_decode target hn .root⟩
  have hencode := types.encode_int_eq other hv
  refine ⟨hencode, ?_⟩
  rw [toValue, hencode]
  exact Encoding.toValue_eq_ok_iff.mpr (Encoding.writes_value v .root)

/-- The first number beyond the signed ones, written as a `u64`, is a `usize` and no `i64`. -/
theorem first_unsigned_crosses :
    ∃ v, (Registry.mk []).toValue (.int .u64) (.int 9223372036854775808) = .ok v ∧
      v = .uint 9223372036854775808 ∧
      (Registry.mk []).fromValue (.int .usize) v = .ok (.int 9223372036854775808) ∧
      (Registry.mk []).fromValue (.int .i64) v =
        .error ⟨.root, .outOfRange "9223372036854775808" "i64"⟩ := by
  obtain ⟨v, hwritten, hwrite, hread⟩ :=
    (integers_cross_types (Registry.mk [])).1 .u64 9223372036854775808#64
  have hnumber : IntKind.number .u64 9223372036854775808#64 = 9223372036854775808 := by decide
  rw [hnumber] at hwritten hwrite hread
  obtain ⟨m, rfl, hm⟩ := hwritten.unsigned (by decide)
  have hm' : m = 9223372036854775808 := UInt64.toNat_inj.mp (Int.ofNat.inj hm)
  have hi64 : ¬ IntKind.Has .i64 9223372036854775808 := by
    rw [← IntKind.fits_iff_has]
    decide
  refine ⟨.uint m, (hwrite .u64 (IntKind.fits_iff_has.mp (by decide))).2, by rw [hm'],
    (hread .usize).has (IntKind.fits_iff_has.mp (by decide)), ?_⟩
  have htext : toString (9223372036854775808 : Int) = "9223372036854775808" := by decide
  rw [(hread .i64).lacks hi64, htext]
  rfl

end Registry

end KeyedCoding
