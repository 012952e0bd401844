import KeyedCoding.Proofs.Coding.Levels
import KeyedCoding.Proofs.Coding.Typing

/-!
# Written and read back

`Returns` says what becomes of a datum that is written and read back: of a datum of a helper, of a
member, of a shape.  The members of an object come back one by one as long as their keys differ, so
structs and variants return what their members return.
-/

namespace KeyedCoding

/-- A helper gives a datum back: wherever it writes the datum, it reads what it wrote as the same
datum, wherever that stands. -/
def Helper.Returns (helper : Helper) (x : Datum) : Prop :=
  ∀ path, ∃ v, (helper.encode x).Writes path v ∧ ∀ place, helper.decode ⟨v, place⟩ = .ok x

/-- A datum `x` of a shape that is written at a path is read back as `y`. -/
def Registry.Returns (types : Registry) (path : CodingPath) (shape : Shape) (x y : Datum) : Prop :=
  ∃ v, (types.encode shape x).Writes path v ∧ ∀ place, types.decode shape ⟨v, place⟩ = .ok y

/-- A member is read as `y` from every object that holds what it wrote for `x`, or from every
object if it wrote nothing. -/
structure Member.Returns (types : Registry) (path : CodingPath) (m : Member) (x y : Datum) :
    Prop where
  written : m.encoded = true → ∃ v, (m.writing types.encode x).Writes (path.child m.key) v ∧
    ∀ c : KeyedDecoder, Entries.get? c.entries m.key = some v → m.decode types.decode c = .ok y
  unwritten : m.encoded = false → ∀ c, m.decode types.decode c = .ok y

/-- The helper for optional strings gives every datum of its shape back. -/
theorem Helper.returns_bang {types : Registry} {coded : Helper → Datum → Prop} {x : Datum}
    (h : x.HasShape types coded (.option .string)) : Helper.bang.Returns x := by
  intro path
  cases h with
  | none => exact ⟨.null, Encoding.writes_value _ path, fun _ => rfl⟩
  | some hinner =>
      cases hinner with
      | string s =>
          refine ⟨.string ("!" ++ s), Encoding.writes_value _ path, fun place => ?_⟩
          have hbehind : Helper.behindBang ("!" ++ s).toList = some s := by
            rw [String.toList_append]
            show some (String.ofList s.toList) = some s
            rw [String.ofList_toList]
          simp only [Helper.bang, decodeString, hbehind, bind, Except.bind]

/-! ## Lists side by side -/

/-- If every element has an image that relates to `f` of it, the images make a list. -/
theorem exists_forall₂_map {α β γ : Type} {P : α → β → Prop} (Q : β → γ → Prop) (f : α → γ)
    {as : List α} (h : ∀ a ∈ as, ∃ b, P a b ∧ Q b (f a)) :
    ∃ bs, List.Forall₂ P as bs ∧ List.Forall₂ Q bs (as.map f) := by
  induction as with
  | nil => exact ⟨[], .nil, .nil⟩
  | cons a rest ih =>
      obtain ⟨b, hP, hQ⟩ := h a List.mem_cons_self
      obtain ⟨bs, hPs, hQs⟩ := ih fun a' ha' => h a' (List.mem_cons_of_mem _ ha')
      exact ⟨b :: bs, .cons hP hPs, .cons hQ hQs⟩

theorem forall₂_zipWith {α β γ : Type} {R : α → β → Prop} {S : α → γ → Prop} (f : α → β → γ)
    (hRS : ∀ a b, R a b → S a (f a b)) {as : List α} {bs : List β} (h : List.Forall₂ R as bs) :
    List.Forall₂ S as (List.zipWith f as bs) := by
  induction h with
  | nil => exact .nil
  | cons hab _ ih => exact .cons (hRS _ _ hab) ih

/-! ## Members -/

section Members

variable {types : Registry} {path : CodingPath} {members : List Member} {fields : List Datum}
  {f : Member → Datum → Datum}

/-- A member that is read comes back as its value does, unless null is written beside a default. -/
theorem Member.returns_of_value {m : Member} {x y : Datum} (hencoded : m.encoded = true)
    (hsource : ∀ z, m.source ≠ .fixed z) {w : Value}
    (hwrites : (m.writing types.encode x).Writes (path.child m.key) w)
    (hread : ∀ place, m.reading types.decode ⟨w, place⟩ = .ok y)
    (hnull : (∃ z, m.source = .defaulted z) → w.isNull = false) :
    m.Returns types path x y where
  written _ := by
    refine ⟨w, hwrites, fun c hw => ?_⟩
    cases hm : m.source with
    | required => rw [decode_of_required hm hw, hread]
    | defaulted z => exact decode_of_defaulted hm hw (hnull ⟨z, hm⟩) (hread _)
    | fixed z => exact absurd hm (hsource z)
  unwritten hnot := by
    rw [hencoded] at hnot
    cases hnot

/-- Members whose written keys differ come back together if each comes back alone. -/
theorem encodeMembers_decodeMembers (hkeys : (writtenKeys members).Nodup)
    (h : List.Forall₂ (fun m x => m.Returns types path x (f m x)) members fields) :
    ∃ final, encodeMembers types.encode members fields (Encoder.holding path []) =
        .ok () (Encoder.holding path final) ∧
      ∀ place, decodeMembers types.decode ⟨final, place⟩ members =
        .ok (List.zipWith f members fields) := by
  obtain ⟨final, hrun, hheld, -⟩ := encodeMembers_holding
    (fun m x v => ∀ c : KeyedDecoder, Entries.get? c.entries m.key = some v →
      m.decode types.decode c = .ok (f m x)) hkeys (h.imp fun _ _ hm => hm.written) []
  refine ⟨final, hrun, fun place => ?_⟩
  -- at the end of the run each written key still holds what its member wrote
  have hdecode : List.Forall₂
      (fun m x => m.decode types.decode ⟨final, place⟩ = .ok (f m x)) members fields := by
    refine List.Forall₂.mp (fun m x hm hfinal => ?_) h hheld
    by_cases hencoded : m.encoded = true
    · obtain ⟨v, hv, hread⟩ := hfinal hencoded
      exact hread ⟨final, place⟩ hv
    · exact hm.unwritten (by simpa using hencoded) ⟨final, place⟩
  exact decodeMembers_eq_ok_iff.mpr (forall₂_zipWith f (fun _ _ hm => hm) hdecode)

variable {title : String}

/-- A struct returns what its members return. -/
theorem Schema.returns_struct (hkeys : (writtenKeys members).Nodup)
    (h : List.Forall₂ (fun m x => m.Returns types path x (f m x)) members fields) :
    ∃ v, ((Schema.struct title members).encode types.encode (.record fields)).Writes path v ∧
      ∀ place, (Schema.struct title members).decode types.decode ⟨v, place⟩ =
        .ok (.record (List.zipWith f members fields)) := by
  obtain ⟨final, hrun, hread⟩ := encodeMembers_decodeMembers hkeys h
  refine ⟨.object final, ⟨Encoder.holding path final, hrun, rfl⟩, fun place => ?_⟩
  rw [Schema.decode_struct, readMembers_object, hread]
  rfl

/-- An enum returns the variant with what the variant's members return. -/
theorem Schema.returns_enum {variants : List Case} {case : Case}
    (hdistinct : (Schema.enum title variants).Distinct) (hcase : case ∈ variants)
    (h : List.Forall₂ (fun m x => m.Returns types (path.child case.key) x (f m x))
      case.members fields) :
    ∃ v, ((Schema.enum title variants).encode types.encode
        (.variant case.ident fields)).Writes path v ∧
      ∀ place, (Schema.enum title variants).decode types.decode ⟨v, place⟩ =
        .ok (.variant case.ident (List.zipWith f case.members fields)) := by
  obtain ⟨hidents, hkeys, hmembers⟩ := hdistinct
  have hident := find?_key_of_nodup hidents hcase
  have hkey := find?_key_of_nodup hkeys hcase
  obtain ⟨final, hrun, hread⟩ := encodeMembers_decodeMembers (hmembers case hcase) h
  have hpayload : Encoding.Writes (do
      Encoding.container
      encodeMembers types.encode case.members fields) (path.child case.key) (.object final) :=
    ⟨Encoder.holding (path.child case.key) final, hrun, rfl⟩
  have hnested := Encoding.nested_holding hpayload []
  refine ⟨.object [(case.key, .object final)],
    ⟨Encoder.holding path [(case.key, .object final)], ?_, rfl⟩, fun place => ?_⟩
  · simp only [Schema.encode, hident]
    exact hnested
  · rw [Schema.decode_enum hkey, readMembers_object, hread]
    rfl

end Members

/-! ## Shapes -/

theorem IntKind.bounds_of_fits {kind : IntKind} {n : Int} (h : kind.fits n = true) :
    -9223372036854775808 ≤ n ∧ n < 18446744073709551616 := by
  unfold fits at h
  rw [Bool.and_eq_true, decide_eq_true_iff, decide_eq_true_iff] at h
  cases kind <;> simp [least, greatest, signed, bits] at h <;> omega

theorem Value.ofInteger?_of_signed {n : Int}
    (h : -9223372036854775808 ≤ n ∧ n < 9223372036854775808) :
    Value.ofInteger? n = some (.int (Int64.ofInt n)) :=
  if_pos h

theorem Value.ofInteger?_of_unsigned {n : Int}
    (h : 9223372036854775808 ≤ n ∧ n < 18446744073709551616) :
    Value.ofInteger? n = some (.uint (UInt64.ofNat n.toNat)) := by
  have hsigned : ¬ (-9223372036854775808 ≤ n ∧ n < 9223372036854775808) := by omega
  have hunsigned : 0 ≤ n ∧ n < 18446744073709551616 := by omega
  exact (if_neg hsigned).trans (if_pos hunsigned)

/-- An integer that its type has is written as a tree that stands for it. -/
theorem IntKind.exists_integer_of_fits {kind : IntKind} {n : Int} (h : kind.fits n = true) :
    ∃ v, Value.ofInteger? n = some v ∧ v.integer? = some n := by
  have hbounds := bounds_of_fits h
  by_cases hsigned : n < 9223372036854775808
  · have hint : (Int64.ofInt n).toInt = n := Int64.toInt_ofInt_of_le hbounds.1 hsigned
    exact ⟨_, Value.ofInteger?_of_signed ⟨hbounds.1, hsigned⟩, congrArg some hint⟩
  · have hnat : (UInt64.ofNat n.toNat).toNat = n.toNat :=
      UInt64.toNat_ofNat_of_lt (by
        show n.toNat < 18446744073709551616
        omega)
    refine ⟨_, Value.ofInteger?_of_unsigned ⟨by omega, hbounds.2⟩, ?_⟩
    show some ((UInt64.ofNat n.toNat).toNat : Int) = some n
    rw [hnat, Int.toNat_of_nonneg (by omega)]

namespace Registry

variable {types : Registry} {path : CodingPath} {inner : Shape}

theorem returns_int {kind : IntKind} {n : Int} (h : kind.fits n = true) :
    types.Returns path (.int kind) (.int n) (.int n) := by
  obtain ⟨v, hv, hn⟩ := IntKind.exists_integer_of_fits h
  refine ⟨v, ?_, fun place => ?_⟩
  · show (encodeInteger n).Writes path v
    unfold encodeInteger
    rw [hv]
    exact Encoding.writes_value v path
  · show (decodeInteger kind ⟨v, place⟩).map Datum.int = .ok (.int n)
    simp only [decodeInteger, hn, h, if_true, Except.map]

theorem returns_char (c : Char) : types.Returns path .char (.char c) (.char c) := by
  refine ⟨.string (String.singleton c), Encoding.writes_value _ path, fun place => ?_⟩
  show singleChar _ (String.singleton c) = .ok (.char c)
  simp only [singleChar, String.toList_singleton]

/-- A datum that is written as null comes back absent, any other one comes back inside its
option. -/
theorem Returns.some {x y : Datum} (h : types.Returns path inner x y) :
    types.Returns path (.option inner) (.some x)
      (if (types.encode inner x).writesNull path then .none else .some y) := by
  obtain ⟨v, hwrites, hread⟩ := h
  refine ⟨v, hwrites, fun place => ?_⟩
  rw [hwrites.writesNull_eq, decode_option]
  cases v with
  | null => rfl
  | _ => simp only [hread, Value.isNull, Except.map, Bool.false_eq_true, if_false]

theorem Returns.box {x y : Datum} (h : types.Returns path inner x y) :
    types.Returns path (.box inner) x y := by
  unfold Returns at h ⊢
  simpa only [encode_box, decode_box] using h

/-- A list returns what its items return. -/
theorem returns_list {items : List Datum} {f : Datum → Datum}
    (h : ∀ x ∈ items, types.Returns .root inner x (f x)) :
    types.Returns path (.list inner) (.list items) (.list (items.map f)) := by
  obtain ⟨values, hwrites, hread⟩ := exists_forall₂_map
    (fun v y => ∀ place, types.decode inner ⟨v, place⟩ = .ok y) f h
  refine ⟨.array values, ?_, fun place => ?_⟩
  · rw [encode_list, encodeItems_eq_ok_iff.mpr hwrites]
    exact Encoding.writes_value _ path
  · rw [decode_list, decodeItems_eq_ok hread]
    rfl

/-- A map returns what its entries return, put together in key order. -/
theorem returns_map {kind : MapKind} {entries : List (String × Datum)} {f : Datum → Datum}
    (h : ∀ e ∈ entries, types.Returns .root inner e.2 (f e.2)) :
    types.Returns path (.map kind inner) (.map entries)
      (.map (Entries.ofList (entries.map fun e => (e.1, f e.2)))) := by
  -- the pairs match key by key, so they still do once they are put in order
  have hentry : ∀ e ∈ entries, ∃ w : String × Value,
      Entries.Matched (fun x v => (types.encode inner x).Writes .root v) e w ∧
      Entries.Matched (fun v y => ∀ place, types.decode inner ⟨v, place⟩ = .ok y) w
        (e.1, f e.2) := by
    intro e he
    obtain ⟨v, hwrites, hread⟩ := h e he
    exact ⟨(e.1, v), ⟨rfl, hwrites⟩, rfl, hread⟩
  obtain ⟨values, hwrites, hread⟩ := exists_forall₂_map
    (Entries.Matched fun v y => ∀ place, types.decode inner ⟨v, place⟩ = .ok y)
    (fun e : String × Datum => (e.1, f e.2)) hentry
  refine ⟨Value.ofPairs values, ?_, fun place => ?_⟩
  · rw [encode_map, encodeEntries_eq_ok_iff.mpr hwrites]
    exact Encoding.writes_value _ path
  · rw [Value.ofPairs, decode_map, decodeEntries_eq_ok (Entries.forall₂_ofList hread)]
    rfl

theorem returns_record {name title : String} {members : List Member} {fields : List Datum}
    {f : Member → Datum → Datum} (hfind : types.find? name = some (.struct title members))
    (hkeys : (writtenKeys members).Nodup)
    (h : List.Forall₂ (fun m x => m.Returns types path x (f m x)) members fields) :
    types.Returns path (.named name) (.record fields)
      (.record (List.zipWith f members fields)) := by
  unfold Returns
  simp only [types.encode_named hfind, types.decode_named hfind]
  exact Schema.returns_struct hkeys h

theorem returns_variant {name title : String} {variants : List Case} {case : Case}
    {fields : List Datum} {f : Member → Datum → Datum}
    (hfind : types.find? name = some (.enum title variants))
    (hdistinct : (Schema.enum title variants).Distinct) (hcase : case ∈ variants)
    (h : List.Forall₂ (fun m x => m.Returns types (path.child case.key) x (f m x))
      case.members fields) :
    types.Returns path (.named name) (.variant case.ident fields)
      (.variant case.ident (List.zipWith f case.members fields)) := by
  unfold Returns
  simp only [types.encode_named hfind, types.decode_named hfind]
  exact Schema.returns_enum hdistinct hcase h

end Registry

end KeyedCoding
