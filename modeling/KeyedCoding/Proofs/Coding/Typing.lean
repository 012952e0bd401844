import KeyedCoding.Proofs.Derivation.Derived

/-!
# Data of a shape

Which data are values of a shape, and the conditions on shapes and declared types under which
coding loses no more than it has to.  Members with a helper hold data of the type that the helper
codes; that type is a parameter, since helpers are free to code any type.
-/

namespace KeyedCoding

namespace Shape

/-- The shape inside all boxes. -/
def unboxed : Shape → Shape
  | .box inner => inner.unboxed
  | shape => shape

/-- Whether a shape has no part that is a float; declared types are judged by their members. -/
def floatFree : Shape → Bool
  | .float32 | .float64 => false
  | .option inner | .box inner | .list inner | .map _ inner => inner.floatFree
  | _ => true

/-- Whether a shape is a marker inside whatever boxes and options. -/
def wrapsMarker : Shape → Bool
  | .phantom => true
  | .option inner | .box inner => inner.wrapsMarker
  | _ => false

theorem unboxed_ne_phantom {shape : Shape} (h : shape.wrapsMarker = false) :
    shape.unboxed ≠ .phantom := by
  induction shape with
  | phantom => cases h
  | box inner ih => exact ih h
  | _ =>
      intro hmarker
      cases hmarker

/-- Whether no option in a shape wraps a marker. -/
def noOptionalMarker : Shape → Bool
  | .option inner => !inner.wrapsMarker && inner.noOptionalMarker
  | .box inner | .list inner | .map _ inner => inner.noOptionalMarker
  | _ => true

end Shape

/-- The data of a shape.  `coded h` are the data of the type that the helper `h` codes. -/
inductive Datum.HasShape (types : Registry) (coded : Helper → Datum → Prop) :
    Shape → Datum → Prop
  | bool (b : Bool) : HasShape types coded .bool (.bool b)
  | int {kind : IntKind} {n : Int} (h : kind.fits n = true) :
      HasShape types coded (.int kind) (.int n)
  | float32 (x : Binary32) : HasShape types coded .float32 (.float32 x)
  | float64 (x : Binary64) : HasShape types coded .float64 (.float64 x)
  | string (s : String) : HasShape types coded .string (.string s)
  | char (c : Char) : HasShape types coded .char (.char c)
  | value (v : Value) : HasShape types coded .value (.value v)
  | none (inner : Shape) : HasShape types coded (.option inner) .none
  | some {inner : Shape} {x : Datum} (h : HasShape types coded inner x) :
      HasShape types coded (.option inner) (.some x)
  | box {inner : Shape} {x : Datum} (h : HasShape types coded inner x) :
      HasShape types coded (.box inner) x
  | list {inner : Shape} {items : List Datum} (h : ∀ x ∈ items, HasShape types coded inner x) :
      HasShape types coded (.list inner) (.list items)
  | map {kind : MapKind} {inner : Shape} {entries : List (String × Datum)}
      (hkeys : (Entries.keys entries).Nodup)
      (hsorted : kind = .ordered → Entries.Sorted entries)
      (h : ∀ e ∈ entries, HasShape types coded inner e.2) :
      HasShape types coded (.map kind inner) (.map entries)
  | phantom : HasShape types coded .phantom .phantom
  | record {name title : String} {members : List Member} {fields : List Datum}
      (hfind : types.find? name = .some (.struct title members))
      (hlength : members.length = fields.length)
      (hplain : ∀ e ∈ members.zip fields, e.1.helper = .none →
        HasShape types coded e.1.shape e.2)
      (hhelped : ∀ e ∈ members.zip fields, ∀ helper, e.1.helper = .some helper →
        coded helper e.2) :
      HasShape types coded (.named name) (.record fields)
  | variant {name title : String} {variants : List Case} {case : Case} {fields : List Datum}
      (hfind : types.find? name = .some (.enum title variants))
      (hcase : case ∈ variants)
      (hlength : case.members.length = fields.length)
      (hplain : ∀ e ∈ case.members.zip fields, e.1.helper = .none →
        HasShape types coded e.1.shape e.2)
      (hhelped : ∀ e ∈ case.members.zip fields, ∀ helper, e.1.helper = .some helper →
        coded helper e.2) :
      HasShape types coded (.named name) (.variant case.ident fields)

namespace Registry

/-- Some declared type has the member. -/
def HasMember (types : Registry) (m : Member) : Prop :=
  ∃ name schema, types.find? name = some schema ∧ m ∈ schema.members

theorem hasMember_of_struct {types : Registry} {name title : String} {members : List Member}
    (hfind : types.find? name = some (.struct title members)) {m : Member} (hm : m ∈ members) :
    types.HasMember m :=
  ⟨name, _, hfind, hm⟩

theorem hasMember_of_variant {types : Registry} {name title : String} {variants : List Case}
    {case : Case} (hfind : types.find? name = some (.enum title variants))
    (hcase : case ∈ variants) {m : Member} (hm : m ∈ case.members) : types.HasMember m :=
  ⟨name, _, hfind, List.mem_flatMap.mpr ⟨case, hcase, hm⟩⟩

/-- Members that are read are also written. -/
def WritesWhatItReads (types : Registry) : Prop :=
  ∀ m, types.HasMember m → m.encoded = false → ∃ x, m.source = .fixed x

theorem WritesWhatItReads.encoded_of_read {types : Registry} (h : types.WritesWhatItReads)
    {m : Member} (hm : types.HasMember m) (hsource : ∀ x, m.source ≠ .fixed x) :
    m.encoded = true := by
  by_contra hnot
  obtain ⟨x, hx⟩ := h m hm (by simpa using hnot)
  exact hsource x hx

/-- Members without a helper have no part that is a float. -/
def FloatFree (types : Registry) : Prop :=
  ∀ m, types.HasMember m → m.helper = none → m.shape.floatFree = true

end Registry

/-! ## Members of the journal -/

namespace Journal

theorem member_cases {m : Member} (h : types.HasMember m) :
    m = text ∨ m = label ∨ m = count ∨ m = seen ∨ m = next := by
  obtain ⟨name, schema, hfind, hm⟩ := h
  rw [Registry.find?, schemas_types, List.lookup_cons] at hfind
  split at hfind
  · cases hfind
    simpa [Schema.members, note, mark] using hm
  · cases hfind

theorem writesWhatItReads : types.WritesWhatItReads := by
  intro m hm hencoded
  rcases member_cases hm with rfl | rfl | rfl | rfl | rfl <;> cases hencoded

theorem floatFree : types.FloatFree := by
  intro m hm _
  rcases member_cases hm with rfl | rfl | rfl | rfl | rfl <;> rfl

theorem eq_label {m : Member} (hm : types.HasMember m) {helper : Helper}
    (h : m.helper = some helper) : m = label ∧ helper = .bang := by
  rcases member_cases hm with rfl | rfl | rfl | rfl | rfl <;> cases h
  exact ⟨rfl, rfl⟩

end Journal

end KeyedCoding
