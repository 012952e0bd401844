import KeyedCoding.Proofs.Coding.Return

/-!
# Decoded data are stable

A tree may be decoded although no datum is written as that tree: entries may be missing, left over
or null, and a member with a default takes the default for whatever does not decode.  Still, what
was decoded is written without loss: it is never one of the data that encoding confuses with null.
-/

namespace KeyedCoding

/-! ## Null is never read as what another tree is read as -/

namespace Registry

variable {types : Registry}

/-- Null is not a declared type. -/
theorem decode_named_null {name : String} {schema : Schema}
    (hfind : types.find? name = some schema) (place : CodingPath) (x : Datum) :
    types.decode (.named name) ⟨.null, place⟩ ≠ .ok x := by
  rw [decode_named types hfind]
  intro h
  cases schema with
  | struct title members =>
      obtain ⟨entries, fields, hvalue, -⟩ := Schema.decode_struct_eq_ok h
      cases hvalue
  | enum title variants =>
      obtain ⟨case, payload, fields, -, hvalue, -⟩ := Schema.decode_enum_eq_ok h
      cases hvalue

/-- A marker reads nothing. -/
theorem decode_marker {shape : Shape} (h : shape.unboxed = .phantom) (d : Decoder) :
    types.decode shape d = .ok .phantom := by
  induction shape with
  | phantom => rfl
  | box inner ih => exact ih h
  | _ => cases h

/-- What is read from another tree than null is not what is read from null, markers apart. -/
theorem decode_null_ne {shape : Shape} {v : Value} {place : CodingPath} {x : Datum}
    (hnull : v.isNull = false) (h : types.decode shape ⟨v, place⟩ = .ok x)
    (hmarker : shape.unboxed ≠ .phantom) (place' : CodingPath) :
    types.decode shape ⟨.null, place'⟩ ≠ .ok x := by
  -- Only options, raw trees and markers read null at all.
  induction shape with
  | box inner ih => exact ih h hmarker
  | option inner _ =>
      intro hnone
      cases hnone
      rw [decode_option] at h
      cases v with
      | null => cases hnull
      | _ =>
          obtain ⟨y, -, hy⟩ := map_eq_ok_iff.mp h
          cases hy
  | value =>
      intro hvalue
      cases hvalue
      cases h
      cases hnull
  | phantom => exact absurd rfl hmarker
  | named name =>
      cases hfind : types.find? name with
      | some schema => exact decode_named_null hfind place' x
      | none =>
          intro hok
          simp only [decode, Shape.decodeWith, decodeNamed, hfind, reduceCtorEq] at hok
  | _ =>
      intro hok
      cases hok

/-- A datum that was not read from null is not written as null if it comes back as it is. -/
theorem Returns.writesNull_eq_false {shape : Shape} {v : Value} {place path : CodingPath}
    {x : Datum} (hback : types.Returns path shape x x) (hnull : v.isNull = false)
    (h : types.decode shape ⟨v, place⟩ = .ok x) (hmarker : shape.unboxed ≠ .phantom) :
    (types.encode shape x).writesNull path = false := by
  obtain ⟨w, hwrites, hread⟩ := hback
  rw [hwrites.writesNull_eq]
  cases w with
  | null => exact absurd (hread .root) (decode_null_ne hnull h hmarker .root)
  | _ => rfl

end Registry

/-- The conditions on members under which decoded data are stable. -/
structure Registry.Stable (types : Registry) : Prop where
  written : types.WritesWhatItReads
  floatFree : types.FloatFree
  /-- No option wraps a marker. -/
  markers : ∀ m, types.HasMember m → m.helper = none → m.shape.noOptionalMarker = true
  /-- Helpers give back what they read. -/
  helpers : ∀ m, types.HasMember m → ∀ helper, m.helper = some helper →
    ∀ v, v.WellFormed → ∀ place y, helper.decode ⟨v, place⟩ = .ok y → helper.Returns y
  /-- Beside a default, helpers do not write what they read as null. -/
  present : ∀ m, types.HasMember m → ∀ helper, m.helper = some helper →
    (∃ z, m.source = .defaulted z) →
    ∀ v, v.WellFormed → ∀ place y, helper.decode ⟨v, place⟩ = .ok y →
      ∀ path, (helper.encode y).writesNull path = false
  /-- A marker has but one value, also as a default. -/
  markerDefaults : ∀ m, types.HasMember m → m.helper = none → m.shape.unboxed = .phantom →
    ∀ z, m.source = .defaulted z → z = .phantom
  /-- Defaults and fixed values come back as they are. -/
  fallbacks : ∀ m, types.HasMember m → ∀ z, m.source = .defaulted z ∨ m.source = .fixed z →
    ∀ path, m.Returns types path z z

/-! ## Members -/

namespace Member

variable {types : Registry} {m : Member} {v : Value} {place : CodingPath} {y : Datum}

theorem returns_of_helper_decode (hstable : types.Stable) (hm : types.HasMember m)
    {helper : Helper} (hhelper : m.helper = some helper) (hsource : ∀ z, m.source ≠ .fixed z)
    (hv : v.WellFormed) (h : helper.decode ⟨v, place⟩ = .ok y) (path : CodingPath) :
    m.Returns types path y y := by
  have hencoded := hstable.written.encoded_of_read hm hsource
  obtain ⟨w, hwrites, hback⟩ := hstable.helpers m hm helper hhelper v hv place y h
    (path.child m.key)
  refine returns_of_value hencoded hsource (w := w) ?_ ?_ ?_
  · simpa only [writing, hhelper] using hwrites
  · simpa only [reading, hhelper] using hback
  · intro hdefault
    rw [← hwrites.writesNull_eq]
    exact hstable.present m hm helper hhelper hdefault v hv place y h _

/-- A member without a helper comes back as it is if its value does: null is written beside a
default only for a marker, and the default is the marker then. -/
theorem returns_of_shape_decode (hstable : types.Stable) (hm : types.HasMember m)
    (hhelper : m.helper = none) (hsource : ∀ z, m.source ≠ .fixed z)
    (hnull : (∃ z, m.source = .defaulted z) → v.isNull = false)
    (h : types.decode m.shape ⟨v, place⟩ = .ok y) {path : CodingPath}
    (hback : types.Returns (path.child m.key) m.shape y y) : m.Returns types path y y := by
  by_cases hlost : m.shape.unboxed = .phantom ∧ ∃ z, m.source = .defaulted z
  · obtain ⟨hmarker, z, hz⟩ := hlost
    have hy : y = .phantom := by
      rw [Registry.decode_marker hmarker] at h
      cases h
      rfl
    have hz' : z = .phantom := hstable.markerDefaults m hm hhelper hmarker z hz
    rw [hy, ← hz']
    exact hstable.fallbacks m hm z (.inl hz) path
  · have hencoded := hstable.written.encoded_of_read hm hsource
    obtain ⟨w, hwrites, hread⟩ := id hback
    refine returns_of_value hencoded hsource (w := w) ?_ ?_ ?_
    · simpa only [writing, hhelper] using hwrites
    · simpa only [reading, hhelper] using hread
    · intro hdefault
      have hmarker : m.shape.unboxed ≠ .phantom := fun hmarker => hlost ⟨hmarker, hdefault⟩
      rw [← hwrites.writesNull_eq]
      exact hback.writesNull_eq_false (hnull hdefault) h hmarker

/-- The datum for an absent entry is written as null, and null is read as that datum. -/
theorem returns_of_missing (hstable : types.Stable) (hm : types.HasMember m)
    (hhelper : m.helper = none) (hsource : m.source = .required) {key : String}
    (h : m.shape.missing place key = .ok y) (path : CodingPath) : m.Returns types path y y := by
  have hencoded := hstable.written.encoded_of_read hm (by simp [hsource])
  have hback : (types.encode m.shape y).Writes (path.child m.key) .null ∧
      ∀ place', types.decode m.shape ⟨.null, place'⟩ = .ok y := by
    cases hshape : m.shape with
    | option inner =>
        rw [hshape] at h
        cases h
        exact ⟨Encoding.writes_value _ _, fun _ => rfl⟩
    | phantom =>
        rw [hshape] at h
        cases h
        exact ⟨Encoding.writes_value _ _, fun _ => rfl⟩
    | _ =>
        rw [hshape] at h
        cases h
  refine returns_of_value hencoded (by simp [hsource]) (w := .null) ?_ ?_ (by simp [hsource])
  · simpa only [writing, hhelper] using hback.1
  · simpa only [reading, hhelper] using hback.2

/-- A decoded member comes back as it is, if what its shape reads from an entry does so. -/
theorem returns_of_decode (hstable : types.Stable) (hm : types.HasMember m) {c : KeyedDecoder}
    (hentries : ∀ e ∈ c.entries, e.2.WellFormed)
    (hvalues : ∀ e ∈ c.entries, ∀ place z, m.shape.floatFree = true →
      m.shape.noOptionalMarker = true → types.decode m.shape ⟨e.2, place⟩ = .ok z →
      ∀ path, types.Returns path m.shape z z)
    (h : m.decode types.decode c = .ok y) (path : CodingPath) : m.Returns types path y y := by
  obtain hfixed | hdefault | ⟨v, hv, hread, hsource, hnull⟩ | ⟨hsource, hhelper, hmissing⟩ :=
    decode_eq_ok h
  · exact hstable.fallbacks m hm y (.inr hfixed) path
  · exact hstable.fallbacks m hm y (.inl hdefault) path
  · have hmem := Entries.mem_of_get? hv
    cases hhelper : m.helper with
    | some helper =>
        simp only [reading, hhelper] at hread
        exact returns_of_helper_decode hstable hm hhelper hsource (hentries _ hmem) hread path
    | none =>
        simp only [reading, hhelper] at hread
        have hback := hvalues _ hmem _ y (hstable.floatFree m hm hhelper)
          (hstable.markers m hm hhelper) hread (path.child m.key)
        exact returns_of_shape_decode hstable hm hhelper hsource hnull hread hback
  · exact returns_of_missing hstable hm hhelper hsource hmissing path

end Member

/-! ## Shapes -/

theorem decodeInteger_eq_ok {kind : IntKind} {d : Decoder} {n : Int}
    (h : decodeInteger kind d = .ok n) : kind.fits n = true := by
  unfold decodeInteger at h
  split at h
  · split at h
    · rename_i hfits
      cases h
      exact hfits
    · cases h
  · cases h

theorem zipWith_right_of_forall₂ {α β : Type} {R : α → β → Prop} {as : List α} {bs : List β}
    (h : List.Forall₂ R as bs) : List.zipWith (fun _ b => b) as bs = bs := by
  induction h with
  | nil => rfl
  | cons _ _ ih => rw [List.zipWith_cons_cons, ih]

namespace Registry

variable {types : Registry} {v : Value} {place : CodingPath} {x : Datum}

/-- Decoded items come back as they are if the items of the tree are read as stable data. -/
theorem returns_of_decode_list {inner : Shape} (hv : v.WellFormed)
    (hitems : ∀ u, u.depth < v.depth → u.WellFormed → ∀ place y,
      types.decode inner ⟨u, place⟩ = .ok y → types.Returns .root inner y y)
    (h : types.decode (.list inner) ⟨v, place⟩ = .ok x) (path : CodingPath) :
    types.Returns path (.list inner) x x := by
  cases hv with
  | @array items hwf =>
      rw [decode_list] at h
      obtain ⟨xs, hxs, rfl⟩ := map_eq_ok_iff.mp h
      have hback : ∀ y ∈ xs, types.Returns .root inner y (id y) := by
        intro y hy
        obtain ⟨u, hu, place', hread⟩ := exists_of_forall₂_right (forall₂_of_decodeItems hxs) hy
        exact hitems u (Value.depth_lt_array hu) (hwf u hu) place' y hread
      simpa only [List.map_id] using returns_list hback
  | _ => cases h

/-- Decoded entries are in key order as the entries of the tree are, so they come back as they
are. -/
theorem returns_of_decode_map {kind : MapKind} {inner : Shape} (hv : v.WellFormed)
    (hitems : ∀ u, u.depth < v.depth → u.WellFormed → ∀ place y,
      types.decode inner ⟨u, place⟩ = .ok y → types.Returns .root inner y y)
    (h : types.decode (.map kind inner) ⟨v, place⟩ = .ok x) (path : CodingPath) :
    types.Returns path (.map kind inner) x x := by
  cases hv with
  | @object entries hsorted hwf =>
      rw [decode_map] at h
      obtain ⟨xs, hxs, rfl⟩ := map_eq_ok_iff.mp h
      have hmatched := forall₂_of_decodeEntries hxs
      have hkeys : Entries.keys xs = Entries.keys entries :=
        map_eq_map_of_forall₂ (hmatched.imp fun _ _ he => he.1.symm)
      have hxsorted : Entries.Sorted xs := by
        unfold Entries.Sorted at hsorted ⊢
        rwa [hkeys]
      have hback : ∀ e ∈ xs, types.Returns .root inner e.2 (id e.2) := by
        intro e he
        obtain ⟨u, hu, -, place', hread⟩ := exists_of_forall₂_right hmatched he
        exact hitems u.2 (Value.depth_lt_object hu) (hwf u hu) place' e.2 hread
      simpa only [id, List.map_id', Entries.ofList_of_sorted hxsorted] using returns_map hback
  | _ => cases h

/-- Decoded members come back as they are if the entries are read as stable data. -/
theorem forall₂_returns_of_decode (hstable : types.Stable) {members : List Member}
    {fields : List Datum} (hmembers : ∀ m ∈ members, types.HasMember m)
    {entries : List (String × Value)} (hentries : ∀ e ∈ entries, e.2.WellFormed)
    (hvalues : ∀ e ∈ entries, ∀ shape place y, shape.floatFree = true →
      shape.noOptionalMarker = true → types.decode shape ⟨e.2, place⟩ = .ok y →
      ∀ path, types.Returns path shape y y)
    (h : List.Forall₂ (fun m y => m.decode types.decode ⟨entries, place⟩ = .ok y) members fields)
    (path : CodingPath) : List.Forall₂ (fun m y => m.Returns types path y y) members fields := by
  obtain ⟨hlength, hdecode⟩ := List.forall₂_iff_zip.mp h
  refine List.forall₂_iff_zip.mpr ⟨hlength, fun {m y} hmem => ?_⟩
  exact Member.returns_of_decode hstable (hmembers m (List.of_mem_zip hmem).1) hentries
    (fun e he => hvalues e he m.shape) (hdecode hmem) path

/-- A decoded struct or variant comes back as it is if the entries are read as stable data. -/
theorem returns_of_decode_named (hderived : types.Derived) (hstable : types.Stable)
    {name : String} (hv : v.WellFormed)
    (hvalues : ∀ u, u.depth < v.depth → u.WellFormed → ∀ shape place y,
      shape.floatFree = true → shape.noOptionalMarker = true →
      types.decode shape ⟨u, place⟩ = .ok y → ∀ path, types.Returns path shape y y)
    (h : types.decode (.named name) ⟨v, place⟩ = .ok x) (path : CodingPath) :
    types.Returns path (.named name) x x := by
  cases hfind : types.find? name with
  | none => simp only [decode, Shape.decodeWith, decodeNamed, hfind, reduceCtorEq] at h
  | some schema =>
      obtain ⟨d, t, s, hfrom⟩ := hderived name schema hfind
      have hdistinct := hfrom.distinct
      rw [decode_named types hfind] at h
      cases schema with
      | struct title members =>
          obtain ⟨entries, fields, rfl, rfl, hfields⟩ := Schema.decode_struct_eq_ok h
          have hback := forall₂_returns_of_decode hstable
            (fun m hm => hasMember_of_struct hfind hm) (fun e he => hv.of_mem_object he)
            (fun e he => hvalues e.2 (Value.depth_lt_object he) (hv.of_mem_object he)) hfields path
          have hreturns := returns_record hfind hdistinct hback
          rwa [zipWith_right_of_forall₂ hback] at hreturns
      | enum title variants =>
          obtain ⟨case, payload, fields, hcase, rfl, rfl, hfields⟩ := Schema.decode_enum_eq_ok h
          have hmem := List.mem_of_find?_eq_some hcase
          -- the members stand in the payload, one object further down
          have hlow : (Value.object payload).depth <
              (Value.object [(case.key, .object payload)]).depth :=
            Value.depth_lt_object List.mem_cons_self
          have hpayload : (Value.object payload).WellFormed := hv.of_mem_object List.mem_cons_self
          have hback := forall₂_returns_of_decode hstable
            (fun m hm => hasMember_of_variant hfind hmem hm)
            (fun e he => hpayload.of_mem_object he)
            (fun e he => hvalues e.2 (Nat.lt_trans (Value.depth_lt_object he) hlow)
              (hpayload.of_mem_object he)) hfields (path.child case.key)
          have hreturns := returns_variant hfind hdistinct hmem hback
          rwa [zipWith_right_of_forall₂ hback] at hreturns

/-- Whatever is decoded comes back as it is. -/
theorem returns_of_decode (hderived : types.Derived) (hstable : types.Stable) {shape : Shape}
    (hfree : shape.floatFree = true) (hmarkers : shape.noOptionalMarker = true)
    (hv : v.WellFormed) (h : types.decode shape ⟨v, place⟩ = .ok x) (path : CodingPath) :
    types.Returns path shape x x := by
  -- A member of a declared type may have any shape but is less deep; inside one level the shape
  -- itself gets smaller.  Hence an outer induction on the depth and an inner one on the shape.
  generalize hbound : v.depth = bound
  induction bound using Nat.strongRecOn generalizing v shape place x path with
  | _ bound hlower =>
    subst hbound
    induction shape generalizing v place x path with
    | bool =>
        cases hv <;> cases h
        exact ⟨_, Encoding.writes_value _ path, fun _ => rfl⟩
    | int kind =>
        obtain ⟨n, hn, rfl⟩ := map_eq_ok_iff.mp h
        exact returns_int (decodeInteger_eq_ok hn)
    | float32 => cases hfree
    | float64 => cases hfree
    | string =>
        cases hv <;> cases h
        exact ⟨_, Encoding.writes_value _ path, fun _ => rfl⟩
    | char =>
        obtain ⟨s, -, hs⟩ := bind_eq_ok_iff.mp h
        unfold singleChar at hs
        split at hs
        · cases hs
          exact returns_char _
        · cases hs
    | value =>
        cases h
        exact ⟨v, Encoding.writes_value v path, fun _ => rfl⟩
    | option inner ih =>
        simp only [Shape.noOptionalMarker, Bool.and_eq_true, Bool.not_eq_true'] at hmarkers
        by_cases hnull : v.isNull = true
        · cases hv <;> cases hnull
          cases h
          exact ⟨.null, Encoding.writes_value _ path, fun _ => rfl⟩
        · rw [Bool.not_eq_true] at hnull
          obtain ⟨y, hy, rfl⟩ : ∃ y, types.decode inner ⟨v, place⟩ = .ok y ∧ .some y = x := by
            rw [decode_option] at h
            cases v with
            | null => cases hnull
            | _ => exact map_eq_ok_iff.mp h
          have hback := ih hfree hmarkers.2 hv hy path hlower
          have hwritten := hback.writesNull_eq_false hnull hy
            (Shape.unboxed_ne_phantom hmarkers.1)
          have hsome := hback.some
          rwa [hwritten, if_neg Bool.false_ne_true] at hsome
    | box inner ih => exact (ih hfree hmarkers hv h path hlower).box
    | list inner ih =>
        refine returns_of_decode_list hv (fun u hu hwf place' y hread => ?_) h path
        exact ih hfree hmarkers hwf hread .root fun bound hb => hlower bound (Nat.lt_trans hb hu)
    | map kind inner ih =>
        refine returns_of_decode_map hv (fun u hu hwf place' y hread => ?_) h path
        exact ih hfree hmarkers hwf hread .root fun bound hb => hlower bound (Nat.lt_trans hb hu)
    | phantom =>
        cases h
        exact ⟨.null, Encoding.writes_value _ path, fun _ => rfl⟩
    | named name =>
        refine returns_of_decode_named hderived hstable hv
          (fun u hu hwf shape place' y hfree' hmarkers' hread path' => ?_) h path
        exact hlower u.depth hu hfree' hmarkers' hwf hread path' rfl

end Registry

/-- Decoding normalizes in one step: what was decoded can be encoded, and decodes to itself. -/
theorem Registry.fromValue_toValue_of_fromValue {types : Registry} (hderived : types.Derived)
    (hstable : types.Stable) {shape : Shape} (hfree : shape.floatFree = true)
    (hmarkers : shape.noOptionalMarker = true) {v : Value} (hv : v.WellFormed) {x : Datum}
    (h : types.fromValue shape v = .ok x) :
    ∃ w, types.toValue shape x = .ok w ∧ types.fromValue shape w = .ok x := by
  obtain ⟨w, hwrites, hread⟩ := returns_of_decode hderived hstable hfree hmarkers hv h .root
  exact ⟨w, Encoding.toValue_eq_ok_iff.mpr hwrites, hread .root⟩

namespace Journal

theorem hasShape_of_bang_decode {d : Decoder} {y : Datum} (h : Helper.bang.decode d = .ok y) :
    y.HasShape types (fun _ _ => False) (.option .string) := by
  obtain ⟨v, place⟩ := d
  cases v with
  | null =>
      cases h
      exact .none _
  | string s =>
      cases hbehind : Helper.behindBang s.toList with
      | some rest =>
          simp only [Helper.bang, decodeString, hbehind, bind, Except.bind, Except.ok.injEq] at h
          subst h
          exact .some (.string rest)
      | none =>
          simp only [Helper.bang, decodeString, hbehind, bind, Except.bind, reduceCtorEq] at h
  | _ => cases h

/-- The count survives as its own default. -/
theorem returns_count (path : CodingPath) :
    count.Returns types path (.some (.int 5)) (.some (.int 5)) := by
  refine Member.returns_of_value rfl (fun z hz => ?_) (w := .int 5) ?_ ?_ fun _ => rfl
  · cases hz
  · exact Encoding.writes_value _ _
  · exact fun _ => rfl

theorem stable : types.Stable where
  written := writesWhatItReads
  floatFree := floatFree
  markers m hm _ := by
    rcases member_cases hm with rfl | rfl | rfl | rfl | rfl <;> rfl
  helpers m hm helper hhelper v _ place y h := by
    obtain ⟨rfl, rfl⟩ := eq_label hm hhelper
    exact Helper.returns_bang (hasShape_of_bang_decode h)
  present m hm helper hhelper hdefault := by
    obtain ⟨rfl, rfl⟩ := eq_label hm hhelper
    obtain ⟨z, hz⟩ := hdefault
    cases hz
  markerDefaults m hm _ hmarker := by
    rcases member_cases hm with rfl | rfl | rfl | rfl | rfl <;> cases hmarker
  fallbacks m hm z hz path := by
    rcases member_cases hm with rfl | rfl | rfl | rfl | rfl <;> rcases hz with hz | hz <;> cases hz
    · exact returns_count path
    · refine ⟨fun _ => ⟨.bool false, Encoding.writes_value _ _, fun _ _ => rfl⟩, fun hnot => ?_⟩
      cases hnot

/-- A note with a count that is no number, an entry that no member has, and nothing else. -/
def careless : Value :=
  .object [("Note", .object
    [("count", .string "many"), ("label", .string "!draft"), ("mood", .uint 3)])]

/-- The note that it is read as. -/
def carelessNote : Datum :=
  .variant "Note" [.none, .some (.string "draft"), .some (.int 5), .bool false, .none]

theorem wellFormed_careless : careless.WellFormed := by
  refine .object (by simp [Entries.Sorted, Entries.keys]) ?_
  simp only [List.forall_mem_singleton]
  refine .object (show List.Pairwise (· < ·) ["count", "label", "mood"] by decide) ?_
  simp only [List.forall_mem_cons, List.not_mem_nil, false_imp_iff, implies_true, and_true]
  exact ⟨.string _, .string _, .uint _⟩

theorem fromValue_toValue_careless :
    types.fromValue (.named "Entry") careless = .ok carelessNote ∧
    ∃ w, types.toValue (.named "Entry") carelessNote = .ok w ∧
      types.fromValue (.named "Entry") w = .ok carelessNote :=
  ⟨rfl, Registry.fromValue_toValue_of_fromValue derived stable rfl rfl wellFormed_careless rfl⟩

end Journal

end KeyedCoding
