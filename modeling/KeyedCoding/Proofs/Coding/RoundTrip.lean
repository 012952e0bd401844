import KeyedCoding.Proofs.Coding.Return

/-!
# Encoding, then decoding

Every datum of a declared type can be written, and what was written can be read.  What comes back
is the datum itself up to what the written tree cannot tell: a member that is not read holds its
fixed value, a member with a default holds the default if null was written for it, and an optional
datum that is written as null is absent.  `Datum.settled` is this datum.
-/

namespace KeyedCoding

/-! ## The datum that comes back -/

/-- What a member's value becomes: the fixed value if the member is not read, the default if null
was written in its place, else the value itself if a helper codes it, else `plain`, which is what
the shape of the member makes of it. -/
def Member.settled (types : Registry) (path : CodingPath) (m : Member) (x plain : Datum) : Datum :=
  let kept := if m.helper.isSome then x else plain
  match m.source with
  | .fixed y => y
  | .defaulted y =>
      if (m.writing types.encode x).writesNull (path.child m.key) then y else kept
  | .required => kept

namespace Registry

/-- The members of the struct that a shape refers to. -/
def structMembers? (types : Registry) (shape : Shape) : Option (List Member) :=
  match shape.unboxed with
  | .named name =>
      match types.find? name with
      | some (.struct _ members) => some members
      | _ => none
  | _ => none

/-- The variant of a name in the enum that a shape refers to. -/
def variant? (types : Registry) (shape : Shape) (ident : String) : Option Case :=
  match shape.unboxed with
  | .named name =>
      match types.find? name with
      | some (.enum _ variants) => variants.find? fun case => case.ident == ident
      | _ => none
  | _ => none

end Registry

namespace Datum

mutual

/-- The datum that comes back when a datum of a shape is written at a path and read again. -/
def settled (types : Registry) (path : CodingPath) (shape : Shape) : Datum → Datum
  | .some x =>
      match shape.unboxed with
      | .option inner =>
          if (types.encode inner x).writesNull path then .none
          else .some (settled types path inner x)
      | _ => .some x
  | .list items =>
      match shape.unboxed with
      | .list inner => .list (settledItems types inner items)
      | _ => .list items
  | .map entries =>
      match shape.unboxed with
      -- read in key order, whatever order a hashed map has
      | .map _ inner => .map (Entries.ofList (settledEntries types inner entries))
      | _ => .map entries
  | .record fields =>
      match types.structMembers? shape with
      | Option.some members => .record (settledFields types path members fields)
      | Option.none => .record fields
  | .variant ident fields =>
      match types.variant? shape ident with
      | Option.some case =>
          .variant ident (settledFields types (path.child case.key) case.members fields)
      | Option.none => .variant ident fields
  | x => x

/-- The items that come back; each item is written from the root. -/
def settledItems (types : Registry) (inner : Shape) : List Datum → List Datum
  | [] => []
  | x :: rest => settled types .root inner x :: settledItems types inner rest

/-- The entries that come back; each entry is written from the root. -/
def settledEntries (types : Registry) (inner : Shape) :
    List (String × Datum) → List (String × Datum)
  | [] => []
  | (key, x) :: rest => (key, settled types .root inner x) :: settledEntries types inner rest

/-- The fields that come back, each by the rule of its member. -/
def settledFields (types : Registry) (path : CodingPath) :
    List Member → List Datum → List Datum
  | m :: members, x :: fields =>
      m.settled types path x (settled types (path.child m.key) m.shape x)
        :: settledFields types path members fields
  | _, _ => []

end

variable (types : Registry) (path : CodingPath)

theorem settledItems_eq_map (inner : Shape) (items : List Datum) :
    settledItems types inner items = items.map (settled types .root inner) := by
  induction items with
  | nil => rfl
  | cons x rest ih => simp only [settledItems, ih, List.map_cons]

theorem settledEntries_eq_map (inner : Shape) (entries : List (String × Datum)) :
    settledEntries types inner entries =
      entries.map fun e => (e.1, settled types .root inner e.2) := by
  induction entries with
  | nil => rfl
  | cons e rest ih =>
      obtain ⟨key, x⟩ := e
      simp only [settledEntries, ih, List.map_cons]

theorem settledFields_eq_zipWith (members : List Member) (fields : List Datum) :
    settledFields types path members fields =
      List.zipWith (fun m x => m.settled types path x (settled types (path.child m.key) m.shape x))
        members fields := by
  induction members generalizing fields with
  | nil => simp only [settledFields, List.zipWith_nil_left]
  | cons m rest ih =>
      cases fields with
      | nil => simp only [settledFields, List.zipWith_nil_right]
      | cons x fields => simp only [settledFields, ih, List.zipWith_cons_cons]

/-- A box makes no difference. -/
theorem settled_box (inner : Shape) (x : Datum) :
    settled types path (.box inner) x = settled types path inner x := by
  cases x <;>
    simp only [settled, Shape.unboxed, Registry.structMembers?, Registry.variant?]

end Datum

/-! ## Members -/

section Members

variable {types : Registry} {path : CodingPath} {m : Member} {x plain y : Datum}

theorem Member.settled_of_fixed (h : m.source = .fixed y) : m.settled types path x plain = y := by
  unfold settled
  rw [h]

theorem Member.settled_of_required (h : m.source = .required) :
    m.settled types path x plain = if m.helper.isSome then x else plain := by
  unfold settled
  rw [h]

theorem Member.settled_of_defaulted (h : m.source = .defaulted y) {v : Value}
    (hwrites : (m.writing types.encode x).Writes (path.child m.key) v) :
    m.settled types path x plain =
      if v.isNull then y else if m.helper.isSome then x else plain := by
  unfold settled
  rw [h]
  simp only [hwrites.writesNull_eq]

/-- A member comes back by its rule if its value does so by its helper or by its shape. -/
theorem Member.returns_settled (hencoded : (∀ y, m.source ≠ .fixed y) → m.encoded = true)
    (hplain : m.helper = none → types.Returns (path.child m.key) m.shape x plain)
    (hhelped : ∀ helper, m.helper = some helper → helper.Returns x) :
    m.Returns types path x (m.settled types path x plain) := by
  -- what is written for the value, and what reading makes of it before the source is asked
  obtain ⟨v, hwrites, hread⟩ : ∃ v, (m.writing types.encode x).Writes (path.child m.key) v ∧
      ∀ place, m.reading types.decode ⟨v, place⟩ =
        .ok (if m.helper.isSome then x else plain) := by
    unfold writing reading
    cases hhelper : m.helper with
    | some helper => exact hhelped helper hhelper (path.child m.key)
    | none => exact hplain hhelper
  cases hsource : m.source with
  | fixed z =>
      rw [settled_of_fixed hsource]
      exact ⟨fun _ => ⟨v, hwrites, fun c _ => decode_of_fixed hsource⟩,
        fun _ c => decode_of_fixed hsource⟩
  | required =>
      rw [settled_of_required hsource]
      have hread' : ∀ z, m.source ≠ .fixed z := by simp [hsource]
      exact returns_of_value (hencoded hread') hread' hwrites hread (by simp [hsource])
  | defaulted z =>
      rw [settled_of_defaulted hsource hwrites]
      have hread' : ∀ z, m.source ≠ .fixed z := by simp [hsource]
      cases v with
      | null =>
          refine ⟨fun _ => ⟨.null, hwrites, fun c hc => ?_⟩, fun hnot => ?_⟩
          · exact decode_of_defaulted_null hsource hc
          · rw [hencoded hread'] at hnot
            cases hnot
      | _ => exact returns_of_value (hencoded hread') hread' hwrites hread fun _ => rfl

end Members

/-! ## Every datum -/

namespace Registry

variable {types : Registry} {coded : Helper → Datum → Prop}

/-- Members beside each other come back by their rules. -/
theorem forall₂_returns_settled {path : CodingPath} {members : List Member} {fields : List Datum}
    (hwritten : types.WritesWhatItReads) (hfree : types.FloatFree)
    (hhelpers : ∀ m, types.HasMember m → ∀ helper, m.helper = some helper →
      ∀ y, coded helper y → helper.Returns y)
    (hmembers : ∀ m ∈ members, types.HasMember m) (hlength : members.length = fields.length)
    (hplain : ∀ e ∈ members.zip fields, e.1.helper = none → e.1.shape.floatFree = true →
      types.Returns (path.child e.1.key) e.1.shape e.2
        (e.2.settled types (path.child e.1.key) e.1.shape))
    (hhelped : ∀ e ∈ members.zip fields, ∀ helper, e.1.helper = some helper →
      coded helper e.2) :
    List.Forall₂ (fun m x => m.Returns types path x
      (m.settled types path x (x.settled types (path.child m.key) m.shape))) members fields := by
  refine List.forall₂_iff_zip.mpr ⟨hlength, fun {m x} hmem => ?_⟩
  have hm : types.HasMember m := hmembers m (List.of_mem_zip hmem).1
  refine Member.returns_settled (hwritten.encoded_of_read hm) (fun hnone => ?_)
    (fun helper hsome => ?_)
  · exact hplain (m, x) hmem hnone (hfree m hm hnone)
  · exact hhelpers m hm helper hsome x (hhelped (m, x) hmem helper hsome)

/-- Every datum without floats comes back settled. -/
theorem returns_settled (hderived : types.Derived) (hwritten : types.WritesWhatItReads)
    (hfree : types.FloatFree)
    (hhelpers : ∀ m, types.HasMember m → ∀ helper, m.helper = some helper →
      ∀ y, coded helper y → helper.Returns y)
    {shape : Shape} {x : Datum} (h : x.HasShape types coded shape)
    (hshape : shape.floatFree = true) (path : CodingPath) :
    types.Returns path shape x (x.settled types path shape) := by
  -- Induction on the typing, for all paths at once: an item or an entry is written from the root,
  -- a member one key further down.
  induction h generalizing path with
  | bool b => exact ⟨.bool b, Encoding.writes_value _ path, fun _ => rfl⟩
  | int hfits => exact returns_int hfits
  | float32 x => cases hshape
  | float64 x => cases hshape
  | string s => exact ⟨.string s, Encoding.writes_value _ path, fun _ => rfl⟩
  | char c => exact returns_char c
  | value v => exact ⟨v, Encoding.writes_value _ path, fun _ => rfl⟩
  | none inner => exact ⟨.null, Encoding.writes_value _ path, fun _ => rfl⟩
  | @some inner x _ ih =>
      have hsome := (ih hshape path).some
      simpa only [Datum.settled, Shape.unboxed] using hsome
  | @box inner x _ ih =>
      rw [Datum.settled_box]
      exact (ih hshape path).box
  | @list inner items _ ih =>
      simp only [Datum.settled, Shape.unboxed, Datum.settledItems_eq_map]
      exact returns_list fun x hx => ih x hx hshape .root
  | @map kind inner entries _ _ _ ih =>
      simp only [Datum.settled, Shape.unboxed, Datum.settledEntries_eq_map]
      exact returns_map fun e he => ih e he hshape .root
  | phantom => exact ⟨.null, Encoding.writes_value _ path, fun _ => rfl⟩
  | @record name title members fields hfind hlength _ hhelped ih =>
      obtain ⟨d, t, s, hfrom⟩ := hderived name _ hfind
      simp only [Datum.settled, structMembers?, Shape.unboxed, hfind,
        Datum.settledFields_eq_zipWith]
      refine returns_record hfind hfrom.distinct (forall₂_returns_settled hwritten hfree hhelpers
        (fun m hm => hasMember_of_struct hfind hm) hlength (fun e he hnone hshape' => ?_) hhelped)
      exact ih e he hnone hshape' _
  | @variant name title variants case fields hfind hcase hlength _ hhelped ih =>
      obtain ⟨d, t, s, hfrom⟩ := hderived name _ hfind
      have hdistinct := hfrom.distinct
      have hident := find?_key_of_nodup hdistinct.1 hcase
      simp only [Datum.settled, variant?, Shape.unboxed, hfind, hident,
        Datum.settledFields_eq_zipWith]
      refine returns_variant hfind hdistinct hcase (forall₂_returns_settled hwritten hfree hhelpers
        (fun m hm => hasMember_of_variant hfind hcase hm) hlength (fun e he hnone hshape' => ?_)
        hhelped)
      exact ih e he hnone hshape' _

end Registry

/-- Every datum without floats of derived types that write what they read can be encoded, and what
was encoded decodes to the settled datum. -/
theorem Registry.fromValue_toValue_eq_settled {types : Registry} {coded : Helper → Datum → Prop}
    (hderived : types.Derived) (hwritten : types.WritesWhatItReads) (hfree : types.FloatFree)
    (hhelpers : ∀ m, types.HasMember m → ∀ helper, m.helper = some helper →
      ∀ y, coded helper y → helper.Returns y)
    {shape : Shape} {x : Datum} (hx : x.HasShape types coded shape)
    (hshape : shape.floatFree = true) :
    ∃ w, types.toValue shape x = .ok w ∧
      types.fromValue shape w = .ok (x.settled types .root shape) := by
  obtain ⟨w, hwrites, hread⟩ := returns_settled hderived hwritten hfree hhelpers hx hshape .root
  exact ⟨w, Encoding.toValue_eq_ok_iff.mpr hwrites, hread .root⟩

namespace Journal

/-- A note with a label but no count, and a mark behind it. -/
def labelled : Datum :=
  .variant "Note" [.none, .some (.string "draft"), .none, .bool true, .some (.variant "Mark" [])]

/-- The note with its count at the default and as if it had not been seen. -/
def labelledBack : Datum :=
  .variant "Note"
    [.none, .some (.string "draft"), .some (.int 5), .bool false, .some (.variant "Mark" [])]

/-- The data that a helper of the journal codes. -/
abbrev Coded (_ : Helper) (x : Datum) : Prop :=
  x.HasShape types (fun _ _ => False) (.option .string)

theorem hasShape_labelled : labelled.HasShape types Coded (.named "Entry") := by
  have hmark : (Datum.variant "Mark" []).HasShape types Coded (.named "Entry") :=
    .variant find?_entry (show mark ∈ [note, mark] by simp) rfl (by simp [mark]) (by simp [mark])
  refine .variant find?_entry (show note ∈ [note, mark] by simp) rfl ?_ ?_
  · intro e he hnone
    simp only [note, List.zip_cons_cons, List.zip_nil_right, List.mem_cons, List.not_mem_nil,
      or_false] at he
    rcases he with rfl | rfl | rfl | rfl | rfl
    · exact .none _
    · cases hnone
    · exact .none _
    · exact .bool true
    · exact .some (.box hmark)
  · intro e he helper hhelper
    simp only [note, List.zip_cons_cons, List.zip_nil_right, List.mem_cons, List.not_mem_nil,
      or_false] at he
    rcases he with rfl | rfl | rfl | rfl | rfl <;> cases hhelper
    exact .some (.string "draft")

set_option maxRecDepth 4000 in
theorem settled_labelled : labelled.settled types .root (.named "Entry") = labelledBack := by
  rfl

theorem fromValue_toValue_labelled :
    ∃ w, types.toValue (.named "Entry") labelled = .ok w ∧
      types.fromValue (.named "Entry") w = .ok labelledBack := by
  rw [← settled_labelled]
  exact Registry.fromValue_toValue_eq_settled derived writesWhatItReads floatFree
    (fun m hm helper hhelper y hy => (eq_label hm hhelper).2 ▸ Helper.returns_bang hy)
    hasShape_labelled rfl

end Journal

end KeyedCoding
