import KeyedCoding.Proofs.Coding.OwnEntries

/-!
# Boxes

A boxed value is its content, so types that are the same up to boxes should be coded alike.
They are written alike: `Registry.encode_withoutBoxes`.  They are read alike as long as no object
lacks the key of a member whose box hides what an absent entry would stand for; `LacksHidden` is the
judgement that reading comes upon such an object.  There the box makes a difference: a member that
is an option or a marker stands for something where its entry is absent, and its box refuses.
-/

namespace KeyedCoding

/-! ## Shapes and declared types without boxes -/

namespace Shape

/-- The shape without the boxes in it. -/
def withoutBoxes : Shape → Shape
  | .option inner => .option inner.withoutBoxes
  | .box inner => inner.withoutBoxes
  | .list inner => .list inner.withoutBoxes
  | .map kind inner => .map kind inner.withoutBoxes
  | shape => shape

@[simp] theorem withoutBoxes_named (name : String) : (named name).withoutBoxes = named name := rfl

/-- Whether a shape is a box around an option or a marker, for which an absent entry would stand for
something. -/
def hidesAbsence : Shape → Bool
  | .box inner =>
      match inner.unboxed with
      | .option _ => true
      | .phantom => true
      | _ => false
  | _ => false

/-- A box hides nothing else. -/
theorem missing_withoutBoxes {shape : Shape} (h : shape.hidesAbsence = false) (path : CodingPath)
    (key : String) : shape.withoutBoxes.missing path key = shape.missing path key := by
  cases shape with
  | box inner =>
      show inner.withoutBoxes.missing path key = .error ⟨path, .keyNotFound key⟩
      induction inner with
      | box inner ih => exact ih h
      | option inner => cases h
      | phantom => cases h
      | _ => rfl
  | _ => rfl

/-- What an absent entry means to a box, and what to the shape in it. -/
theorem missing_of_hidesAbsence {shape : Shape} (h : shape.hidesAbsence = true) (path : CodingPath)
    (key : String) : shape.missing path key = .error ⟨path, .keyNotFound key⟩ ∧
      ∃ y, shape.withoutBoxes.missing path key = .ok y := by
  cases shape with
  | box inner =>
      refine ⟨rfl, ?_⟩
      induction inner with
      | box inner ih => exact ih h
      | option inner => exact ⟨_, rfl⟩
      | phantom => exact ⟨_, rfl⟩
      | _ => cases h
  | _ => cases h

end Shape

/-- The member with a shape without boxes. -/
def Member.withoutBoxes (m : Member) : Member := { m with shape := m.shape.withoutBoxes }

@[simp] theorem Member.key_withoutBoxes (m : Member) : m.withoutBoxes.key = m.key := rfl

@[simp] theorem Member.helper_withoutBoxes (m : Member) : m.withoutBoxes.helper = m.helper := rfl

@[simp] theorem Member.source_withoutBoxes (m : Member) : m.withoutBoxes.source = m.source := rfl

@[simp] theorem Member.shape_withoutBoxes (m : Member) :
    m.withoutBoxes.shape = m.shape.withoutBoxes := rfl

/-- The variant with members without boxes. -/
def Case.withoutBoxes (case : Case) : Case :=
  { case with members := case.members.map Member.withoutBoxes }

/-- The declared type with members without boxes. -/
def Schema.withoutBoxes : Schema → Schema
  | .struct title members => .struct title (members.map Member.withoutBoxes)
  | .enum title cases => .enum title (cases.map Case.withoutBoxes)

/-- The declared types with members without boxes. -/
def Registry.withoutBoxes (types : Registry) : Registry :=
  ⟨types.schemas.map fun entry => (entry.1, entry.2.withoutBoxes)⟩

theorem Registry.find?_withoutBoxes (types : Registry) (name : String) :
    types.withoutBoxes.find? name = (types.find? name).map Schema.withoutBoxes := by
  obtain ⟨schemas⟩ := types
  simp only [find?, withoutBoxes]
  induction schemas with
  | nil => rfl
  | cons entry rest ih =>
      rw [List.map_cons, List.lookup_cons, List.lookup_cons]
      split
      · rfl
      · exact ih

/-! ## Writing -/

section Writing

variable {body body' : Shape → Datum → Encoding Unit}

theorem Shape.encodeWith_withoutBoxes (named : String → Datum → Encoding Unit) (shape : Shape)
    (x : Datum) : shape.withoutBoxes.encodeWith named x = shape.encodeWith named x := by
  induction shape generalizing x with
  | option inner ih =>
      cases x with
      | some y => exact ih y
      | _ => rfl
  | box inner ih =>
      simp only [withoutBoxes, encodeWith]
      exact ih x
  | list inner ih =>
      cases x with
      | list items => simp only [withoutBoxes, encodeWith, encodeItems_congr fun y _ => ih y]
      | _ => rfl
  | map kind inner ih =>
      cases x with
      | map entries =>
          simp only [withoutBoxes, encodeWith, encodeEntries_congr fun e _ => ih e.2]
      | _ => rfl
  | _ => rfl

theorem encodeMembers_withoutBoxes
    (h : ∀ shape x, body' (Shape.withoutBoxes shape) x = body shape x) (members : List Member)
    (fields : List Datum) :
    encodeMembers body' (members.map Member.withoutBoxes) fields =
      encodeMembers body members fields := by
  induction members generalizing fields with
  | nil => rfl
  | cons m rest ih =>
      cases fields with
      | nil => rfl
      | cons x xs =>
          simp only [List.map_cons, encodeMembers, ih, Member.encode, Member.withoutBoxes, h]

/-- A declared type is written alike without boxes if its members are. -/
theorem Schema.encode_withoutBoxes
    (h : ∀ shape x, body' (Shape.withoutBoxes shape) x = body shape x) (schema : Schema)
    (x : Datum) : schema.withoutBoxes.encode body' x = schema.encode body x := by
  cases schema with
  | struct title members =>
      cases x with
      | record fields => simp only [withoutBoxes, encode, encodeMembers_withoutBoxes h]
      | _ => rfl
  | enum title cases =>
      cases x with
      | variant ident fields =>
          simp only [withoutBoxes, encode, List.find?_map]
          have hident : ((fun case : Case => case.ident == ident) ∘ Case.withoutBoxes) =
              fun case => case.ident == ident := rfl
          rw [hident]
          cases cases.find? fun case => case.ident == ident with
          | none => rfl
          | some case =>
              simp only [Option.map_some, Case.withoutBoxes, encodeMembers_withoutBoxes h]
      | _ => rfl

namespace Registry

theorem encodeNamed_withoutBoxes (types : Registry) (bound : Nat) (name : String) (x : Datum) :
    types.withoutBoxes.encodeNamed bound name x = types.encodeNamed bound name x := by
  induction bound generalizing name x with
  | zero => rfl
  | succ bound ih =>
      simp only [encodeNamed, find?_withoutBoxes]
      cases types.find? name with
      | none => rfl
      | some schema =>
          refine Schema.encode_withoutBoxes (fun shape y => ?_) schema x
          rw [Shape.encodeWith_withoutBoxes]
          exact Shape.encodeWith_congr shape y fun other z _ => ih other z

/-- Boxes leave no trace in what is written. -/
theorem encode_withoutBoxes (types : Registry) (shape : Shape) (x : Datum) :
    types.withoutBoxes.encode shape.withoutBoxes x = types.encode shape x := by
  rw [encode, Shape.encodeWith_withoutBoxes]
  exact Shape.encodeWith_congr shape x fun name y _ => types.encodeNamed_withoutBoxes _ name y

end Registry

end Writing

/-! ## Reading -/

namespace Member

/-- Whether the box of a member hides what an absent entry would stand for: the member is read by
its shape, it has no default, and its box is one around an option or a marker. -/
def HidesAbsence (m : Member) : Prop :=
  m.source = .required ∧ m.helper = none ∧ m.shape.hidesAbsence = true

variable {body body' : Shape → Decoding Datum} {m : Member} {entries : Entries Value}

/-- A member is read alike without boxes if its entry is, unless its box hides that the entry may be
absent. -/
theorem decode_withoutBoxes (path : CodingPath)
    (hentry : m.isRead = true → m.helper = none → ∀ v, entries.get? m.key = some v →
      ∀ path, body' m.shape.withoutBoxes ⟨v, path⟩ = body m.shape ⟨v, path⟩)
    (habsent : m.HidesAbsence → entries.get? m.key ≠ none) :
    m.withoutBoxes.decode body' ⟨entries, path⟩ = m.decode body ⟨entries, path⟩ := by
  have hreading : m.isRead = true → ∀ v, entries.get? m.key = some v → ∀ path,
      m.withoutBoxes.reading body' ⟨v, path⟩ = m.reading body ⟨v, path⟩ := by
    intro hread v hv path
    unfold reading
    rw [helper_withoutBoxes, shape_withoutBoxes]
    cases hhelper : m.helper with
    | some helper => rfl
    | none => exact hentry hread hhelper v hv path
  -- only a required member without an entry is left to its shape
  rw [decode_eq, decode_eq, source_withoutBoxes, key_withoutBoxes]
  cases hsource : m.source with
  | fixed y => rfl
  | defaulted y =>
      have hread : m.isRead = true := by rw [isRead, hsource]
      cases hv : entries.get? m.key with
      | none => rfl
      | some v => simp only [readOr, key_withoutBoxes, hreading hread v hv]
  | required =>
      have hread : m.isRead = true := by rw [isRead, hsource]
      cases hv : entries.get? m.key with
      | some v => exact hreading hread v hv _
      | none =>
          simp only [readEntry, helper_withoutBoxes, key_withoutBoxes]
          cases hhelper : m.helper with
          | some helper => rfl
          | none =>
              refine Shape.missing_withoutBoxes ?_ path m.key
              by_contra hnot
              exact habsent ⟨hsource, hhelper, by simpa using hnot⟩ hv

/-- Where the entry is absent, the box refuses. -/
theorem HidesAbsence.decode_absent (h : m.HidesAbsence) (habsent : entries.get? m.key = none)
    (path : CodingPath) : m.decode body ⟨entries, path⟩ = .error ⟨path, .keyNotFound m.key⟩ := by
  obtain ⟨hsource, hhelper, hshape⟩ := h
  rw [decode_eq]
  simp only [hsource, habsent, readEntry, hhelper]
  exact (Shape.missing_of_hidesAbsence hshape path m.key).1

/-- Where the entry is absent, the member without its box has a value. -/
theorem HidesAbsence.exists_decode_withoutBoxes (h : m.HidesAbsence)
    (habsent : entries.get? m.key = none) (path : CodingPath) :
    ∃ y, m.withoutBoxes.decode body ⟨entries, path⟩ = .ok y := by
  obtain ⟨hsource, hhelper, hshape⟩ := h
  rw [decode_eq]
  simp only [source_withoutBoxes, key_withoutBoxes, helper_withoutBoxes, hsource, habsent,
    readEntry, hhelper]
  exact (Shape.missing_of_hidesAbsence hshape path m.key).2

end Member

/-- A declared type reads members from the entries of one object in a value. -/
inductive Schema.Reads : Schema → Value → List Member → Entries Value → Prop
  | struct (title : String) (members : List Member) (entries : Entries Value) :
      Reads (.struct title members) (.object entries) members entries
  | variant (title : String) {cases : List Case} {case : Case} (entries : Entries Value)
      (hcase : cases.find? (fun other => other.key == case.key) = some case) :
      Reads (.enum title cases) (.object [(case.key, .object entries)]) case.members entries

namespace Schema

variable {body body' : Shape → Decoding Datum} {schema : Schema} {v : Value}

theorem Reads.depth_lt {members : List Member} {entries : Entries Value} {key : String} {w : Value}
    (h : schema.Reads v members entries) (hw : entries.get? key = some w) : w.depth < v.depth := by
  have hmem := Value.depth_lt_object (Entries.mem_of_get? hw)
  cases h with
  | struct => exact hmem
  | variant => exact Nat.lt_trans hmem (Value.depth_lt_object (List.mem_singleton_self _))

theorem Reads.mem_members {members : List Member} {entries : Entries Value} {m : Member}
    (h : schema.Reads v members entries) (hm : m ∈ members) : m ∈ schema.members := by
  cases h with
  | struct => exact hm
  | variant title _ hcase =>
      exact List.mem_flatMap.mpr ⟨_, List.mem_of_find?_eq_some hcase, hm⟩

/-- What a declared type reads decides how it is decoded. -/
theorem Reads.exists_decode_eq {members : List Member} {entries : Entries Value}
    (h : schema.Reads v members entries) (path : CodingPath) :
    ∃ place datum, ∀ body, schema.decode body ⟨v, path⟩ =
      (decodeMembers body ⟨entries, place⟩ members).map datum := by
  cases h with
  | struct title => exact ⟨path, .record, fun body => decode_struct _ _⟩
  | variant title _ hcase => exact ⟨_, _, fun body => decode_enum hcase _ path⟩

end Schema

/-- Members that are read alike one by one are read alike together. -/
theorem readMembers_withoutBoxes {body body' : Shape → Decoding Datum} {members : List Member}
    {v : Value} (path : CodingPath)
    (h : ∀ entries, v = .object entries → ∀ m ∈ members, ∀ place,
      m.withoutBoxes.decode body' ⟨entries, place⟩ = m.decode body ⟨entries, place⟩) :
    readMembers body' (members.map Member.withoutBoxes) ⟨v, path⟩ =
      readMembers body members ⟨v, path⟩ := by
  cases v with
  | object entries =>
      rw [readMembers_object, readMembers_object]
      have hmembers := h entries rfl
      clear h
      induction members with
      | nil => rfl
      | cons m rest ih =>
          rw [List.forall_mem_cons] at hmembers
          simp only [List.map_cons, decodeMembers, hmembers.1, ih hmembers.2]
  | _ => rfl

theorem find?_key_withoutBoxes (cases : List Case) (key : String) :
    (cases.map Case.withoutBoxes).find? (fun case => case.key == key) =
      (cases.find? fun case => case.key == key).map Case.withoutBoxes :=
  List.find?_map

/-- A declared type is read alike without boxes if the members that it reads are. -/
theorem Schema.decode_withoutBoxes {body body' : Shape → Decoding Datum} {schema : Schema}
    {v : Value} (path : CodingPath)
    (h : ∀ members entries, schema.Reads v members entries → ∀ m ∈ members, ∀ place,
      m.withoutBoxes.decode body' ⟨entries, place⟩ = m.decode body ⟨entries, place⟩) :
    schema.withoutBoxes.decode body' ⟨v, path⟩ = schema.decode body ⟨v, path⟩ := by
  cases schema with
  | struct title members =>
      rw [withoutBoxes, decode_struct, decode_struct, readMembers_withoutBoxes path]
      rintro entries rfl
      exact h members entries (.struct title members entries)
  | enum title cases =>
      rw [withoutBoxes]
      rcases v.tagged_cases with hv | ⟨entries, rfl, hlength⟩ | ⟨key, payload, rfl⟩
      · cases v with
        | object entries => exact absurd rfl (hv entries)
        | _ => rfl
      · match entries with
        | [] | _ :: _ :: _ => rfl
        | [_] => exact absurd rfl hlength
      · have hfound := find?_key_withoutBoxes cases key
        cases hcase : cases.find? fun case => case.key == key with
        | none =>
            rw [hcase] at hfound
            rw [decode_enum_of_unknown hfound, decode_enum_of_unknown hcase, List.map_map]
            rfl
        | some case =>
            obtain rfl : case.key = key := by simpa using List.find?_some hcase
            have hfound : (cases.map Case.withoutBoxes).find?
                (fun other => other.key == case.withoutBoxes.key) = some case.withoutBoxes := by
              rw [hcase] at hfound
              exact hfound
            have hmembers : readMembers body' (case.members.map Member.withoutBoxes)
                ⟨payload, path.child case.key⟩ =
                  readMembers body case.members ⟨payload, path.child case.key⟩ := by
              refine readMembers_withoutBoxes _ ?_
              rintro entries rfl
              exact h case.members entries (.variant title entries hcase)
            rw [decode_enum hcase, ← hmembers]
            exact decode_enum hfound payload path

/-! ## Objects that lack a key behind a box -/

namespace Registry

/-- Reading a shape in a value comes upon an object without the key of a member whose box hides what
an absent entry would stand for. -/
inductive LacksHidden (types : Registry) : Shape → Value → Prop
  | option {inner : Shape} {v : Value} (h : LacksHidden types inner v) :
      LacksHidden types (.option inner) v
  | box {inner : Shape} {v : Value} (h : LacksHidden types inner v) :
      LacksHidden types (.box inner) v
  | item {inner : Shape} {items : List Value} {v : Value} (hv : v ∈ items)
      (h : LacksHidden types inner v) : LacksHidden types (.list inner) (.array items)
  | entry {kind : MapKind} {inner : Shape} {entries : List (String × Value)} {e : String × Value}
      (he : e ∈ entries) (h : LacksHidden types inner e.2) :
      LacksHidden types (.map kind inner) (.object entries)
  /-- The object at hand lacks the key. -/
  | absent {name : String} {schema : Schema} {v : Value} {members : List Member}
      {entries : Entries Value} {m : Member} (hfind : types.find? name = some schema)
      (hreads : schema.Reads v members entries) (hm : m ∈ members) (hhides : m.HidesAbsence)
      (habsent : entries.get? m.key = none) : LacksHidden types (.named name) v
  /-- An object further down does, in the entry of a member. -/
  | member {name : String} {schema : Schema} {v w : Value} {members : List Member}
      {entries : Entries Value} {m : Member} (hfind : types.find? name = some schema)
      (hreads : schema.Reads v members entries) (hm : m ∈ members) (hread : m.isRead = true)
      (hhelper : m.helper = none) (hw : entries.get? m.key = some w)
      (h : LacksHidden types m.shape w) : LacksHidden types (.named name) v

variable {types : Registry}

/-- Boxes leave no trace in what is read where no object lacks a key behind one. -/
theorem decode_withoutBoxes {shape : Shape} {v : Value} (h : ¬ types.LacksHidden shape v)
    (path : CodingPath) :
    types.withoutBoxes.decode shape.withoutBoxes ⟨v, path⟩ = types.decode shape ⟨v, path⟩ := by
  -- Declared types, lists and maps go on in less deep values, everything else in smaller shapes.
  induction hdepth : v.depth using Nat.strongRecOn generalizing shape v path with
  | _ depth deeper =>
    subst hdepth
    induction shape generalizing path with
    | option inner ih =>
        simp only [Shape.withoutBoxes, decode_option, ih fun hl => h (.option hl)]
    | box inner ih =>
        simp only [Shape.withoutBoxes, decode_box]
        exact ih (fun hl => h (.box hl)) path
    | list inner ih =>
        cases v with
        | array items =>
            rw [Shape.withoutBoxes, decode_list, decode_list]
            rw [decodeItems_congr fun w hw place =>
              deeper w.depth (Value.depth_lt_array hw) (fun hl => h (.item hw hl)) place rfl]
        | _ => rfl
    | map kind inner ih =>
        cases v with
        | object entries =>
            rw [Shape.withoutBoxes, decode_map, decode_map]
            rw [decodeEntries_congr fun e he place =>
              deeper e.2.depth (Value.depth_lt_object he) (fun hl => h (.entry he hl)) place rfl]
        | _ => rfl
    | named name =>
        cases hfind : types.find? name with
        | none =>
            have hfind' := find?_withoutBoxes types name
            rw [hfind] at hfind'
            simp only [Shape.withoutBoxes_named, decode, Shape.decodeWith, decodeNamed, hfind,
              hfind', Option.map_none]
        | some schema =>
            have hfind' := find?_withoutBoxes types name
            rw [hfind] at hfind'
            rw [Shape.withoutBoxes_named, decode_named _ hfind', decode_named _ hfind]
            refine Schema.decode_withoutBoxes path fun members entries hreads m hm place => ?_
            refine Member.decode_withoutBoxes place ?_ fun hhides habsent =>
              h (.absent hfind hreads hm hhides habsent)
            intro hread hhelper w hw place
            exact deeper w.depth (hreads.depth_lt hw)
              (fun hl => h (.member hfind hreads hm hread hhelper hw hl)) place rfl
    | _ => rfl

/-- A declared type with a member whose box hides what an absent entry would stand for is not
decoded from an object without its key. -/
theorem decode_ne_ok_of_absent {name : String} {schema : Schema} {v : Value} {members : List Member}
    {entries : Entries Value} {m : Member} (hfind : types.find? name = some schema)
    (hreads : schema.Reads v members entries) (hm : m ∈ members) (hhides : m.HidesAbsence)
    (habsent : entries.get? m.key = none) (path : CodingPath) (x : Datum) :
    types.decode (.named name) ⟨v, path⟩ ≠ .ok x := by
  intro hx
  obtain ⟨place, datum, hdecode⟩ := hreads.exists_decode_eq path
  rw [types.decode_named hfind, hdecode] at hx
  obtain ⟨fields, hfields, -⟩ := map_eq_ok_iff.mp hx
  obtain ⟨y, hy⟩ := exists_decodeMembers_eq_ok_iff.mp ⟨fields, hfields⟩ m hm
  rw [hhides.decode_absent habsent place] at hy
  cases hy

/-- No object lacks a key behind a box where no box hides that an entry may be absent. -/
theorem LacksHidden.exists_hidesAbsence {shape : Shape} {v : Value}
    (h : types.LacksHidden shape v) : ∃ m, types.HasMember m ∧ m.HidesAbsence := by
  induction h with
  | absent hfind hreads hm hhides => exact ⟨_, ⟨_, _, hfind, hreads.mem_members hm⟩, hhides⟩
  | option _ ih => exact ih
  | box _ ih => exact ih
  | item _ _ ih => exact ih
  | entry _ _ ih => exact ih
  | member _ _ _ _ _ _ _ ih => exact ih

/-! ## Types that are the same up to boxes -/

/-- Types are coded alike but for objects that lack a key behind a box. -/
structure CodedAlike (types types' : Registry) : Prop where
  written : ∀ shape shape' : Shape, shape.withoutBoxes = shape'.withoutBoxes →
    ∀ x, types.toValue shape x = types'.toValue shape' x
  read : ∀ shape shape' : Shape, shape.withoutBoxes = shape'.withoutBoxes →
    ∀ v path, ¬ types.LacksHidden shape v → ¬ types'.LacksHidden shape' v →
      types.decode shape ⟨v, path⟩ = types'.decode shape' ⟨v, path⟩
  /-- Where no box hides that an entry may be absent, every value is read alike. -/
  read_all : (∀ m, types.HasMember m → ¬ m.HidesAbsence) →
    (∀ m, types'.HasMember m → ¬ m.HidesAbsence) →
    ∀ shape shape' : Shape, shape.withoutBoxes = shape'.withoutBoxes →
      ∀ v path, types.decode shape ⟨v, path⟩ = types'.decode shape' ⟨v, path⟩
  /-- Where an object lacks the key of a member behind a box, the type is refused, though the
  member would have a value without its box. -/
  refused : ∀ name schema v members (entries : Entries Value) m, types.find? name = some schema →
    schema.Reads v members entries → m ∈ members → m.HidesAbsence →
    entries.get? m.key = none → ∀ path,
      (∀ x, types.decode (.named name) ⟨v, path⟩ ≠ .ok x) ∧
      m.decode types.decode ⟨entries, path⟩ = .error ⟨path, .keyNotFound m.key⟩ ∧
      ∃ y, m.withoutBoxes.decode types'.decode ⟨entries, path⟩ = .ok y

/-- Declared types that are the same up to boxes are written alike, and read alike but for objects
that lack the key of a member whose box hides what an absent entry would stand for. -/
theorem coded_alike_up_to_boxes {types types' : Registry}
    (h : types.withoutBoxes = types'.withoutBoxes) : types.CodedAlike types' := by
  have hread : ∀ shape shape' : Shape, shape.withoutBoxes = shape'.withoutBoxes →
      ∀ v path, ¬ types.LacksHidden shape v → ¬ types'.LacksHidden shape' v →
        types.decode shape ⟨v, path⟩ = types'.decode shape' ⟨v, path⟩ := by
    intro shape shape' hshape v path hlacks hlacks'
    rw [← decode_withoutBoxes hlacks, ← decode_withoutBoxes hlacks', h, hshape]
  refine ⟨fun shape shape' hshape x => ?_, hread, ?_, ?_⟩
  · rw [toValue, toValue, ← types.encode_withoutBoxes shape, ← types'.encode_withoutBoxes shape', h,
      hshape]
  · intro hnone hnone' shape shape' hshape v path
    refine hread shape shape' hshape v path (fun hlacks => ?_) fun hlacks => ?_
    · obtain ⟨m, hm, hhides⟩ := hlacks.exists_hidesAbsence
      exact hnone m hm hhides
    · obtain ⟨m, hm, hhides⟩ := hlacks.exists_hidesAbsence
      exact hnone' m hm hhides
  · intro name schema v members entries m hfind hreads hm hhides habsent path
    exact ⟨decode_ne_ok_of_absent hfind hreads hm hhides habsent path,
      hhides.decode_absent habsent path, hhides.exists_decode_withoutBoxes habsent path⟩

end Registry

/-! ## A slip of paper -/

namespace Slip

open Journal (field applied)

/-- A struct whose only field is an optional text, of a given type. -/
def item (type : Tokens) : Item :=
  ⟨[.marker "codable" []], [], .struct [Make.ident "struct"] (Make.ident "Slip") .none
    (.named [field [] "text" type] .made) []⟩

/-- The type of an optional text. -/
def plain : Tokens := applied "Option" [Make.ident "String"]

/-- The type of a boxed optional text. -/
def boxed : Tokens := applied "Box" plain

/-- The declaration of a slip. -/
def library (type : Tokens) : Library := ⟨[.ofItem (item type)], []⟩

/-- The declared type of slips. -/
def types (type : Tokens) : Registry := (library type).registry (library type).plainInstances

/-- The text of a slip. -/
def text (shape : Shape) : Member :=
  ⟨"text", "text", 0, true, "text", shape, none, .required, true, none⟩

/-- The type of slips with a text of a given shape. -/
def slip (shape : Shape) : Schema := .struct "Slip" [text shape]

set_option maxRecDepth 4000 in
theorem types_plain : types plain = ⟨[("Slip", slip (.option .string))]⟩ := rfl

set_option maxRecDepth 4000 in
theorem types_boxed : types boxed = ⟨[("Slip", slip (.box (.option .string)))]⟩ := rfl

theorem find?_plain : (types plain).find? "Slip" = some (slip (.option .string)) := by
  rw [types_plain]
  rfl

theorem find?_boxed : (types boxed).find? "Slip" = some (slip (.box (.option .string))) := by
  rw [types_boxed]
  rfl

/-- Two accepted structs differ in a box around the type of their field, and only the one without it
is decoded from an object without the key of the field. -/
theorem box_refuses_absent_text :
    (Declaration.ofItem (item plain)).expand.outcome = .accepted ∧
    (Declaration.ofItem (item boxed)).expand.outcome = .accepted ∧
    (types plain).Declares "Slip" (.ofItem (item plain))
      ((library plain).surroundings (.ofItem (item plain)) []) ∧
    (types boxed).Declares "Slip" (.ofItem (item boxed))
      ((library boxed).surroundings (.ofItem (item boxed)) []) ∧
    (types plain).fromValue (.named "Slip") (.object []) = .ok (.record [.none]) ∧
    (types boxed).fromValue (.named "Slip") (.object []) = .error ⟨.root, .keyNotFound "text"⟩ := by
  have hplain : (library plain).schema? "Slip" [] = some (slip (.option .string)) := rfl
  have hboxed : (library boxed).schema? "Slip" [] = some (slip (.box (.option .string))) := rfl
  exact ⟨by decide +kernel, by decide +kernel, Library.declares rfl hplain find?_plain,
    Library.declares rfl hboxed find?_boxed, rfl, rfl⟩

/-- A slip lacks nothing where its text is present and lacks nothing. -/
theorem not_lacksHidden {types : Registry} {shape : Shape} {v : Value}
    (hfind : types.find? "Slip" = some (slip shape)) (hv : ¬ types.LacksHidden shape v) :
    ¬ types.LacksHidden (.named "Slip") (.object [("text", v)]) := by
  intro h
  cases h with
  | absent hfound hreads hm hhides habsent =>
      rw [hfind, Option.some.injEq] at hfound
      subst hfound
      cases hreads
      obtain rfl := List.mem_singleton.mp hm
      cases habsent
  | member hfound hreads hm hread hhelper hw hlacks =>
      rw [hfind, Option.some.injEq] at hfound
      subst hfound
      cases hreads
      obtain rfl := List.mem_singleton.mp hm
      cases hw
      exact hv hlacks

/-- Slips with and without a box are written alike and read alike from a null text, and a slip with
a box needs its key. -/
theorem slips_coded_alike :
    (types plain).withoutBoxes = (types boxed).withoutBoxes ∧
    (types plain).toValue (.named "Slip") (.record [.some (.string "tea")]) =
      (types boxed).toValue (.named "Slip") (.record [.some (.string "tea")]) ∧
    (types plain).decode (.named "Slip") ⟨.object [("text", .null)], ⟨["desk"]⟩⟩ =
      (types boxed).decode (.named "Slip") ⟨.object [("text", .null)], ⟨["desk"]⟩⟩ ∧
    ∀ x, (types boxed).decode (.named "Slip") ⟨.object [], ⟨["desk"]⟩⟩ ≠ .ok x := by
  have hsame : (types plain).withoutBoxes = (types boxed).withoutBoxes := by
    rw [types_plain, types_boxed]
    rfl
  have halike := Registry.coded_alike_up_to_boxes hsame
  have hrefused := (Registry.coded_alike_up_to_boxes hsame.symm).refused
  refine ⟨hsame, halike.written _ _ rfl _, halike.read _ _ rfl _ _ ?_ ?_, ?_⟩
  · refine not_lacksHidden find?_plain fun h => ?_
    cases h with
    | option h => cases h
  · refine not_lacksHidden find?_boxed fun h => ?_
    cases h with
    | box h =>
        cases h with
        | option h => cases h
  · exact (hrefused "Slip" _ (.object []) _ [] _ find?_boxed (.struct _ _ _)
      (List.mem_singleton_self _) ⟨rfl, rfl, rfl⟩ rfl _).1

end Slip

end KeyedCoding
