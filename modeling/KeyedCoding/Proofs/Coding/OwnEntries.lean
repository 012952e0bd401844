import KeyedCoding.Proofs.Coding.Payload

/-!
# What one member reads

A member is decoded from the entry at its own key and from nothing else: `Member.decode_eq` says
which of the three sources makes what of that entry.  So objects that agree at the keys of the
members that are read decode alike, and a struct fails with the first member, in declaration order,
that has no default and fails at its key.
-/

namespace KeyedCoding

/-! ## One member -/

namespace Member

/-- What a member without a default makes of the entry at its key, or of its absence. -/
def readEntry (body : Shape → Decoding Datum) (m : Member) (path : CodingPath) :
    Option Value → Except CodingError Datum
  | some v => m.reading body ⟨v, path.child m.key⟩
  | none =>
      match m.helper with
      | some _ => .error ⟨path, .keyNotFound m.key⟩
      | none => m.shape.missing path m.key

/-- What a member with the default `y` makes of the entry at its key: null, what does not decode and
an absent entry stand for the default. -/
def readOr (body : Shape → Decoding Datum) (m : Member) (path : CodingPath) (y : Datum) :
    Option Value → Datum
  | some v => if v.isNull then y else (m.reading body ⟨v, path.child m.key⟩).toOption.getD y
  | none => y

variable {body : Shape → Decoding Datum} {m : Member}

theorem decode_of_absent {c : KeyedDecoder} (hsource : m.source = .required)
    (hv : Entries.get? c.entries m.key = none) :
    m.decode body c = m.readEntry body c.path none := by
  unfold decode readEntry
  rw [hsource]
  cases m.helper with
  | some helper => simp only [KeyedDecoder.decodeWith, KeyedDecoder.nested, hv]; rfl
  | none => simp only [KeyedDecoder.decode, hv]

theorem decode_eq_readOr {c : KeyedDecoder} {y : Datum} (hsource : m.source = .defaulted y) :
    m.decode body c = .ok (m.readOr body c.path y (Entries.get? c.entries m.key)) := by
  rw [decode_defaulted hsource]
  unfold KeyedDecoder.decodeIfPresent
  cases hv : Entries.get? c.entries m.key with
  | none => rfl
  | some v =>
      cases v with
      | null => rfl
      | _ =>
          simp only [readOr, Value.isNull, Bool.false_eq_true, if_false]
          cases m.reading body ⟨_, c.path.child m.key⟩ <;> rfl

/-- A member is decoded from the entry at its own key. -/
theorem decode_eq (body : Shape → Decoding Datum) (m : Member) (c : KeyedDecoder) :
    m.decode body c =
      match m.source with
      | .fixed y => .ok y
      | .defaulted y => .ok (m.readOr body c.path y (Entries.get? c.entries m.key))
      | .required => m.readEntry body c.path (Entries.get? c.entries m.key) := by
  cases hsource : m.source with
  | fixed y => exact decode_of_fixed hsource
  | defaulted y => exact decode_eq_readOr hsource
  | required =>
      cases hv : Entries.get? c.entries m.key with
      | some v => exact decode_of_required hsource hv
      | none => exact decode_of_absent hsource hv

theorem decode_eq_of_agree {path : CodingPath} {entries entries' : Entries Value}
    (h : m.isRead = true → entries.get? m.key = entries'.get? m.key) :
    m.decode body ⟨entries, path⟩ = m.decode body ⟨entries', path⟩ := by
  rw [decode_eq, decode_eq]
  unfold isRead at h
  cases hsource : m.source with
  | fixed y => rfl
  | defaulted y => simp only [hsource, forall_const] at h ⊢; rw [h]
  | required => simp only [hsource, forall_const] at h ⊢; rw [h]

/-- Only a member without a default can fail. -/
theorem decode_eq_error_iff {c : KeyedDecoder} {err : CodingError} :
    m.decode body c = .error err ↔
      m.source = .required ∧
        m.readEntry body c.path (Entries.get? c.entries m.key) = .error err := by
  rw [decode_eq]
  cases m.source <;> simp

theorem exists_decode_eq_ok_iff {c : KeyedDecoder} :
    (∃ y, m.decode body c = .ok y) ↔ (m.source = .required →
      ∃ y, m.readEntry body c.path (Entries.get? c.entries m.key) = .ok y) := by
  rw [decode_eq]
  cases m.source <;> simp

end Member

/-! ## Members in order -/

section Members

variable {body : Shape → Decoding Datum} {members : List Member}

theorem decodeMembers_eq_of_forall {c c' : KeyedDecoder}
    (h : ∀ m ∈ members, m.decode body c = m.decode body c') :
    decodeMembers body c members = decodeMembers body c' members := by
  induction members with
  | nil => rfl
  | cons m rest ih =>
      rw [List.forall_mem_cons] at h
      simp only [decodeMembers, h.1, ih h.2]

/-- Objects that agree at the keys of the members that are read decode alike. -/
theorem decodeMembers_eq_of_agree {path : CodingPath} {entries entries' : Entries Value}
    (h : ∀ key ∈ readKeys members, entries.get? key = entries'.get? key) :
    decodeMembers body ⟨entries, path⟩ members = decodeMembers body ⟨entries', path⟩ members :=
  decodeMembers_eq_of_forall fun m hm =>
    Member.decode_eq_of_agree fun hread => h m.key (mem_readKeys hm hread)

theorem exists_decodeMembers_eq_ok_iff {c : KeyedDecoder} :
    (∃ fields, decodeMembers body c members = .ok fields) ↔
      ∀ m ∈ members, ∃ y, m.decode body c = .ok y := by
  rw [decodeMembers_eq_mapM, exists_mapM_eq_ok_iff]

/-- Members fail with the first of them that fails. -/
theorem decodeMembers_eq_error_iff {c : KeyedDecoder} {err : CodingError} :
    decodeMembers body c members = .error err ↔
      ∃ before m behind, members = before ++ m :: behind ∧ m.decode body c = .error err ∧
        ∀ b ∈ before, ∃ y, b.decode body c = .ok y := by
  rw [decodeMembers_eq_mapM, mapM_eq_error_iff]

end Members

/-! ## Structs -/

namespace Registry

/-- A struct is decoded from the entries at the keys of its members, in declaration order. -/
structure ReadsOwnEntries (types : Registry) (name : String) (members : List Member) : Prop where
  /-- Whatever other keys hold has no influence. -/
  agree : ∀ (entries entries' : Entries Value) path,
    (∀ key ∈ readKeys members, entries.get? key = entries'.get? key) →
    types.decode (.named name) ⟨.object entries, path⟩ =
      types.decode (.named name) ⟨.object entries', path⟩
  ok_iff : ∀ (entries : Entries Value) path,
    (∃ x, types.decode (.named name) ⟨.object entries, path⟩ = .ok x) ↔
      ∀ m ∈ members, m.source = .required →
        ∃ y, m.readEntry types.decode path (entries.get? m.key) = .ok y
  /-- The error is that of the first member that fails. -/
  error_iff : ∀ (entries : Entries Value) path err,
    types.decode (.named name) ⟨.object entries, path⟩ = .error err ↔
      ∃ before m behind, members = before ++ m :: behind ∧ m.source = .required ∧
        m.readEntry types.decode path (entries.get? m.key) = .error err ∧
        ∀ b ∈ before, b.source = .required →
          ∃ y, b.readEntry types.decode path (entries.get? b.key) = .ok y

theorem readsOwnEntries {types : Registry} {name title : String} {members : List Member}
    (hfind : types.find? name = some (.struct title members)) :
    types.ReadsOwnEntries name members := by
  have hdecode : ∀ entries path, types.decode (.named name) ⟨.object entries, path⟩ =
      (decodeMembers types.decode ⟨entries, path⟩ members).map .record := by
    intro entries path
    rw [types.decode_named hfind, Schema.decode_struct]
    rfl
  constructor
  · intro entries entries' path h
    rw [hdecode, hdecode, decodeMembers_eq_of_agree h]
  · intro entries path
    simp only [hdecode, exists_map_eq_ok_iff, exists_decodeMembers_eq_ok_iff,
      Member.exists_decode_eq_ok_iff]
  · intro entries path err
    simp only [hdecode, map_eq_error_iff, decodeMembers_eq_error_iff, Member.decode_eq_error_iff,
      Member.exists_decode_eq_ok_iff, and_assoc]

/-- A declared struct is decoded from the entries at the keys of the members that are read, each of
which stands for a field, and the first member that has no default and fails says how. -/
theorem struct_reads_own_entries {types : Registry} {name : String} {d : Declaration}
    {s : Surroundings} (hkind : d.kind = .struct) (hdeclares : types.Declares name d s) :
    ∃ title members, types.find? name = some (.struct title members) ∧
      List.Forall₂ (fun m x => m.StandsFor d.strategy s x) d.members members ∧
      readKeys members =
        (d.members.filter StoredMember.isRead).map (StoredMember.wireKey d.strategy) ∧
      types.ReadsOwnEntries name members := by
  obtain ⟨title, members, hfind, hmeans⟩ := hdeclares.exists_struct hkind
  have hmembers := hmeans.imp fun _ _ hm => hm.standsFor
  exact ⟨title, members, hfind, hmembers, readKeys_eq hmembers, readsOwnEntries hfind⟩

end Registry

namespace Parcel

/-- Neither a stamp nor an unknown entry has an influence on a parcel, and of two faults the one of
the earlier member is reported. -/
theorem parcel_reads_own_entries :
    types.decode (.named "Parcel") ⟨.object [("count", .null), ("stamp", .string "none"),
        ("to", .string "Oz"), ("weight", .int 4)], ⟨["cart"]⟩⟩ =
      types.decode (.named "Parcel") ⟨.object [("colour", .string "red"), ("count", .null),
        ("to", .string "Oz"), ("weight", .int 4)], ⟨["cart"]⟩⟩ ∧
    types.decode (.named "Parcel") ⟨.object [("count", .string "some"),
        ("note", .bool true), ("to", .string "Oz"), ("weight", .string "heavy")], ⟨["cart"]⟩⟩ =
      .error ⟨⟨["cart", "weight"]⟩, .typeMismatch "integer" "string"⟩ := by
  obtain ⟨title, found, hfind, -, -, hreads⟩ :=
    Registry.struct_reads_own_entries rfl declares_parcel
  rw [find?_parcel] at hfind
  obtain ⟨rfl, rfl⟩ : "Parcel" = title ∧ members = found := by simpa using hfind
  refine ⟨hreads.agree _ _ _ ?_, (hreads.error_iff _ _ _).mpr ?_⟩
  · intro key hkey
    have hkeys : readKeys members = ["to", "weight", "count", "note"] := rfl
    simp only [hkeys, List.mem_cons, List.not_mem_nil, or_false] at hkey
    rcases hkey with rfl | rfl | rfl | rfl <;> rfl
  · refine ⟨[address], weight, [count, note, stamp], rfl, rfl, rfl, fun b hb _ => ?_⟩
    obtain rfl := List.mem_singleton.mp hb
    exact ⟨.string "Oz", rfl⟩

end Parcel

end KeyedCoding
