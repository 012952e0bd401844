import KeyedCoding.Proofs.Coding.Payload

/-!
# What a struct writes

A struct is written as an object with one entry for each member that is written.  The members are
put into one object, where a later entry would take the place of an earlier one with the same key;
in an accepted declaration no two of them share a key, so the keys of the object are those of the
written members, and each holds what its member writes on its own.
-/

namespace KeyedCoding

/-! ## The run over the members -/

section Run

variable {body : Shape → Datum → Encoding Unit} {path : CodingPath} {entries : Entries Value}

/-- Members keep the entries of the open object in order. -/
theorem sorted_of_encodeMembers {members : List Member} {fields : List Datum}
    {final : Entries Value} (hsorted : entries.Sorted)
    (h : encodeMembers body members fields (Encoder.holding path entries) =
      .ok () (Encoder.holding path final)) : final.Sorted := by
  obtain ⟨final', hfinal, hsorted'⟩ := encodeMembers_invariant Entries.Sorted
    (fun m _ _ v _ _ hentries => Entries.sorted_put hentries m.key v) hsorted h
  cases hfinal
  exact hsorted'

/-- What stands in place of members that are not written has no influence. -/
theorem encodeMembers_eq_of_written {members : List Member} {fields fields' : List Datum}
    (hlength : fields.length = fields'.length)
    (h : ∀ (i : Nat) m, members[i]? = some m → m.encoded = true → fields[i]? = fields'[i]?) :
    encodeMembers body members fields = encodeMembers body members fields' := by
  induction members generalizing fields fields' with
  | nil => rfl
  | cons m rest ih =>
      match fields, fields' with
      | [], [] => rfl
      | x :: xs, y :: ys =>
          have hrest := ih (by simpa using hlength) fun i => h (i + 1)
          have hm : m.encode body x = m.encode body y := by
            by_cases hencoded : m.encoded = true
            · obtain rfl : x = y := by simpa using h 0 m rfl hencoded
              rfl
            · simp only [Member.encode, hencoded]
              rfl
          simp only [encodeMembers, hm, hrest]

end Run

/-! ## The entries of an object -/

/-- An object has one entry for each member that is written, which is related to its value. -/
structure Entries.HoldsEach (entries : Entries Value) (R : Member → Datum → Value → Prop)
    (members : List Member) (fields : List Datum) : Prop where
  /-- Each written key stands once. -/
  keys : entries.keys.Perm (writtenKeys members)
  sorted : entries.Sorted
  held : List.Forall₂ (fun m x => m.encoded = true → ∃ v, entries.get? m.key = some v ∧ R m x v)
    members fields

/-- A key is written exactly if a member with this key is. -/
theorem mem_writtenKeys {members : List Member} {key : String} :
    key ∈ writtenKeys members ↔ ∃ m ∈ members, m.encoded = true ∧ m.key = key := by
  simp [writtenKeys, and_assoc]

/-- The run over the members leaves one entry for each of them. -/
theorem exists_encodeMembers_holdsEach {body : Shape → Datum → Encoding Unit} {path : CodingPath}
    {R : Member → Datum → Value → Prop} {members : List Member} {fields : List Datum}
    (hkeys : (writtenKeys members).Nodup)
    (h : List.Forall₂ (fun m x => m.encoded = true →
      ∃ v, (m.writing body x).Writes (path.child m.key) v ∧ R m x v) members fields) :
    ∃ entries, encodeMembers body members fields (Encoder.holding path []) =
        .ok () (Encoder.holding path entries) ∧ entries.HoldsEach R members fields := by
  obtain ⟨entries, hrun, hheld, hframe⟩ := encodeMembers_holding R hkeys h []
  have hnil : Entries.Sorted ([] : Entries Value) := List.Pairwise.nil
  have hsorted : entries.Sorted := sorted_of_encodeMembers hnil hrun
  refine ⟨entries, hrun, ?_, hsorted, hheld⟩
  -- both lists of keys have no repetition, so it is enough that they have the same members
  refine (List.perm_ext_iff_of_nodup hsorted.nodup_keys hkeys).mpr fun key => ?_
  constructor
  · intro hkey
    by_contra hnot
    exact Entries.get?_eq_none_iff.mp (hframe key hnot) hkey
  · intro hkey
    obtain ⟨m, hm, hencoded, rfl⟩ := mem_writtenKeys.mp hkey
    obtain ⟨x, -, hx⟩ := exists_of_forall₂_left hheld hm
    obtain ⟨v, hv, -⟩ := hx hencoded
    by_contra hnot
    rw [Entries.get?_eq_none_iff.mpr hnot] at hv
    cases hv

/-! ## Structs -/

namespace Registry

/-- Records whose written members are related to trees are written as objects of such trees. -/
def WritesEach (types : Registry) (name : String) (members : List Member)
    (R : Member → Datum → Value → Prop) : Prop :=
  ∀ fields, List.Forall₂ (fun m x => m.encoded = true → ∃ v, R m x v) members fields →
    ∃ entries, types.toValue (.named name) (.record fields) = .ok (.object entries) ∧
      Entries.HoldsEach entries R members fields

/-- A struct is written as an object with the entries of its written members. -/
structure WritesOwnEntries (types : Registry) (name : String) (members : List Member) : Prop where
  /-- Each entry is what its member writes there. -/
  placed : types.WritesEach name members fun m x v =>
    (m.writing types.encode x).Writes (CodingPath.root.child m.key) v
  /-- Each entry is what its member writes on its own. -/
  alone : types.HelpersPlaceless → types.WritesEach name members fun m x v =>
    Encoding.toValue (m.writing types.encode x) = .ok v
  /-- What stands in place of members that are not written has no influence. -/
  ignored : ∀ fields fields' : List Datum, fields.length = fields'.length →
    (∀ (i : Nat) m, members[i]? = some m → m.encoded = true → fields[i]? = fields'[i]?) →
    types.toValue (.named name) (.record fields) = types.toValue (.named name) (.record fields')

variable {types : Registry} {name title : String} {members : List Member}

theorem writesEach (hfind : types.find? name = some (.struct title members))
    (hkeys : (writtenKeys members).Nodup) {R : Member → Datum → Value → Prop}
    (hR : ∀ m ∈ members, ∀ x v, R m x v →
      (m.writing types.encode x).Writes (CodingPath.root.child m.key) v) :
    types.WritesEach name members R := by
  intro fields hfields
  have hwrites : List.Forall₂ (fun m x => m.encoded = true →
      ∃ v, (m.writing types.encode x).Writes (CodingPath.root.child m.key) v ∧ R m x v)
      members fields := by
    have hfields := (List.forall₂_and_left members fields).mpr ⟨fun _ hm => hm, hfields⟩
    refine hfields.imp fun m x ⟨hm, hx⟩ hencoded => ?_
    obtain ⟨v, hv⟩ := hx hencoded
    exact ⟨v, hR m hm x v hv, hv⟩
  obtain ⟨entries, hrun, hholds⟩ := exists_encodeMembers_holdsEach hkeys hwrites
  refine ⟨entries, ?_, hholds⟩
  rw [toValue, types.encode_named hfind]
  exact Encoding.toValue_eq_ok_iff.mpr ⟨_, hrun, rfl⟩

/-- A member is written the same everywhere if the helpers are. -/
theorem placeless_writing (hhelpers : types.HelpersPlaceless) {m : Member}
    (hm : types.HasMember m) (x : Datum) : (m.writing types.encode x).Placeless := by
  unfold Member.writing
  split
  · next helper hhelper => exact hhelpers helper ⟨m, hm, hhelper⟩ x
  · exact types.placeless_encode hhelpers m.shape x

theorem writesOwnEntries (hfind : types.find? name = some (.struct title members))
    (hkeys : (writtenKeys members).Nodup) : types.WritesOwnEntries name members where
  placed := writesEach hfind hkeys fun _ _ _ _ hv => hv
  alone := fun hhelpers => writesEach hfind hkeys fun m hm x v hv =>
    (placeless_writing hhelpers (hasMember_of_struct hfind hm) x).writes
      (Encoding.toValue_eq_ok_iff.mp hv) _
  ignored := by
    intro fields fields' hlength h
    rw [toValue, toValue, types.encode_named hfind, types.encode_named hfind, Schema.encode,
      Schema.encode, encodeMembers_eq_of_written hlength h]

/-- A declared struct is written as an object whose keys are those of the fields that are written,
each once, and each of which holds what its member writes; the other fields have no influence. -/
theorem struct_writes_own_entries {d : Declaration} {s : Surroundings} (hkind : d.kind = .struct)
    (haccepted : d.expand.outcome = .accepted) (hconforms : d.conforms .encode = true)
    (hdeclares : types.Declares name d s) :
    ∃ title members, types.find? name = some (.struct title members) ∧
      List.Forall₂ (fun m x => m.StandsFor d.strategy s x) d.members members ∧
      writtenKeys members =
        (d.members.filter StoredMember.isWritten).map (StoredMember.wireKey d.strategy) ∧
      types.WritesOwnEntries name members := by
  obtain ⟨title, members, hfind, hmeans⟩ := hdeclares.exists_struct hkind
  have hmembers := hmeans.imp fun _ _ hm => hm.standsFor
  obtain ⟨t, -, hcoded, -⟩ := hdeclares
  have hp : (⟨d.members, none, .record⟩ : Payload) ∈ d.payloads := by
    rw [Declaration.payloads_struct hkind]
    exact List.mem_singleton_self _
  have hkeys := (writtenKeys_sublist hmembers).nodup
    (Declaration.nodup_wireKeys hcoded haccepted hconforms hp)
  exact ⟨title, members, hfind, hmembers, writtenKeys_eq hmembers, writesOwnEntries hfind hkeys⟩

end Registry

namespace Parcel

theorem helpersPlaceless : types.HelpersPlaceless := by
  intro helper h x
  obtain rfl := eq_even h
  cases x with
  | int n =>
      simp only [Helper.even]
      split
      · exact placeless_encodeInteger n
      · exact Encoding.placeless_fail _
  | _ => exact Encoding.placeless_pure

/-- The values of a parcel with a note. -/
def noted (note : Datum) : List Datum := [.string "Oz", .int 4, .int 2, note, .bool true]

/-- A parcel is written with one entry for each member but the note, which has no influence. -/
theorem parcel_writes_own_entries :
    (∃ entries : Entries Value,
      types.toValue (.named "Parcel") (.record (noted .none)) = .ok (.object entries) ∧
      entries.keys.Perm ["to", "weight", "count", "stamp"] ∧
      entries.get? "weight" = some (.int 4)) ∧
    types.toValue (.named "Parcel") (.record (noted (.some (.string "fragile")))) =
      types.toValue (.named "Parcel") (.record (noted .none)) := by
  obtain ⟨title, found, hfind, -, -, hwrites⟩ := Registry.struct_writes_own_entries rfl
    accepted_parcel (conforms_parcel .encode) declares_parcel
  rw [find?_parcel] at hfind
  obtain ⟨rfl, rfl⟩ : "Parcel" = title ∧ members = found := by simpa using hfind
  constructor
  · obtain ⟨entries, htree, hholds⟩ := hwrites.alone helpersPlaceless (noted .none)
      (.cons (fun _ => ⟨_, rfl⟩) <| .cons (fun _ => ⟨_, rfl⟩) <| .cons (fun _ => ⟨_, rfl⟩) <|
        .cons nofun <| .cons (fun _ => ⟨_, rfl⟩) .nil)
    obtain ⟨-, hheld⟩ := List.forall₂_cons.mp hholds.held
    obtain ⟨v, hv, hweight⟩ := (List.forall₂_cons.mp hheld).1 rfl
    obtain rfl : Value.int 4 = v := Except.ok.inj hweight
    exact ⟨entries, htree, hholds.keys, hv⟩
  · refine hwrites.ignored _ _ rfl fun i m hm hencoded => ?_
    match i with
    | 0 | 1 | 2 | 4 => rfl
    | 3 =>
        obtain rfl : note = m := by simpa [members] using hm
        cases hencoded
    | _ + 5 => cases hm

end Parcel

end KeyedCoding
