import KeyedCoding.Proofs.Coding.Tagged

/-!
# Members beside each other

The members of a struct are read from one object and written to one, and so are those of a variant,
one key further down.  `StoredMember.StandsFor` says what the attributes of a field make of its
member, and `Declaration.payloads` lists the members that share an object.  In an accepted
declaration no two of them share a key, whichever direction they take part in.
-/

namespace KeyedCoding

open Attribute

/-! ## What the attributes of a field say -/

namespace StoredMember

/-- Where the member comes from when its type is decoded, as the attributes of its field say. -/
inductive ComesFrom (m : StoredMember) (s : Surroundings) (shape : Shape) : Source → Prop
  | fixed (y : Datum) (hread : m.isRead = false) : ComesFrom m s shape (.fixed y)
  | required (hread : m.isRead = true) (hdefault : m.default? = none) :
      ComesFrom m s shape .required
  | defaulted {e : Expression} {y : Datum} (hread : m.isRead = true)
      (hdefault : m.default? = some e) (hy : s.constant? shape e.tokens = some y) :
      ComesFrom m s shape (.defaulted y)

/-- A field stands for a member of a schema, which is as the attributes of the field say. -/
structure StandsFor (m : StoredMember) (strategy : KeyStrategy) (s : Surroundings)
    (x : Member) : Prop where
  means : m.Means strategy s x
  shape : s.shape? m.type = some x.shape
  key : x.key = m.wireKey strategy
  written : x.encoded = m.isWritten
  helper : x.helper.map some = m.helperPath?.map s.helper?
  source : m.ComesFrom s x.shape x.source

end StoredMember

namespace CodedMember

theorem comesFrom_of_source? {c : CodedMember} {s : Surroundings} {shape : Shape} {source : Source}
    (hread : c.decoded = c.stored.isRead) (hdefault : c.options.default = c.stored.default?)
    (h : c.source? s shape = some source) : c.stored.ComesFrom s shape source := by
  unfold source? at h
  rw [hread, hdefault] at h
  split at h
  · next hread =>
    split at h
    · next e he =>
      obtain ⟨y, hy, rfl⟩ := Option.map_eq_some_iff.mp h
      exact .defaulted hread he hy
    · next hnone =>
      cases h
      exact .required hread hnone
  · next hread =>
    obtain ⟨y, -, rfl⟩ := Option.map_eq_some_iff.mp h
    exact .fixed y (by simpa using hread)

theorem map_some_of_helper? {c : CodedMember} {s : Surroundings} {helper : Option Helper}
    (h : c.helper? s = some helper) : helper.map some = c.options.helper.map s.helper? := by
  unfold helper? at h
  split at h
  · next hnone =>
    cases h
    rw [hnone]
    rfl
  · next path hsome =>
    obtain ⟨found, hfound, rfl⟩ := Option.map_eq_some_iff.mp h
    rw [hsome, Option.map_some, Option.map_some, hfound]

end CodedMember

theorem StoredMember.Means.standsFor {m : StoredMember} {strategy : KeyStrategy} {s : Surroundings}
    {x : Member} (h : m.Means strategy s x) : m.StandsFor strategy s x := by
  obtain ⟨keyVariant, c, hc, hx⟩ := id h
  have hkey := (CodedMember.wireKey_of_ofStored hc).1
  obtain ⟨o, ho, hc⟩ := bind_eq_ok_iff.mp hc
  cases hc
  obtain rfl := MemberOptions.ofAttributes_eq_ok ho
  simp only [CodedMember.schema?, Option.bind_eq_bind, Option.bind_eq_some_iff,
    Option.some.injEq] at hx
  obtain ⟨shape, hshape, helper, hhelper, source, hsource, preset, -, rfl⟩ := hx
  exact ⟨h, hshape, hkey, rfl, CodedMember.map_some_of_helper? hhelper,
    CodedMember.comesFrom_of_source? rfl rfl hsource⟩

/-! ## The keys of members beside each other -/

/-- Whether a member is read from its entry. -/
def Member.isRead (m : Member) : Bool :=
  match m.source with
  | .fixed _ => false
  | _ => true

/-- The keys that members are read from. -/
def readKeys (members : List Member) : List String :=
  (members.filter Member.isRead).map Member.key

theorem readKeys_cons_of_isRead {m : Member} (hread : m.isRead = true) (rest : List Member) :
    readKeys (m :: rest) = m.key :: readKeys rest := by
  simp only [readKeys, List.filter_cons_of_pos hread, List.map_cons]

theorem mem_readKeys {members : List Member} {m : Member} (hm : m ∈ members)
    (hread : m.isRead = true) : m.key ∈ readKeys members :=
  List.mem_map_of_mem (List.mem_filter.mpr ⟨hm, hread⟩)

theorem nodup_readKeys_of_cons {m : Member} {rest : List Member}
    (h : (readKeys (m :: rest)).Nodup) : (readKeys rest).Nodup :=
  (((List.sublist_cons_self m rest).filter _).map _).nodup h

namespace StoredMember

theorem StandsFor.isRead_eq {m : StoredMember} {strategy : KeyStrategy} {s : Surroundings}
    {x : Member} (h : m.StandsFor strategy s x) : x.isRead = m.isRead := by
  have hsource := h.source
  unfold Member.isRead
  generalize x.source = source at hsource
  cases hsource with
  | fixed y hread => rw [hread]
  | required hread _ => rw [hread]
  | defaulted hread _ _ => rw [hread]

theorem unused_of_isRead {m : StoredMember} (h : m.isRead = true) : m.unused = false := by
  simp only [isRead, Bool.not_eq_true', Bool.or_eq_false_iff] at h
  simp only [unused, h.1, h.2, Bool.false_and, Bool.or_false]

theorem unused_of_isWritten {m : StoredMember} (h : m.isWritten = true) : m.unused = false := by
  simp only [isWritten, Bool.not_eq_true', Bool.or_eq_false_iff] at h
  simp only [unused, h.1, h.2, Bool.and_false, Bool.or_false]

end StoredMember

section Keys

variable {strategy : KeyStrategy} {s : Surroundings} {stored : List StoredMember}
  {members : List Member}

/-- The keys of the members that take part in something are the texts of the fields that do. -/
theorem keys_eq_wireKeys {takesPart : Member → Bool} {fieldTakesPart : StoredMember → Bool}
    (hpart : ∀ m x, StoredMember.StandsFor m strategy s x → takesPart x = fieldTakesPart m)
    (h : List.Forall₂ (fun m x => m.StandsFor strategy s x) stored members) :
    (members.filter takesPart).map Member.key =
      (stored.filter fieldTakesPart).map (StoredMember.wireKey strategy) :=
  map_filter_eq_of_forall₂ (h.imp fun m x hm => ⟨hpart m x hm, hm.key⟩)

theorem readKeys_eq (h : List.Forall₂ (fun m x => m.StandsFor strategy s x) stored members) :
    readKeys members =
      (stored.filter StoredMember.isRead).map (StoredMember.wireKey strategy) :=
  keys_eq_wireKeys (fun _ _ hm => hm.isRead_eq) h

theorem writtenKeys_eq (h : List.Forall₂ (fun m x => m.StandsFor strategy s x) stored members) :
    writtenKeys members =
      (stored.filter StoredMember.isWritten).map (StoredMember.wireKey strategy) :=
  keys_eq_wireKeys (fun _ _ hm => hm.written) h

theorem readKeys_sublist (h : List.Forall₂ (fun m x => m.StandsFor strategy s x) stored members) :
    (readKeys members).Sublist (StoredMember.wireKeys strategy stored) := by
  rw [readKeys_eq h]
  refine (List.monotone_filter_right stored fun m hm => ?_).map _
  simp [StoredMember.unused_of_isRead hm]

theorem writtenKeys_sublist
    (h : List.Forall₂ (fun m x => m.StandsFor strategy s x) stored members) :
    (writtenKeys members).Sublist (StoredMember.wireKeys strategy stored) := by
  rw [writtenKeys_eq h]
  refine (List.monotone_filter_right stored fun m hm => ?_).map _
  simp [StoredMember.unused_of_isWritten hm]

end Keys

/-! ## Members that share an object -/

/-- The fields of a struct or of a variant, whose members share an object. -/
structure Payload where
  members : List StoredMember
  /-- The key at which the object stands, if the fields are those of a variant. -/
  key : Option String
  /-- The datum with the values of the members. -/
  datum : List Datum → Datum

namespace Payload

/-- The value that holds the entries of the members. -/
def value (p : Payload) (entries : Entries Value) : Value :=
  match p.key with
  | none => .object entries
  | some key => .object [(key, .object entries)]

/-- The path of the object in a value at a path. -/
def path (p : Payload) (path : CodingPath) : CodingPath :=
  match p.key with
  | none => path
  | some key => path.child key

end Payload

namespace Declaration

/-- The fields of a declaration by the objects that they share. -/
def payloads (d : Declaration) : List Payload :=
  match d.kind with
  | .struct => [⟨d.members, none, .record⟩]
  | .enum => d.variants.map fun v => ⟨v.members, some (v.wireKey d.strategy), .variant v.ident⟩
  | _ => []

theorem payloads_struct {d : Declaration} (h : d.kind = .struct) :
    d.payloads = [⟨d.members, none, .record⟩] := by
  simp only [payloads, h]

theorem mem_payloads_enum {d : Declaration} (h : d.kind = .enum) {p : Payload} :
    p ∈ d.payloads ↔
      ∃ v ∈ d.variants, p = ⟨v.members, some (v.wireKey d.strategy), .variant v.ident⟩ := by
  simp only [payloads, h, List.mem_map, eq_comm]

/-- The texts of the fields that share an object differ. -/
theorem nodup_wireKeys {d : Declaration} {t : CodedType} {direction : Direction}
    (hcoded : d.codedType? = some t) (haccepted : d.expand.outcome = .accepted)
    (hconforms : d.conforms direction = true) {p : Payload} (hp : p ∈ d.payloads) :
    (StoredMember.wireKeys d.strategy p.members).Nodup := by
  have hident := CodedType.ident_of_ofDeclaration (ofDeclaration_of_codedType? hcoded)
  refine nodup_keyScopes hcoded haccepted hconforms _ ?_
  unfold payloads at hp
  unfold keyScopes
  cases hkind : d.kind <;> simp only [hkind, hident] at hp ⊢
  case struct =>
    obtain rfl := List.mem_singleton.mp hp
    exact List.mem_singleton_self _
  case enum =>
    obtain ⟨v, hv, rfl⟩ := List.mem_map.mp hp
    exact List.mem_cons_of_mem _ (List.mem_map_of_mem hv)
  all_goals cases hp

end Declaration

/-- The members that a declared type reads from one object: those of a struct, or those of the
variant of a key. -/
def Schema.beside? : Schema → Option String → Option (List Member)
  | .struct _ members, none => some members
  | .enum _ cases, some key => (cases.find? fun case => case.key == key).map Case.members
  | _, _ => none

namespace Registry

/-- Decode a declared type from an object that holds the entries of some of its fields. -/
def decodePayload (types : Registry) (name : String) (p : Payload) (entries : Entries Value)
    (path : CodingPath) : Except CodingError Datum :=
  types.decode (.named name) ⟨p.value entries, path⟩

variable {types : Registry} {name : String} {d : Declaration} {s : Surroundings}

/-- The fields that share an object stand for members that are read from it one after the other. -/
theorem Declares.exists_payload (h : types.Declares name d s)
    (haccepted : d.expand.outcome = .accepted) {direction : Direction}
    (hconforms : d.conforms direction = true) {p : Payload} (hp : p ∈ d.payloads) :
    ∃ schema members, types.find? name = some schema ∧ schema.beside? p.key = some members ∧
      List.Forall₂ (fun m x => m.StandsFor d.strategy s x) p.members members ∧
      ∀ entries path, types.decodePayload name p entries path =
        (decodeMembers types.decode ⟨entries, p.path path⟩ members).map p.datum := by
  cases hkind : d.kind with
  | struct =>
      obtain ⟨title, members, hfind, hmembers⟩ := h.exists_struct hkind
      rw [Declaration.payloads_struct hkind, List.mem_singleton] at hp
      subst hp
      refine ⟨_, members, hfind, rfl, hmembers.imp fun _ _ hm => hm.standsFor,
        fun entries path => ?_⟩
      rw [decodePayload, types.decode_named hfind, Schema.decode_struct]
      rfl
  | enum =>
      obtain ⟨title, cases, hfind, hcases⟩ := h.exists_enum hkind
      obtain ⟨t, -, hcoded, -⟩ := h
      obtain ⟨v, hv, rfl⟩ := (Declaration.mem_payloads_enum hkind).mp hp
      obtain ⟨case, hcase, hmeans⟩ := exists_of_forall₂_left hcases hv
      -- no two variants share a key, so the key of this one leads to its case
      have hkeys : (cases.map Case.key).Nodup := by
        rw [map_eq_map_of_forall₂ (hcases.imp fun _ _ h => h.key)]
        exact Declaration.nodup_variantKeys hcoded hkind haccepted hconforms
      have hfound := find?_key_of_nodup hkeys hcase
      refine ⟨_, case.members, hfind, ?_, hmeans.members.imp fun _ _ hm => hm.standsFor,
        fun entries path => ?_⟩
      · rw [Schema.beside?, ← hmeans.key, hfound]
        rfl
      · rw [decodePayload, types.decode_named hfind, Payload.value, ← hmeans.key, ← hmeans.ident,
          Schema.decode_enum hfound]
        simp only [Payload.path, hmeans.key]
        rfl
  | _ => simp [Declaration.payloads, hkind] at hp

end Registry

/-! ## A parcel

A struct with a given key, a helper, a default, a member that is not written and one that is not
read. -/

namespace Parcel

open Journal (field applied)

/-- The fields of a parcel. -/
def fields : List Field :=
  [field [.marker "coded_at" [Make.literal "\"to\""]] "address" [Make.ident "String"],
    field [.marker "coded_by" [Make.ident "Even"]] "weight" [Make.ident "i64"],
    field [.marker "default_value" [Make.literal "1"]] "count" [Make.ident "u8"],
    field [.marker "ignore_encoding" []] "note" (applied "Option" [Make.ident "String"]),
    field [.marker "ignore_decoding" []] "stamp" [Make.ident "bool"]]

/-- A parcel. -/
def item : Item :=
  ⟨[.marker "codable" []], [], .struct [Make.ident "struct"] (Make.ident "Parcel") .none
    (.named fields .made) []⟩

/-- The declaration of a parcel and the helpers it uses. -/
def library : Library := ⟨[.ofItem item], Helper.readyMade⟩

/-- The declared type of parcels. -/
def types : Registry := library.registry library.plainInstances

/-- The member `address`, which has a key of its own. -/
def address : Member :=
  ⟨"address", "address", 0, true, "to", .string, none, .required, true, none⟩

/-- The member `weight`, which a helper codes. -/
def weight : Member :=
  ⟨"weight", "weight", 1, true, "weight", .int .i64, some .even, .required, true, none⟩

/-- The member `count`, which has a default. -/
def count : Member :=
  ⟨"count", "count", 2, true, "count", .int .u8, none, .defaulted (.int 1), true, some (.int 1)⟩

/-- The member `note`, which is not written. -/
def note : Member :=
  ⟨"note", "note", 3, true, "note", .option .string, none, .required, false, none⟩

/-- The member `stamp`, which is not read. -/
def stamp : Member :=
  ⟨"stamp", "stamp", 4, true, "stamp", .bool, none, .fixed (.bool false), true, none⟩

/-- The members of a parcel. -/
def members : List Member := [address, weight, count, note, stamp]

set_option maxRecDepth 4000 in
theorem schemas_types : types.schemas = [("Parcel", .struct "Parcel" members)] := rfl

theorem find?_parcel : types.find? "Parcel" = some (.struct "Parcel" members) := by
  rw [Registry.find?, schemas_types]
  rfl

theorem mem_members {m : Member} (h : types.HasMember m) : m ∈ members := by
  obtain ⟨name, schema, hfind, hm⟩ := h
  rw [Registry.find?, schemas_types, List.lookup_cons] at hfind
  split at hfind
  · cases hfind
    exact hm
  · cases hfind

/-- Only the weight has a helper. -/
theorem eq_even {helper : Helper} (h : types.HasHelper helper) : helper = .even := by
  obtain ⟨m, hm, hhelper⟩ := h
  have hm := mem_members hm
  simp only [members, List.mem_cons, List.not_mem_nil, or_false] at hm
  rcases hm with rfl | rfl | rfl | rfl | rfl <;> cases hhelper
  rfl

set_option maxRecDepth 4000 in
theorem declares_parcel :
    types.Declares "Parcel" (.ofItem item) (library.surroundings (.ofItem item) []) := by
  have hitem : library.find? "Parcel" = some (.ofItem item) := rfl
  have hschema : library.schema? "Parcel" [] = some (.struct "Parcel" members) := rfl
  exact Library.declares hitem hschema find?_parcel

theorem accepted_parcel : (Declaration.ofItem item).expand.outcome = .accepted := by
  decide +kernel

theorem conforms_parcel (direction : Direction) :
    (Declaration.ofItem item).conforms direction = true := by
  cases direction <;> decide +kernel

end Parcel

end KeyedCoding
