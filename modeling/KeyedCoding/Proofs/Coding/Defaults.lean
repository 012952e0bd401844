import KeyedCoding.Proofs.Coding.OwnEntries

/-!
# Absent, null and broken entries

What stands at the key of a member with a default decides about this member alone.
`decodeMembers_of_sameBut` is the two-run form of this: of two objects that differ at most at that
key, the results differ at most in that member.  For members with a default, optional members and
markers, a null entry and an absent one are the same.
-/

namespace KeyedCoding

namespace Entries

variable {α : Type}

/-- Entries that hold the same at every other key. -/
def SameBut (key : String) (entries entries' : Entries α) : Prop :=
  ∀ other, other ≠ key → entries.get? other = entries'.get? other

theorem SameBut.put (entries : Entries α) (key : String) (x : α) :
    entries.SameBut key (entries.put key x) :=
  fun _ hother => (get?_put_of_ne entries x hother).symm

/-- The entries without that of a key. -/
def without (entries : Entries α) (key : String) : Entries α :=
  entries.filter fun e => e.1 != key

theorem SameBut.without (entries : Entries α) (key : String) :
    entries.SameBut key (entries.without key) := by
  intro other hother
  induction entries with
  | nil => rfl
  | cons e rest ih =>
      obtain ⟨k, x⟩ := e
      by_cases hk : k = key
      · subst hk
        simpa [Entries.without, get?, Ne.symm hother] using ih
      · rw [Entries.without, List.filter_cons_of_pos (by simpa using hk), get?, get?, ih,
          Entries.without]

end Entries

/-! ## The values of members in a datum -/

namespace Datum

/-- The values of the members of a record or of a variant. -/
def fields : Datum → List Datum
  | record fields => fields
  | variant _ fields => fields
  | _ => []

/-- The datum with another value of the member at an index. -/
def withField (x : Datum) (i : Nat) (y : Datum) : Datum :=
  match x with
  | record fields => record (fields.set i y)
  | variant name fields => variant name (fields.set i y)
  | x => x

/-- The datum of an optional shape. -/
def ofOption : Option Datum → Datum
  | Option.none => .none
  | Option.some x => .some x

end Datum

namespace Declaration

variable {d : Declaration} {p : Payload}

theorem datum_of_mem_payloads (hp : p ∈ d.payloads) :
    p.datum = .record ∨ ∃ ident, p.datum = .variant ident := by
  unfold payloads at hp
  split at hp
  · obtain rfl := List.mem_singleton.mp hp
    exact .inl rfl
  · obtain ⟨v, -, rfl⟩ := List.mem_map.mp hp
    exact .inr ⟨v.ident, rfl⟩
  · cases hp

theorem fields_datum (hp : p ∈ d.payloads) (ys : List Datum) : (p.datum ys).fields = ys := by
  rcases datum_of_mem_payloads hp with h | ⟨ident, h⟩ <;> rw [h] <;> rfl

theorem withField_datum (hp : p ∈ d.payloads) (i : Nat) (y : Datum) (ys : List Datum) :
    (p.datum ys).withField i y = p.datum (ys.set i y) := by
  rcases datum_of_mem_payloads hp with h | ⟨ident, h⟩ <;> rw [h] <;> rfl

end Declaration

/-! ## One entry changes -/

namespace Member

variable {m : Member}

/-- Whether an absent entry stands for something: the member has a default, or it is read by its
shape, which is that of an option or of a marker. -/
def AllowsAbsence (m : Member) : Prop :=
  (∃ y, m.source = .defaulted y) ∨
    m.source = .required ∧ m.helper = none ∧ (m.shape = .phantom ∨ ∃ inner, m.shape = .option inner)

theorem AllowsAbsence.isRead (h : m.AllowsAbsence) : m.isRead = true := by
  rcases h with ⟨y, hsource⟩ | ⟨hsource, -⟩ <;> rw [Member.isRead, hsource]

/-- A null entry stands for what an absent one stands for. -/
theorem AllowsAbsence.decode_null {types : Registry} (h : m.AllowsAbsence) {path : CodingPath}
    {entries entries' : Entries Value} (hnull : entries.get? m.key = some .null)
    (habsent : entries'.get? m.key = none) :
    m.decode types.decode ⟨entries, path⟩ = m.decode types.decode ⟨entries', path⟩ := by
  rw [decode_eq, decode_eq, hnull, habsent]
  rcases h with ⟨y, hsource⟩ | ⟨hsource, hhelper, hshape⟩
  · rw [hsource]
    rfl
  · rw [hsource]
    simp only [readEntry, reading, hhelper]
    rcases hshape with hshape | ⟨inner, hshape⟩ <;> rw [hshape] <;> rfl

end Member

section Members

variable {body : Shape → Decoding Datum} {members : List Member} {m : Member} {path : CodingPath}
  {entries entries' : Entries Value}

/-- A member that reads the same from two objects hides that they differ at its key. -/
theorem decodeMembers_eq_of_sameBut (hkeys : (readKeys members).Nodup) (hm : m ∈ members)
    (hread : m.isRead = true) (h : entries.SameBut m.key entries')
    (hdecode : m.decode body ⟨entries, path⟩ = m.decode body ⟨entries', path⟩) :
    decodeMembers body ⟨entries, path⟩ members = decodeMembers body ⟨entries', path⟩ members := by
  refine decodeMembers_eq_of_forall fun b hb => ?_
  by_cases hkey : b.isRead = true ∧ b.key = m.key
  · obtain rfl : b = m := List.inj_on_of_nodup_map hkeys (List.mem_filter.mpr ⟨hb, hkey.1⟩)
      (List.mem_filter.mpr ⟨hm, hread⟩) hkey.2
    exact hdecode
  · exact Member.decode_eq_of_agree fun hb => h b.key fun heq => hkey ⟨hb, heq⟩

/-- What stands at the key of a member with a default has no influence on any other member. -/
theorem decodeMembers_of_sameBut {i : Nat} {y : Datum} (hkeys : (readKeys members).Nodup)
    (hm : members[i]? = some m) (hsource : m.source = .defaulted y)
    (h : entries.SameBut m.key entries') :
    decodeMembers body ⟨entries', path⟩ members =
      (decodeMembers body ⟨entries, path⟩ members).map fun ys =>
        ys.set i (m.readOr body path y (entries'.get? m.key)) := by
  -- No other member is read from this key, so those before and behind it find the same entries.
  have hread : m.isRead = true := by rw [Member.isRead, hsource]
  induction members generalizing i with
  | nil => cases hm
  | cons b rest ih =>
      cases i with
      | zero =>
          obtain rfl : b = m := by simpa using hm
          rw [readKeys_cons_of_isRead hread, List.nodup_cons] at hkeys
          have hrest : decodeMembers body ⟨entries', path⟩ rest =
              decodeMembers body ⟨entries, path⟩ rest :=
            decodeMembers_eq_of_agree fun key hkey =>
              (h key (ne_of_mem_of_not_mem hkey hkeys.1)).symm
          simp only [decodeMembers, Member.decode_eq_readOr hsource, hrest]
          cases decodeMembers body ⟨entries, path⟩ rest <;> rfl
      | succ i =>
          have hm : rest[i]? = some m := by simpa using hm
          have hmem := mem_readKeys (List.mem_of_getElem? hm) hread
          have hb : b.decode body ⟨entries', path⟩ = b.decode body ⟨entries, path⟩ := by
            refine Member.decode_eq_of_agree fun hb => (h b.key fun heq => ?_).symm
            rw [readKeys_cons_of_isRead hb, List.nodup_cons] at hkeys
            exact hkeys.1 (heq ▸ hmem)
          simp only [decodeMembers, hb, ih (nodup_readKeys_of_cons hkeys) hm]
          cases b.decode body ⟨entries, path⟩ with
          | error err => rfl
          | ok x => cases decodeMembers body ⟨entries, path⟩ rest <;> rfl

/-- Members of which none is required decode from every object. -/
theorem exists_decodeMembers_eq_ok (h : ∀ m ∈ members, m.source ≠ .required) (c : KeyedDecoder) :
    ∃ ys, decodeMembers body c members = .ok ys :=
  exists_decodeMembers_eq_ok_iff.mpr fun m hm =>
    Member.exists_decode_eq_ok_iff.mpr fun hsource => absurd hsource (h m hm)

/-- A member with a default becomes what its entry holds, or the default. -/
theorem getElem?_of_decodeMembers {i : Nat} {y : Datum} {c : KeyedDecoder} {ys : List Datum}
    (hm : members[i]? = some m) (hsource : m.source = .defaulted y)
    (h : decodeMembers body c members = .ok ys) :
    ys[i]? = some (m.readOr body c.path y (Entries.get? c.entries m.key)) := by
  have hall := decodeMembers_eq_ok_iff.mp h
  induction hall generalizing i with
  | nil => cases hm
  | @cons b x rest xs hb hrest ih =>
      cases i with
      | zero =>
          obtain rfl : b = m := by simpa using hm
          rw [Member.decode_eq_readOr hsource, Except.ok.injEq] at hb
          simp [hb]
      | succ i =>
          have hm : rest[i]? = some m := by simpa using hm
          simpa using ih hm (decodeMembers_eq_ok_iff.mpr hrest)

end Members

/-! ## Structs and variants -/

namespace Registry

/-- Of the entries of members that share an object, those of members with a default are never at
fault, and null is as good as nothing where something else stands for an absent entry. -/
structure ForgivesEntries (types : Registry) (name : String) (p : Payload)
    (members : List Member) : Prop where
  /-- A member with a default is what its entry holds if that is present, not null and decodes, and
  else the default. -/
  value : ∀ (i : Nat) m y, members[i]? = some m → m.source = .defaulted y →
    ∀ entries path x, types.decodePayload name p entries path = .ok x →
      x.fields[i]? = some (m.readOr types.decode (p.path path) y (entries.get? m.key))
  /-- Another entry, or none, at the key of a member with a default changes nothing but the value of
  this member. -/
  others : ∀ (i : Nat) m y, members[i]? = some m → m.source = .defaulted y →
    ∀ (entries entries' : Entries Value), entries.SameBut m.key entries' → ∀ path,
      types.decodePayload name p entries' path =
        (types.decodePayload name p entries path).map fun x =>
          x.withField i (m.readOr types.decode (p.path path) y (entries'.get? m.key))
  /-- Members that all have a default decode from every object. -/
  total : (∀ m ∈ members, m.isRead = true → ∃ y, m.source = .defaulted y) →
    ∀ entries path, ∃ x, types.decodePayload name p entries path = .ok x
  /-- Null and nothing are the same to a member that allows absence. -/
  absent : ∀ m ∈ members, m.AllowsAbsence →
    ∀ (entries entries' : Entries Value), entries.SameBut m.key entries' →
      entries.get? m.key = some .null → entries'.get? m.key = none → ∀ path,
      types.decodePayload name p entries path = types.decodePayload name p entries' path

theorem forgivesEntries {types : Registry} {name : String} {d : Declaration} {p : Payload}
    {members : List Member} (hp : p ∈ d.payloads) (hkeys : (readKeys members).Nodup)
    (hdecode : ∀ entries path, types.decodePayload name p entries path =
      (decodeMembers types.decode ⟨entries, p.path path⟩ members).map p.datum) :
    types.ForgivesEntries name p members where
  value := by
    intro i m y hm hsource entries path x hx
    rw [hdecode] at hx
    obtain ⟨ys, hys, rfl⟩ := map_eq_ok_iff.mp hx
    rw [Declaration.fields_datum hp]
    exact getElem?_of_decodeMembers hm hsource hys
  others := by
    intro i m y hm hsource entries entries' h path
    rw [hdecode, hdecode, decodeMembers_of_sameBut hkeys hm hsource h]
    cases decodeMembers types.decode ⟨entries, p.path path⟩ members with
    | error err => rfl
    | ok ys => exact congrArg Except.ok (Declaration.withField_datum hp _ _ _).symm
  total := by
    intro hall entries path
    simp only [hdecode, exists_map_eq_ok_iff]
    refine exists_decodeMembers_eq_ok (fun m hm hsource => ?_) _
    obtain ⟨y, hy⟩ := hall m hm (by rw [Member.isRead, hsource])
    rw [hsource] at hy
    cases hy
  absent := by
    intro m hm hallows entries entries' h hnull habsent path
    rw [hdecode, hdecode, decodeMembers_eq_of_sameBut hkeys hm hallows.isRead h
      (hallows.decode_null hnull habsent)]

/-- An entry that may be missing decodes as an option does. -/
theorem decodeIfPresent_eq_decode_option (types : Registry) (shape : Shape) (c : KeyedDecoder)
    (key : String) :
    (c.decodeIfPresent (types.decode shape) key).map Datum.ofOption =
      c.decode (types.decode (.option shape)) (Shape.option shape).missing key := by
  unfold KeyedDecoder.decodeIfPresent KeyedDecoder.decode
  cases Entries.get? c.entries key with
  | none => rfl
  | some v =>
      cases v with
      | null => rfl
      | _ =>
          simp only [decode_option]
          cases types.decode shape ⟨_, c.path.child key⟩ <;> rfl

/-- A declared type forgives what stands at the keys of members with a default, and takes null for
nothing where nothing stands for something; to read an entry if present is to read an option. -/
theorem declared_forgives_entries {types : Registry} {name : String} {d : Declaration}
    {s : Surroundings} (haccepted : d.expand.outcome = .accepted)
    (hconforms : d.conforms .decode = true) (hdeclares : types.Declares name d s) :
    (∀ p ∈ d.payloads, ∃ schema members, types.find? name = some schema ∧
      schema.beside? p.key = some members ∧
      List.Forall₂ (fun m x => m.StandsFor d.strategy s x) p.members members ∧
      types.ForgivesEntries name p members) ∧
    ∀ shape (c : KeyedDecoder) key,
      (c.decodeIfPresent (types.decode shape) key).map Datum.ofOption =
        c.decode (types.decode (.option shape)) (Shape.option shape).missing key := by
  refine ⟨fun p hp => ?_, types.decodeIfPresent_eq_decode_option⟩
  obtain ⟨schema, members, hfind, hbeside, hmembers, hdecode⟩ :=
    hdeclares.exists_payload haccepted hconforms hp
  obtain ⟨t, -, hcoded, -⟩ := hdeclares
  have hkeys := (readKeys_sublist hmembers).nodup
    (Declaration.nodup_wireKeys hcoded haccepted hconforms hp)
  exact ⟨schema, members, hfind, hbeside, hmembers, forgivesEntries hp hkeys hdecode⟩

end Registry

namespace Journal

/-- A count that is no number stands for the default, as an absent one does, and a null text is no
text. -/
theorem note_forgives_entries :
    payloadTypes.decode (.named "Entry") ⟨.object [("Note", .object [("count", .string "five"),
        ("label", .string "!a")])], ⟨["log"]⟩⟩ =
      .ok (.variant "Note" [.none, .some (.string "a"), .some (.int 5), .bool false, .none]) ∧
    payloadTypes.decode (.named "Entry") ⟨.object [("Note", .object [("label", .int 3),
        ("text", .null)])], ⟨["log"]⟩⟩ =
      payloadTypes.decode (.named "Entry") ⟨.object [("Note", .object [("label", .int 3)])],
        ⟨["log"]⟩⟩ := by
  obtain ⟨hpayloads, -⟩ :=
    Registry.declared_forgives_entries (by decide +kernel) (by decide +kernel) declares_entry
  have hnote : DeclaredVariant.ofVariant ⟨[], Make.ident "Note", .named noteFields .made, [],
      Make.op ","⟩ ∈ (Declaration.ofItem entry).variants := List.mem_cons_self
  obtain ⟨schema, members, hfind, hbeside, -, hforgives⟩ :=
    hpayloads _ ((Declaration.mem_payloads_enum rfl).mpr ⟨_, hnote, rfl⟩)
  obtain rfl : .enum "Entry" [note, mark] = schema := by
    rw [Registry.find?, schemas_payloadTypes] at hfind
    simpa using hfind
  obtain rfl : note.members = members := Option.some.inj hbeside
  constructor
  · have hwithout := hforgives.others 2 count _ rfl rfl [("label", .string "!a")]
      [("count", .string "five"), ("label", .string "!a")] (.put _ "count" _) ⟨["log"]⟩
    exact hwithout
  · exact hforgives.absent text List.mem_cons_self (.inr ⟨rfl, rfl, .inr ⟨_, rfl⟩⟩)
      [("label", .int 3), ("text", .null)] [("label", .int 3)] (.without _ "text") rfl rfl _

end Journal

end KeyedCoding
