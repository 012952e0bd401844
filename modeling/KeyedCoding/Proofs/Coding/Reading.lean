import KeyedCoding.Coding.Codec
import KeyedCoding.Proofs.Sequence
import KeyedCoding.Proofs.Value.Entries

/-!
# What decoding reads

The laws of the steps of decoding, each said once: when items, entries and members decode, and
what a struct and an enum make of the value at hand.  An enum reads an object with one entry, whose
key names the variant.
-/

namespace KeyedCoding

/-! ## Items and entries -/

/-- Items that decode wherever they stand decode in a row. -/
theorem decodeItems_eq_ok {body : Decoding Datum} {items : List Value} {xs : List Datum}
    (h : List.Forall₂ (fun v x => ∀ path, body ⟨v, path⟩ = .ok x) items xs) (path : CodingPath)
    (index : Nat) : decodeItems body path index items = .ok xs := by
  induction h generalizing index with
  | nil => rfl
  | cons hv _ ih => simp only [decodeItems, hv, ih, bind, Except.bind]

/-- Items that decode in a row decode each at some place. -/
theorem forall₂_of_decodeItems {body : Decoding Datum} {items : List Value} {xs : List Datum}
    {path : CodingPath} {index : Nat} (h : decodeItems body path index items = .ok xs) :
    List.Forall₂ (fun v x => ∃ path, body ⟨v, path⟩ = .ok x) items xs := by
  induction items generalizing index xs with
  | nil =>
      cases h
      exact .nil
  | cons v rest ih =>
      obtain ⟨x, hx, h⟩ := bind_eq_ok_iff.mp h
      obtain ⟨rest', hrest, h⟩ := bind_eq_ok_iff.mp h
      cases h
      exact .cons ⟨_, hx⟩ (ih hrest)

/-- Entries are decoded one after the other, each at its key. -/
theorem decodeEntries_eq_mapM (body : Decoding Datum) (path : CodingPath)
    (entries : List (String × Value)) :
    decodeEntries body path entries =
      entries.mapM fun e => (body ⟨e.2, path.child e.1⟩).map (Prod.mk e.1) := by
  induction entries with
  | nil => rfl
  | cons e rest ih =>
      obtain ⟨key, v⟩ := e
      rw [decodeEntries, ih, List.mapM_cons]
      cases body ⟨v, path.child key⟩ <;> rfl

/-- Entries decode in a row if each decodes at its key. -/
theorem decodeEntries_eq_ok_iff {body : Decoding Datum} {entries : List (String × Value)}
    {xs : List (String × Datum)} {path : CodingPath} :
    decodeEntries body path entries = .ok xs ↔
      List.Forall₂ (fun e f => e.1 = f.1 ∧ body ⟨e.2, path.child e.1⟩ = .ok f.2) entries xs := by
  simp only [decodeEntries_eq_mapM, mapM_eq_ok_iff, map_mk_eq_ok_iff]

/-- Entries that decode wherever they stand decode in a row, each to its key. -/
theorem decodeEntries_eq_ok {body : Decoding Datum} {entries : List (String × Value)}
    {xs : List (String × Datum)}
    (h : List.Forall₂ (Entries.Matched fun v x => ∀ path, body ⟨v, path⟩ = .ok x) entries xs)
    (path : CodingPath) : decodeEntries body path entries = .ok xs :=
  decodeEntries_eq_ok_iff.mpr (h.imp fun _ _ ⟨hkey, hx⟩ => ⟨hkey, hx _⟩)

/-- Entries that decode in a row decode each at some place, to its key. -/
theorem forall₂_of_decodeEntries {body : Decoding Datum} {entries : List (String × Value)}
    {xs : List (String × Datum)} {path : CodingPath}
    (h : decodeEntries body path entries = .ok xs) :
    List.Forall₂ (Entries.Matched fun v x => ∃ path, body ⟨v, path⟩ = .ok x) entries xs :=
  (decodeEntries_eq_ok_iff.mp h).imp fun _ _ ⟨hkey, hx⟩ => ⟨hkey, _, hx⟩

/-! ## Members -/

/-- An entry is present for decoding if it is there and not null. -/
theorem KeyedDecoder.decodeIfPresent_eq_some_iff {α : Type} {c : KeyedDecoder} {read : Decoding α}
    {key : String} {a : α} :
    c.decodeIfPresent read key = .ok (some a) ↔
      ∃ v, Entries.get? c.entries key = some v ∧ v.isNull = false ∧
        read ⟨v, c.path.child key⟩ = .ok a := by
  unfold decodeIfPresent
  cases hv : Entries.get? c.entries key with
  | none => simp
  | some v => cases v <;> simp [Value.isNull, map_eq_ok_iff]

/-- What reads the value of a member: its helper, or the coding of its shape. -/
def Member.reading (body : Shape → Decoding Datum) (m : Member) : Decoding Datum :=
  match m.helper with
  | some helper => helper.decode
  | none => body m.shape

namespace Member

variable {body : Shape → Decoding Datum} {m : Member} {c : KeyedDecoder} {v : Value} {x y : Datum}

theorem decode_of_fixed (hsource : m.source = .fixed x) : m.decode body c = .ok x := by
  unfold decode
  rw [hsource]

/-- A required member is read from its entry. -/
theorem decode_of_required (hsource : m.source = .required)
    (hv : Entries.get? c.entries m.key = some v) :
    m.decode body c = m.reading body ⟨v, c.path.child m.key⟩ := by
  unfold decode reading
  rw [hsource]
  cases m.helper with
  | some helper => simp only [KeyedDecoder.decodeWith, KeyedDecoder.nested, hv, bind, Except.bind]
  | none => simp only [KeyedDecoder.decode, hv]

theorem decode_defaulted (hsource : m.source = .defaulted x) :
    m.decode body c =
      match c.decodeIfPresent (m.reading body) m.key with
      | .ok (some y) => .ok y
      | _ => .ok x := by
  unfold decode reading
  rw [hsource]
  cases m.helper <;> rfl

/-- Null in place of a member with a default stands for the default. -/
theorem decode_of_defaulted_null (hsource : m.source = .defaulted x)
    (hv : Entries.get? c.entries m.key = some .null) : m.decode body c = .ok x := by
  rw [decode_defaulted hsource]
  simp only [KeyedDecoder.decodeIfPresent, hv]

/-- A member with a default is read from its entry if that is not null and decodes. -/
theorem decode_of_defaulted (hsource : m.source = .defaulted x)
    (hv : Entries.get? c.entries m.key = some v) (hnull : v.isNull = false)
    (hy : m.reading body ⟨v, c.path.child m.key⟩ = .ok y) : m.decode body c = .ok y := by
  have hpresent := KeyedDecoder.decodeIfPresent_eq_some_iff.mpr ⟨v, hv, hnull, hy⟩
  rw [decode_defaulted hsource, hpresent]

/-- A member that decodes holds its fixed value, its default, what its entry holds, or what its
shape makes of an absent entry. -/
theorem decode_eq_ok (h : m.decode body c = .ok y) :
    m.source = .fixed y ∨ m.source = .defaulted y ∨
    (∃ v, Entries.get? c.entries m.key = some v ∧
      m.reading body ⟨v, c.path.child m.key⟩ = .ok y ∧ (∀ z, m.source ≠ .fixed z) ∧
      ((∃ z, m.source = .defaulted z) → v.isNull = false)) ∨
    (m.source = .required ∧ m.helper = none ∧ m.shape.missing c.path m.key = .ok y) := by
  cases hsource : m.source with
  | fixed z =>
      rw [decode_of_fixed hsource] at h
      cases h
      exact .inl rfl
  | defaulted z =>
      rw [decode_defaulted hsource] at h
      split at h
      · rename_i y' hpresent
        obtain ⟨v, hv, hnull, hread⟩ := KeyedDecoder.decodeIfPresent_eq_some_iff.mp hpresent
        cases h
        exact .inr (.inr (.inl ⟨v, hv, hread, by simp, fun _ => hnull⟩))
      · cases h
        exact .inr (.inl rfl)
  | required =>
      cases hv : Entries.get? c.entries m.key with
      | some v =>
          rw [decode_of_required hsource hv] at h
          exact .inr (.inr (.inl ⟨v, rfl, h, by simp, by simp⟩))
      | none =>
          unfold decode at h
          rw [hsource] at h
          cases hhelper : m.helper with
          | some helper =>
              simp only [hhelper, KeyedDecoder.decodeWith, KeyedDecoder.nested, hv, bind,
                Except.bind, reduceCtorEq] at h
          | none =>
              simp only [hhelper, KeyedDecoder.decode, hv] at h
              exact .inr (.inr (.inr ⟨rfl, rfl, h⟩))

end Member

/-- Members are decoded one after the other. -/
theorem decodeMembers_eq_mapM (body : Shape → Decoding Datum) (c : KeyedDecoder)
    (members : List Member) :
    decodeMembers body c members = members.mapM fun m => m.decode body c := by
  induction members with
  | nil => rfl
  | cons m rest ih =>
      rw [decodeMembers, ih, List.mapM_cons]
      rfl

theorem decodeMembers_eq_ok_iff {body : Shape → Decoding Datum} {c : KeyedDecoder}
    {members : List Member} {fields : List Datum} :
    decodeMembers body c members = .ok fields ↔
      List.Forall₂ (fun m x => m.decode body c = .ok x) members fields := by
  rw [decodeMembers_eq_mapM, mapM_eq_ok_iff]

/-! ## Declared types -/

/-- Read members from the object at a place. -/
def readMembers (body : Shape → Decoding Datum) (members : List Member) : Decoding (List Datum) :=
  fun d => do
    let c ← d.container
    decodeMembers body c members

theorem readMembers_object (body : Shape → Decoding Datum) (members : List Member)
    (entries : List (String × Value)) (path : CodingPath) :
    readMembers body members ⟨.object entries, path⟩ = decodeMembers body ⟨entries, path⟩ members :=
  rfl

theorem readMembers_eq_ok {body : Shape → Decoding Datum} {members : List Member} {d : Decoder}
    {fields : List Datum} (h : readMembers body members d = .ok fields) :
    ∃ entries, d.value = .object entries ∧
      List.Forall₂ (fun m x => m.decode body ⟨entries, d.path⟩ = .ok x) members fields := by
  obtain ⟨value, path⟩ := d
  cases value with
  | object entries =>
      rw [readMembers_object] at h
      exact ⟨entries, rfl, decodeMembers_eq_ok_iff.mp h⟩
  | _ => cases h

/-- Only an object with one entry has a single key. -/
theorem KeyedDecoder.singleKey_eq_ok {c : KeyedDecoder} {key : String}
    (h : c.singleKey = .ok key) : ∃ v, c.entries = [(key, v)] := by
  obtain ⟨entries, path⟩ := c
  match entries with
  | [] => cases h
  | [(k, v)] =>
      cases h
      exact ⟨v, rfl⟩
  | _ :: _ :: _ => cases h

namespace Schema

variable {body : Shape → Decoding Datum} {title : String}

/-- A struct reads its members. -/
theorem decode_struct (members : List Member) (d : Decoder) :
    (Schema.struct title members).decode body d = (readMembers body members d).map .record := by
  simp only [decode, readMembers, bind, Except.bind, Except.map]
  cases d.container <;> rfl

/-- An enum reads the members of the variant that the only key names, one key further down. -/
theorem decode_enum {variants : List Case} {case : Case}
    (h : variants.find? (fun other => other.key == case.key) = some case) (payload : Value)
    (path : CodingPath) :
    (Schema.enum title variants).decode body ⟨.object [(case.key, payload)], path⟩ =
      (readMembers body case.members ⟨payload, path.child case.key⟩).map (.variant case.ident) := by
  simp only [decode, Decoder.container, KeyedDecoder.singleKey, KeyedDecoder.nested, h,
    Entries.get?, if_true, bind, Except.bind, readMembers]
  cases payload <;> rfl

/-- An enum refuses a key that names no variant. -/
theorem decode_enum_of_unknown {variants : List Case} {key : String}
    (h : variants.find? (fun other => other.key == key) = none) (payload : Value)
    (path : CodingPath) :
    (Schema.enum title variants).decode body ⟨.object [(key, payload)], path⟩ =
      .error ⟨path, .unknownVariant key (variants.map Case.key)⟩ := by
  simp only [decode, Decoder.container, KeyedDecoder.singleKey, h, bind, Except.bind]

/-- A struct that decodes has read its members from an object. -/
theorem decode_struct_eq_ok {members : List Member} {d : Decoder} {x : Datum}
    (h : (Schema.struct title members).decode body d = .ok x) :
    ∃ entries fields, d.value = .object entries ∧ x = .record fields ∧
      List.Forall₂ (fun m y => m.decode body ⟨entries, d.path⟩ = .ok y) members fields := by
  rw [decode_struct] at h
  obtain ⟨fields, hfields, rfl⟩ := map_eq_ok_iff.mp h
  obtain ⟨entries, hvalue, hmembers⟩ := readMembers_eq_ok hfields
  exact ⟨entries, fields, hvalue, rfl, hmembers⟩

/-- An enum that decodes has read the members of one variant from the entry at its key. -/
theorem decode_enum_eq_ok {variants : List Case} {d : Decoder} {x : Datum}
    (h : (Schema.enum title variants).decode body d = .ok x) :
    ∃ case payload fields, variants.find? (fun other => other.key == case.key) = some case ∧
      d.value = .object [(case.key, .object payload)] ∧ x = .variant case.ident fields ∧
      List.Forall₂ (fun m y => m.decode body ⟨payload, d.path.child case.key⟩ = .ok y)
        case.members fields := by
  obtain ⟨value, path⟩ := d
  cases value with
  | object entries =>
      -- the object has one entry, and its key names a variant
      obtain ⟨c, hc, htagged⟩ := bind_eq_ok_iff.mp h
      cases hc
      obtain ⟨key, htag, hcases⟩ := bind_eq_ok_iff.mp htagged
      obtain ⟨payload, hentries⟩ := KeyedDecoder.singleKey_eq_ok htag
      simp only at hentries
      subst hentries
      cases hcase : variants.find? (fun other => other.key == key) with
      | none => simp only [hcase, reduceCtorEq] at hcases
      | some case =>
          obtain rfl : case.key = key := by simpa using List.find?_some hcase
          rw [decode_enum hcase] at h
          obtain ⟨fields, hfields, rfl⟩ := map_eq_ok_iff.mp h
          obtain ⟨inner, hvalue, hmembers⟩ := readMembers_eq_ok hfields
          simp only at hvalue
          subst hvalue
          exact ⟨case, inner, fields, hcase, rfl, rfl, hmembers⟩
  | _ => cases h

end Schema

end KeyedCoding
