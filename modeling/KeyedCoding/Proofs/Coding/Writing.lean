import KeyedCoding.Proofs.Coding.Reading

/-!
# What encoding writes

Every body of encoding runs on a fresh encoder at some path and leaves one tree there.
`Encoding.Writes` says so, and each step of encoding gets one law about it: single values, items,
entries, and the members of an open object, whose keys are written one after the other.
-/

namespace KeyedCoding

namespace Encoding

/-- A body writes a tree at a path if it succeeds on a fresh encoder there and leaves the tree. -/
def Writes (body : Encoding Unit) (path : CodingPath) (v : Value) : Prop :=
  ∃ e, body (Encoder.fresh path) = .ok () e ∧ e.toValue = v

/-- Whether a body writes null at a path. -/
def writesNull (body : Encoding Unit) (path : CodingPath) : Bool :=
  match body (Encoder.fresh path) with
  | .ok _ e => e.toValue.isNull
  | .error _ _ => false

theorem Writes.writesNull_eq {body : Encoding Unit} {path : CodingPath} {v : Value}
    (h : body.Writes path v) : writesNull body path = v.isNull := by
  obtain ⟨e, he, rfl⟩ := h
  simp only [writesNull, he]

theorem toValue_eq_ok_iff {body : Encoding Unit} {v : Value} :
    toValue body = .ok v ↔ body.Writes .root v := by
  unfold toValue Writes
  cases hbody : body (Encoder.fresh .root) with
  | ok _ e => simp
  | error err e => simp

/-- A single value is written as it is. -/
theorem writes_value (v : Value) (path : CodingPath) : (value v).Writes path v :=
  ⟨(Encoder.fresh path).hold v, rfl, rfl⟩

end Encoding

/-! ## Items and entries -/

/-- Items are written one after the other, each from the root. -/
theorem encodeItems_eq_mapM (body : Datum → Encoding Unit) (items : List Datum) :
    encodeItems body items = items.mapM fun x => Encoding.toValue (body x) := by
  induction items with
  | nil => rfl
  | cons x rest ih =>
      rw [encodeItems, ih, List.mapM_cons]
      rfl

/-- Entries are written one after the other, each from the root. -/
theorem encodeEntries_eq_mapM (body : Datum → Encoding Unit) (entries : List (String × Datum)) :
    encodeEntries body entries =
      entries.mapM fun e => (Encoding.toValue (body e.2)).map (Prod.mk e.1) := by
  induction entries with
  | nil => rfl
  | cons e rest ih =>
      obtain ⟨key, x⟩ := e
      rw [encodeEntries, ih, List.mapM_cons]
      cases Encoding.toValue (body x) <;> rfl

/-- The trees of items are what their bodies write from the root. -/
theorem encodeItems_eq_ok_iff {body : Datum → Encoding Unit} {items : List Datum}
    {values : List Value} :
    encodeItems body items = .ok values ↔
      List.Forall₂ (fun x v => (body x).Writes .root v) items values := by
  simp only [encodeItems_eq_mapM, mapM_eq_ok_iff, Encoding.toValue_eq_ok_iff]

/-- The trees of entries are what their bodies write from the root, each at its key. -/
theorem encodeEntries_eq_ok_iff {body : Datum → Encoding Unit} {entries : List (String × Datum)}
    {values : List (String × Value)} :
    encodeEntries body entries = .ok values ↔
      List.Forall₂ (Entries.Matched fun x v => (body x).Writes .root v) entries values := by
  show _ ↔ List.Forall₂ (fun e f => e.1 = f.1 ∧ (body e.2).Writes .root f.2) entries values
  simp only [encodeEntries_eq_mapM, mapM_eq_ok_iff, map_mk_eq_ok_iff, Encoding.toValue_eq_ok_iff]

/-! ## Members of an open object -/

/-- An encoder with an open object. -/
def Encoder.holding (path : CodingPath) (entries : Entries Value) : Encoder :=
  ⟨path, none, some entries⟩

/-- What writes the value of a member: its helper, or the coding of its shape. -/
def Member.writing (body : Shape → Datum → Encoding Unit) (m : Member) (x : Datum) :
    Encoding Unit :=
  match m.helper with
  | some helper => helper.encode x
  | none => body m.shape x

/-- The keys that members write. -/
def writtenKeys (members : List Member) : List String :=
  (members.filter Member.encoded).map Member.key

namespace Encoding

/-- A nested write puts its tree at its key and keeps every other entry. -/
theorem nested_holding {body : Encoding Unit} {path : CodingPath} {key : String} {v : Value}
    (h : body.Writes (path.child key) v) (entries : Entries Value) :
    nested key body (Encoder.holding path entries) =
      .ok () (Encoder.holding path (entries.put key v)) := by
  obtain ⟨e, he, rfl⟩ := h
  simp only [nested, Encoder.opened, Encoder.holding, he]
  rfl

/-- A nested write that succeeds has put what its body writes at its key. -/
theorem nested_holding_eq_ok {body : Encoding Unit} {path : CodingPath} {key : String}
    {entries : Entries Value} {e : Encoder}
    (h : nested key body (Encoder.holding path entries) = .ok () e) :
    ∃ v, body.Writes (path.child key) v ∧ e = Encoder.holding path (entries.put key v) := by
  simp only [nested, Encoder.opened, Encoder.holding] at h
  split at h
  · next inner hinner =>
    cases h
    exact ⟨inner.toValue, ⟨inner, hinner, rfl⟩, rfl⟩
  · cases h

end Encoding

namespace Member

variable {body : Shape → Datum → Encoding Unit}

theorem encode_holding {m : Member} {x : Datum} {path : CodingPath} {v : Value}
    (hm : m.encoded = true) (h : (m.writing body x).Writes (path.child m.key) v)
    (entries : Entries Value) :
    m.encode body x (Encoder.holding path entries) =
      .ok () (Encoder.holding path (entries.put m.key v)) := by
  simp only [encode, hm, if_true]
  exact Encoding.nested_holding h entries

theorem encode_of_not_encoded {m : Member} (hm : m.encoded = false) (x : Datum)
    (e : Encoder) : m.encode body x e = .ok () e := by
  simp only [encode, hm, Bool.false_eq_true, if_false]
  rfl

/-- A member that is encoded into an open object has put what it writes at its key, or nothing if
it is not written. -/
theorem encode_holding_eq_ok {m : Member} {x : Datum} {path : CodingPath}
    {entries : Entries Value} {e : Encoder}
    (h : m.encode body x (Encoder.holding path entries) = .ok () e) :
    (m.encoded = true ∧ ∃ v, (m.writing body x).Writes (path.child m.key) v ∧
      e = Encoder.holding path (entries.put m.key v)) ∨
    (m.encoded = false ∧ e = Encoder.holding path entries) := by
  by_cases hencoded : m.encoded = true
  · simp only [encode, hencoded, if_true] at h
    exact .inl ⟨hencoded, Encoding.nested_holding_eq_ok h⟩
  · have hencoded : m.encoded = false := by simpa using hencoded
    rw [encode_of_not_encoded hencoded x] at h
    cases h
    exact .inr ⟨hencoded, rfl⟩

end Member

/-- Members leave an open object, and keep of its entries whatever each write of a member keeps. -/
theorem encodeMembers_invariant {body : Shape → Datum → Encoding Unit} {path : CodingPath}
    (P : Entries Value → Prop) {members : List Member} {fields : List Datum}
    (hput : ∀ m ∈ members, ∀ x v, (m.writing body x).Writes (path.child m.key) v →
      ∀ entries, P entries → P (entries.put m.key v))
    {entries : Entries Value} (hentries : P entries) {e : Encoder}
    (h : encodeMembers body members fields (Encoder.holding path entries) = .ok () e) :
    ∃ final, e = Encoder.holding path final ∧ P final := by
  induction members generalizing fields entries with
  | nil =>
      cases h
      exact ⟨entries, rfl, hentries⟩
  | cons m rest ih =>
      rw [List.forall_mem_cons] at hput
      cases fields with
      | nil =>
          cases h
          exact ⟨entries, rfl, hentries⟩
      | cons x xs =>
          simp only [encodeMembers, bind, EStateM.bind] at h
          split at h
          · next hm =>
            rcases Member.encode_holding_eq_ok hm with ⟨-, v, hv, rfl⟩ | ⟨-, rfl⟩
            · exact ih hput.2 (hput.1 x v hv entries hentries) h
            · exact ih hput.2 hentries h
          · cases h

/-- Members of an open object whose written keys differ: the run succeeds, each written key holds
what its member wrote, and every other key holds what it held before. -/
theorem encodeMembers_holding {body : Shape → Datum → Encoding Unit} {path : CodingPath}
    (P : Member → Datum → Value → Prop) {members : List Member} {fields : List Datum}
    (hkeys : (writtenKeys members).Nodup)
    (h : List.Forall₂ (fun m x => m.encoded = true →
      ∃ v, (m.writing body x).Writes (path.child m.key) v ∧ P m x v) members fields)
    (entries : Entries Value) :
    ∃ final, encodeMembers body members fields (Encoder.holding path entries) =
        .ok () (Encoder.holding path final) ∧
      List.Forall₂ (fun m x => m.encoded = true →
        ∃ v, final.get? m.key = some v ∧ P m x v) members fields ∧
      ∀ key, key ∉ writtenKeys members → final.get? key = entries.get? key := by
  -- The invariant of the run is about every start: what the first member wrote is among the
  -- entries that the others start from, and their keys are different ones.
  induction h generalizing entries with
  | nil => exact ⟨entries, rfl, .nil, fun _ _ => rfl⟩
  | @cons m x members fields hm _ ih =>
      by_cases hencoded : m.encoded = true
      · have hkeys' : writtenKeys (m :: members) = m.key :: writtenKeys members := by
          simp [writtenKeys, hencoded]
        rw [hkeys', List.nodup_cons] at hkeys
        obtain ⟨v, hwrites, hP⟩ := hm hencoded
        obtain ⟨final, hrun, hheld, hframe⟩ := ih hkeys.2 (entries.put m.key v)
        refine ⟨final, ?_, .cons (fun _ => ⟨v, ?_, hP⟩) hheld, ?_⟩
        · show (m.encode body x >>= fun _ => encodeMembers body members fields) _ = _
          simp only [bind, EStateM.bind, Member.encode_holding hencoded hwrites entries]
          exact hrun
        · rw [hframe m.key hkeys.1, Entries.get?_put_self]
        · intro key hkey
          rw [hkeys', List.mem_cons, not_or] at hkey
          rw [hframe key hkey.2, Entries.get?_put_of_ne entries v hkey.1]
      · have hencoded : m.encoded = false := by simpa using hencoded
        have hkeys' : writtenKeys (m :: members) = writtenKeys members := by
          simp [writtenKeys, hencoded]
        rw [hkeys'] at hkeys
        obtain ⟨final, hrun, hheld, hframe⟩ := ih hkeys entries
        refine ⟨final, ?_, .cons (fun habs => ?_) hheld, ?_⟩
        · show (m.encode body x >>= fun _ => encodeMembers body members fields) _ = _
          simp only [bind, EStateM.bind, Member.encode_of_not_encoded hencoded x]
          exact hrun
        · rw [hencoded] at habs
          contradiction
        · rw [hkeys']
          exact hframe

end KeyedCoding
