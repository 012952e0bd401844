import KeyedCoding.Proofs.Coding.Reporting

/-!
# Places

Coding knows where it stands by a path, and makes little of it.  Decoding reports its errors at the
place it reads or further down, and encoding writes the same tree wherever it is run.  Both are
statements about helpers first: each step of coding keeps them, so they hold for all declared types
whose helpers have them.
-/

namespace KeyedCoding

/-! ## Errors lie within the place that is read -/

namespace CodingPath

/-- A path goes through another one. -/
def Within (inner outer : CodingPath) : Prop := outer.segments <+: inner.segments

theorem within_refl (path : CodingPath) : path.Within path := List.prefix_rfl

theorem Within.of_child {path inner : CodingPath} {key : String}
    (h : inner.Within (path.child key)) : inner.Within path :=
  (List.prefix_append path.segments [key]).trans h

theorem not_within_child (path : CodingPath) (key : String) : ¬ path.Within (path.child key) := by
  intro h
  have hlength := h.length_le
  rw [segments_child, List.length_append, List.length_singleton] at hlength
  omega

end CodingPath

/-- The errors of a reading lie within the place that is read. -/
def Decoding.ReportsWithin {α : Type} (read : Decoding α) : Prop :=
  ∀ d e, read d = .error e → e.path.Within d.path

section Reading

variable {e : CodingError} {path : CodingPath}

theorem within_decodeItems {body : Decoding Datum} (hbody : body.ReportsWithin) {index : Nat}
    {items : List Value} (h : decodeItems body path index items = .error e) :
    e.path.Within path := by
  induction items generalizing index with
  | nil => cases h
  | cons v rest ih =>
      rcases bind_eq_error_iff.mp h with hv | ⟨x, -, h⟩
      · exact (hbody _ e hv).of_child
      · rcases bind_eq_error_iff.mp h with hrest | ⟨xs, -, h⟩
        · exact ih hrest
        · cases h

theorem within_decodeEntries {body : Decoding Datum} (hbody : body.ReportsWithin)
    {entries : List (String × Value)} (h : decodeEntries body path entries = .error e) :
    e.path.Within path := by
  rw [decodeEntries_eq_mapM] at h
  obtain ⟨entry, -, herr⟩ := exists_mem_of_mapM_eq_error h
  exact (hbody _ e (map_eq_error_iff.mp herr)).of_child

theorem reportsWithin_decodeInteger (kind : IntKind) :
    Decoding.ReportsWithin (decodeInteger kind) := by
  intro d e h
  unfold decodeInteger at h
  split at h
  · split at h <;> cases h
    exact d.path.within_refl
  · cases h
    exact d.path.within_refl

theorem reportsWithin_decodeFloat : Decoding.ReportsWithin decodeFloat := by
  intro d e h
  unfold decodeFloat at h
  split at h <;> cases h
  exact d.path.within_refl

theorem reportsWithin_decodeString : Decoding.ReportsWithin decodeString := by
  intro d e h
  unfold decodeString at h
  split at h <;> cases h
  exact d.path.within_refl

theorem within_singleChar {d : Decoder} {s : String} (h : singleChar d s = .error e) :
    e.path.Within d.path := by
  unfold singleChar at h
  split at h <;> cases h
  exact d.path.within_refl

/-- A shape reports within its place if the declared types that it refers to do. -/
theorem Shape.reportsWithin_decodeWith {named : String → Decoding Datum}
    (hnamed : ∀ name, (named name).ReportsWithin) (shape : Shape) :
    Decoding.ReportsWithin (shape.decodeWith named) := by
  induction shape with
  | bool =>
      intro d e h
      simp only [Shape.decodeWith] at h
      split at h <;> cases h
      exact d.path.within_refl
  | int kind =>
      exact fun d e h => reportsWithin_decodeInteger kind d e (map_eq_error_iff.mp h)
  | float32 => exact fun d e h => reportsWithin_decodeFloat d e (map_eq_error_iff.mp h)
  | float64 => exact fun d e h => reportsWithin_decodeFloat d e (map_eq_error_iff.mp h)
  | string => exact fun d e h => reportsWithin_decodeString d e (map_eq_error_iff.mp h)
  | char =>
      intro d e h
      rcases bind_eq_error_iff.mp h with hs | ⟨s, -, hs⟩
      · exact reportsWithin_decodeString d e hs
      · exact within_singleChar hs
  | value => exact fun d e h => by cases h
  | option inner ih =>
      intro d e h
      simp only [Shape.decodeWith] at h
      split at h
      · cases h
      · exact ih d e (map_eq_error_iff.mp h)
  | box inner ih => exact ih
  | list inner ih =>
      intro d e h
      simp only [Shape.decodeWith] at h
      split at h
      · exact within_decodeItems ih (map_eq_error_iff.mp h)
      · cases h
        exact d.path.within_refl
  | map kind inner ih =>
      intro d e h
      simp only [Shape.decodeWith] at h
      split at h
      · exact within_decodeEntries ih (map_eq_error_iff.mp h)
      · cases h
        exact d.path.within_refl
  | phantom => exact fun d e h => by cases h
  | named name => exact hnamed name

variable {body : Shape → Decoding Datum}

/-- A member reports within its object if what reads its entry reports within the entry. -/
theorem Member.within_decode {m : Member} {c : KeyedDecoder}
    (hreading : (m.reading body).ReportsWithin) (h : m.decode body c = .error e) :
    e.path.Within c.path := by
  cases hsource : m.source with
  | fixed x =>
      rw [decode_of_fixed hsource] at h
      cases h
  | defaulted x =>
      rw [decode_defaulted hsource] at h
      split at h <;> cases h
  | required =>
      cases hv : Entries.get? c.entries m.key with
      | some v =>
          rw [decode_of_required hsource hv] at h
          exact (hreading _ e h).of_child
      | none =>
          unfold decode at h
          rw [hsource] at h
          cases hhelper : m.helper with
          | some helper =>
              simp only [hhelper, KeyedDecoder.decodeWith, KeyedDecoder.nested, hv, bind,
                Except.bind] at h
              cases h
              exact c.path.within_refl
          | none =>
              simp only [hhelper, KeyedDecoder.decode, hv] at h
              unfold Shape.missing at h
              split at h <;> cases h
              exact c.path.within_refl

theorem within_decodeMembers {members : List Member} {c : KeyedDecoder}
    (hmembers : ∀ m ∈ members, (m.reading body).ReportsWithin)
    (h : decodeMembers body c members = .error e) : e.path.Within c.path := by
  rw [decodeMembers_eq_mapM] at h
  obtain ⟨m, hm, herr⟩ := exists_mem_of_mapM_eq_error h
  exact Member.within_decode (hmembers m hm) herr

theorem reportsWithin_readMembers {members : List Member}
    (hmembers : ∀ m ∈ members, (m.reading body).ReportsWithin) :
    (readMembers body members).ReportsWithin := by
  rintro ⟨v, path⟩ e h
  cases v with
  | object entries => exact within_decodeMembers (c := ⟨entries, path⟩) hmembers h
  | _ =>
      cases h
      exact path.within_refl

/-- A declared type reports within its place if its members report within their entries. -/
theorem Schema.reportsWithin_decode {schema : Schema}
    (hmembers : ∀ m ∈ schema.members, (m.reading body).ReportsWithin) :
    Decoding.ReportsWithin (schema.decode body) := by
  intro d e h
  cases schema with
  | struct title members =>
      rw [Schema.decode_struct] at h
      exact reportsWithin_readMembers hmembers d e (map_eq_error_iff.mp h)
  | enum title variants =>
      obtain ⟨v, path⟩ := d
      cases v with
      | object entries =>
          match entries with
          | [] | _ :: _ :: _ =>
              cases h
              exact path.within_refl
          | [(key, payload)] =>
              cases hcase : variants.find? fun case => case.key == key with
              | none =>
                  rw [Schema.decode_enum_of_unknown hcase] at h
                  cases h
                  exact path.within_refl
              | some case =>
                  obtain rfl : case.key = key := by simpa using List.find?_some hcase
                  have hcase' := List.mem_of_find?_eq_some hcase
                  -- the payload is read one key further down
                  rw [Schema.decode_enum hcase] at h
                  have hpayload := reportsWithin_readMembers
                    fun m hm => hmembers m (List.mem_flatMap.mpr ⟨case, hcase', hm⟩)
                  exact (hpayload _ e (map_eq_error_iff.mp h)).of_child
      | _ =>
          cases h
          exact path.within_refl

end Reading

/-! ## Encoding writes the same tree everywhere -/

namespace Encoding

/-- Where a body is run changes neither whether it succeeds nor what it writes. -/
def Placeless (body : Encoding Unit) : Prop :=
  (∃ v, ∀ path, body.Writes path v) ∨ ∀ path, ∃ err, body.FailsOn (Encoder.fresh path) err

theorem placeless_value (v : Value) : (value v).Placeless := .inl ⟨v, writes_value v⟩

theorem placeless_pure : Placeless (pure ()) := .inl ⟨.null, fun _ => ⟨_, rfl, rfl⟩⟩

theorem placeless_throw (err : CodingError) : Placeless (throw err) :=
  .inr fun _ => ⟨err, _, rfl⟩

theorem placeless_fail (cause : CodingCause) : Placeless (fail cause) :=
  .inr fun path => ⟨⟨path, cause⟩, _, rfl⟩

/-- What a body wrote at one place is what it writes at any other. -/
theorem Placeless.writes {body : Encoding Unit} (h : body.Placeless) {path : CodingPath} {v : Value}
    (hv : body.Writes path v) (path' : CodingPath) : body.Writes path' v := by
  obtain ⟨e, he, hev⟩ := hv
  rcases h with ⟨w, hw⟩ | hfails
  · obtain ⟨e', he', rfl⟩ := hw path
    rw [he] at he'
    cases he'
    exact hev ▸ hw path'
  · obtain ⟨err, e', herr⟩ := hfails path
    rw [he] at herr
    cases herr

/-- In an object that is open a body leaves the same entries everywhere, or fails everywhere. -/
def PlacelessFrom (body : Encoding Unit) (entries : Entries Value) : Prop :=
  (∃ final, ∀ path, body (Encoder.holding path entries) = .ok () (Encoder.holding path final)) ∨
    ∀ path, ∃ err, body.FailsOn (Encoder.holding path entries) err

theorem placelessFrom_pure (entries : Entries Value) : PlacelessFrom (pure ()) entries :=
  .inl ⟨entries, fun _ => rfl⟩

theorem PlacelessFrom.bind {first second : Encoding Unit} {entries : Entries Value}
    (hfirst : first.PlacelessFrom entries) (hsecond : ∀ final, second.PlacelessFrom final) :
    PlacelessFrom (first >>= fun _ => second) entries := by
  rcases hfirst with ⟨middle, hmiddle⟩ | hfails
  · have hrun : ∀ path, (first >>= fun _ => second) (Encoder.holding path entries) =
        second (Encoder.holding path middle) := fun path => by
      simp only [Bind.bind, EStateM.bind, hmiddle path]
    rcases hsecond middle with ⟨final, hfinal⟩ | hfails
    · exact .inl ⟨final, fun path => (hrun path).trans (hfinal path)⟩
    · refine .inr fun path => ?_
      obtain ⟨err, e, he⟩ := hfails path
      exact ⟨err, e, (hrun path).trans he⟩
  · refine .inr fun path => ?_
    obtain ⟨err, e, he⟩ := hfails path
    exact ⟨err, e, by simp only [Bind.bind, EStateM.bind, he]⟩

/-- A nested write stores the same tree everywhere. -/
theorem Placeless.nested {body : Encoding Unit} (h : body.Placeless) (key : String)
    (entries : Entries Value) : (nested key body).PlacelessFrom entries := by
  rcases h with ⟨v, hv⟩ | hfails
  · exact .inl ⟨entries.put key v, fun path => nested_holding (hv (path.child key)) entries⟩
  · refine .inr fun path => ?_
    obtain ⟨err, e, he⟩ := hfails (path.child key)
    refine ⟨err, (Encoder.holding path entries).opened, ?_⟩
    simp only [Encoding.nested, Encoder.opened, Encoder.holding, he]

/-- An object that is opened first is empty. -/
theorem PlacelessFrom.container {body : Encoding Unit} (h : body.PlacelessFrom []) :
    Placeless (container >>= fun _ => body) := by
  rcases h with ⟨final, hfinal⟩ | hfails
  · exact .inl ⟨.object final, fun path => ⟨_, hfinal path, rfl⟩⟩
  · exact .inr hfails

end Encoding

section Writing

open Encoding

theorem placeless_encodeInteger (n : Int) : (encodeInteger n).Placeless := by
  unfold encodeInteger
  split
  · exact placeless_value _
  · exact placeless_fail _

/-- A shape is written the same everywhere if the declared types that it refers to are. -/
theorem Shape.placeless_encodeWith {named : String → Datum → Encoding Unit}
    (hnamed : ∀ name x, (named name x).Placeless) (shape : Shape) (x : Datum) :
    (shape.encodeWith named x).Placeless := by
  -- Items and entries are written from the root, so only the outcome of all of them is left.
  induction shape generalizing x with
  | int kind =>
      cases x with
      | int n => exact placeless_encodeInteger n
      | _ => exact placeless_pure
  | option inner ih =>
      cases x with
      | none => exact placeless_value _
      | some y => exact ih y
      | _ => exact placeless_pure
  | box inner ih =>
      simp only [Shape.encodeWith]
      exact ih x
  | list inner ih =>
      cases x with
      | list items =>
          simp only [Shape.encodeWith]
          split
          · exact placeless_value _
          · exact placeless_throw _
      | _ => exact placeless_pure
  | map kind inner ih =>
      cases x with
      | map entries =>
          simp only [Shape.encodeWith]
          split
          · exact placeless_value _
          · exact placeless_throw _
      | _ => exact placeless_pure
  | named name =>
      simp only [Shape.encodeWith]
      exact hnamed name x
  | _ =>
      cases x <;> first | exact placeless_value _ | exact placeless_pure

variable {body : Shape → Datum → Encoding Unit}

theorem Member.placelessFrom_encode {m : Member} {x : Datum}
    (h : (m.writing body x).Placeless) (entries : Entries Value) :
    (m.encode body x).PlacelessFrom entries := by
  unfold Member.encode
  split
  · exact h.nested m.key entries
  · exact placelessFrom_pure entries

theorem placelessFrom_encodeMembers {members : List Member}
    (hmembers : ∀ m ∈ members, ∀ x, (m.writing body x).Placeless) (fields : List Datum)
    (entries : Entries Value) : (encodeMembers body members fields).PlacelessFrom entries := by
  induction members generalizing fields entries with
  | nil => exact placelessFrom_pure entries
  | cons m rest ih =>
      cases fields with
      | nil => exact placelessFrom_pure entries
      | cons x xs =>
          rw [List.forall_mem_cons] at hmembers
          exact (Member.placelessFrom_encode (hmembers.1 x) entries).bind
            fun final => ih hmembers.2 xs final

/-- A declared type is written the same everywhere if its members are. -/
theorem Schema.placeless_encode {schema : Schema}
    (hmembers : ∀ m ∈ schema.members, ∀ x, (m.writing body x).Placeless) (x : Datum) :
    (schema.encode body x).Placeless := by
  cases schema with
  | struct title members =>
      cases x with
      | record fields => exact (placelessFrom_encodeMembers hmembers fields []).container
      | _ => exact placeless_pure
  | enum title variants =>
      cases x with
      | variant ident fields =>
          refine PlacelessFrom.container ?_
          split
          · next case hcase =>
            have hcase := List.mem_of_find?_eq_some hcase
            have hpayload := placelessFrom_encodeMembers
              (fun m hm => hmembers m (List.mem_flatMap.mpr ⟨case, hcase, hm⟩)) fields []
            exact hpayload.container.nested case.key []
          · exact placelessFrom_pure []
      | _ => exact placeless_pure

end Writing

/-! ## Declared types -/

namespace Registry

/-- The helpers report within the place that they read. -/
def HelpersReportWithin (types : Registry) : Prop :=
  ∀ helper, types.HasHelper helper → helper.decode.ReportsWithin

/-- The helpers write the same tree everywhere. -/
def HelpersPlaceless (types : Registry) : Prop :=
  ∀ helper, types.HasHelper helper → ∀ x, (helper.encode x).Placeless

variable {types : Registry}

theorem reportsWithin_decodeNamed (hhelpers : types.HelpersReportWithin) (bound : Nat)
    (name : String) : Decoding.ReportsWithin (types.decodeNamed bound name) := by
  -- One level of declared types reads its members at the level below.
  induction bound generalizing name with
  | zero =>
      intro d e h
      cases h
      exact d.path.within_refl
  | succ bound ih =>
      intro d e h
      simp only [decodeNamed] at h
      split at h
      · next schema hfind =>
        have hreading : ∀ m ∈ schema.members, Decoding.ReportsWithin
            (m.reading (Shape.decodeWith (types.decodeNamed bound))) := by
          intro m hm
          unfold Member.reading
          split
          · next helper hhelper => exact hhelpers helper ⟨m, ⟨name, schema, hfind, hm⟩, hhelper⟩
          · exact Shape.reportsWithin_decodeWith ih m.shape
        exact Schema.reportsWithin_decode hreading d e h
      · cases h
        exact d.path.within_refl

/-- Decoding reports within the place that it reads, if the helpers do. -/
theorem reportsWithin_decode (hhelpers : types.HelpersReportWithin) (shape : Shape) :
    Decoding.ReportsWithin (types.decode shape) := fun d e h =>
  Shape.reportsWithin_decodeWith
    (reportsWithin_decodeNamed hhelpers (d.value.depth + 1)) shape d e h

theorem placeless_encodeNamed (hhelpers : types.HelpersPlaceless) (bound : Nat) (name : String)
    (x : Datum) : (types.encodeNamed bound name x).Placeless := by
  induction bound generalizing name x with
  | zero => exact Encoding.placeless_pure
  | succ bound ih =>
      simp only [encodeNamed]
      split
      · next schema hfind =>
        refine Schema.placeless_encode (fun m hm y => ?_) x
        unfold Member.writing
        split
        · next helper hhelper => exact hhelpers helper ⟨m, ⟨name, schema, hfind, hm⟩, hhelper⟩ y
        · exact Shape.placeless_encodeWith ih m.shape y
      · exact Encoding.placeless_pure

/-- Encoding writes the same tree everywhere, if the helpers do. -/
theorem placeless_encode (hhelpers : types.HelpersPlaceless) (shape : Shape) (x : Datum) :
    (types.encode shape x).Placeless :=
  Shape.placeless_encodeWith (placeless_encodeNamed hhelpers (x.depth + 1)) shape x

end Registry

end KeyedCoding
