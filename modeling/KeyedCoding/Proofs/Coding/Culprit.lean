import KeyedCoding.Proofs.Coding.Return

/-!
# Errors point at the culprit

Where a tree stands matters to decoding in one respect only: it is the front part of the path of an
error.  The rest of the path leads from the tree to a subtree that the cause of the error describes.
`PointsAt` says this of anything that reads a tree, and every step of decoding keeps it.
-/

namespace KeyedCoding

/-! ## Ways into a tree -/

/-- The subtree that segments lead to: each is the key of an entry, or the decimal index of an
item. -/
inductive Value.Reaches : Value → List String → Value → Prop
  | here (v : Value) : Reaches v [] v
  | entry {entries : List (String × Value)} {key : String} {v u : Value} {segments : List String}
      (hmem : (key, v) ∈ entries) (h : Reaches v segments u) :
      Reaches (.object entries) (key :: segments) u
  | item {items : List Value} {index : Nat} {v u : Value} {segments : List String}
      (hindex : items[index]? = some v) (h : Reaches v segments u) :
      Reaches (.array items) (toString index :: segments) u

/-- What a cause says about the tree at fault.  `own` is what the texts of helpers say. -/
inductive CodingCause.Describes (own : String → Value → Prop) : CodingCause → Value → Prop
  | keyNotFound {key : String} {entries : List (String × Value)}
      (h : key ∉ Entries.keys entries) : Describes own (.keyNotFound key) (.object entries)
  | typeMismatch {expected : String} {u : Value} (h : expected ≠ u.kindName) :
      Describes own (.typeMismatch expected u.kindName) u
  | outOfRange {u : Value} {n : Int} {target : String} (h : u.integer? = some n) :
      Describes own (.outOfRange (toString n) target) u
  | unknownVariant {key : String} {payload : Value} {valid : List String} (h : key ∉ valid) :
      Describes own (.unknownVariant key valid) (.object [(key, payload)])
  | invalidEnumShape {entries : List (String × Value)} (h : entries.length ≠ 1) :
      Describes own (.invalidEnumShape entries.length) (.object entries)
  | notOneCharacter {s : String} (h : s.length ≠ 1) :
      Describes own (.custom ("expected a single character, found " ++ Quoted.shown s)) (.string s)
  | helper {text : String} {u : Value} (h : own text u) : Describes own (.custom text) u

/-- Reading `v` gives one result wherever `v` stands, or one error whose path goes on from there to
a subtree that the cause describes. -/
def PointsAt {α : Type} (own : String → Value → Prop) (v : Value)
    (run : CodingPath → Except CodingError α) : Prop :=
  (∃ a, ∀ path, run path = .ok a) ∨
    ∃ segments cause u, (∀ path, run path = .error ⟨⟨path.segments ++ segments⟩, cause⟩) ∧
      v.Reaches segments u ∧ cause.Describes own u

/-! ## Steps that keep it -/

namespace PointsAt

variable {α β : Type} {own : String → Value → Prop} {v : Value}
  {run : CodingPath → Except CodingError α}

theorem ok {a : α} (h : ∀ path, run path = .ok a) : PointsAt own v run := .inl ⟨a, h⟩

/-- An error about the tree itself. -/
theorem error {cause : CodingCause} (hcause : cause.Describes own v)
    (h : ∀ path, run path = .error ⟨path, cause⟩) : PointsAt own v run := by
  refine .inr ⟨[], cause, v, fun path => ?_, .here v, hcause⟩
  rw [h path, List.append_nil]

theorem mismatch {expected : String} (hne : expected ≠ v.kindName)
    (h : ∀ path, run path = .error ((⟨v, path⟩ : Decoder).mismatch expected)) :
    PointsAt own v run :=
  error (.typeMismatch hne) h

theorem congr {run' : CodingPath → Except CodingError α} (h : PointsAt own v run)
    (heq : ∀ path, run' path = run path) : PointsAt own v run' := by
  rwa [funext heq]

theorem map (f : α → β) (h : PointsAt own v run) :
    PointsAt own v fun path => (run path).map f := by
  rcases h with ⟨a, ha⟩ | ⟨segments, cause, u, herror, hreach, hcause⟩
  · refine ok (a := f a) fun path => ?_
    show (run path).map f = .ok (f a)
    rw [ha path]
    rfl
  · refine .inr ⟨segments, cause, u, fun path => ?_, hreach, hcause⟩
    show (run path).map f = _
    rw [herror path]
    rfl

theorem bind {next : CodingPath → α → Except CodingError β} (h : PointsAt own v run)
    (hnext : ∀ a, PointsAt own v fun path => next path a) :
    PointsAt own v fun path => run path >>= next path := by
  rcases h with ⟨a, ha⟩ | ⟨segments, cause, u, herror, hreach, hcause⟩
  · refine (hnext a).congr fun path => ?_
    rw [ha path]
    rfl
  · refine .inr ⟨segments, cause, u, fun path => ?_, hreach, hcause⟩
    show (run path >>= next path) = _
    rw [herror path]
    rfl

/-- What reads an entry one key further reads the object. -/
theorem entry {entries : List (String × Value)} {key : String} (hmem : (key, v) ∈ entries)
    (h : PointsAt own v run) : PointsAt own (.object entries) fun path => run (path.child key) := by
  rcases h with ⟨a, ha⟩ | ⟨segments, cause, u, herror, hreach, hcause⟩
  · exact ok fun path => ha (path.child key)
  · refine .inr ⟨key :: segments, cause, u, fun path => ?_, .entry hmem hreach, hcause⟩
    show run (path.child key) = _
    rw [herror, CodingPath.segments_child, List.append_assoc]
    rfl

/-- What reads an item one index further reads the array. -/
theorem item {items : List Value} {index : Nat} (hindex : items[index]? = some v)
    (h : PointsAt own v run) :
    PointsAt own (.array items) fun path => run (path.child (toString index)) := by
  rcases h with ⟨a, ha⟩ | ⟨segments, cause, u, herror, hreach, hcause⟩
  · exact ok fun path => ha (path.child (toString index))
  · refine .inr ⟨toString index :: segments, cause, u, fun path => ?_, .item hindex hreach, hcause⟩
    show run (path.child (toString index)) = _
    rw [herror, CodingPath.segments_child, List.append_assoc]
    rfl

end PointsAt

/-! ## Items, entries and members -/

section Steps

variable {own : String → Value → Prop}

theorem pointsAt_decodeItems {body : Decoding Datum} {all items : List Value} {index : Nat}
    (hitems : ∀ i, items[i]? = all[index + i]?)
    (h : ∀ v ∈ items, PointsAt own v fun path => body ⟨v, path⟩) :
    PointsAt own (.array all) fun path => decodeItems body path index items := by
  -- the items still to be read are those of the whole array from `index` on
  induction items generalizing index with
  | nil => exact .ok fun _ => rfl
  | cons v rest ih =>
      have hv : all[index]? = some v := by simpa using (hitems 0).symm
      have hrest : ∀ i, rest[i]? = all[index + 1 + i]? := by
        intro i
        have hi := hitems (i + 1)
        rw [List.getElem?_cons_succ] at hi
        rw [hi]
        congr 1
        omega
      have hhead := (h v List.mem_cons_self).item hv
      have htail := ih hrest fun w hw => h w (List.mem_cons_of_mem _ hw)
      exact hhead.bind fun x => htail.bind fun xs => .ok fun _ => rfl

theorem pointsAt_decodeEntries {body : Decoding Datum} {all entries : List (String × Value)}
    (hentries : ∀ e ∈ entries, e ∈ all)
    (h : ∀ e ∈ entries, PointsAt own e.2 fun path => body ⟨e.2, path⟩) :
    PointsAt own (.object all) fun path => decodeEntries body path entries := by
  induction entries with
  | nil => exact .ok fun _ => rfl
  | cons e rest ih =>
      obtain ⟨key, v⟩ := e
      have hhead := (h (key, v) List.mem_cons_self).entry (hentries _ List.mem_cons_self)
      have htail := ih (fun f hf => hentries f (List.mem_cons_of_mem _ hf))
        fun f hf => h f (List.mem_cons_of_mem _ hf)
      exact hhead.bind fun x => htail.bind fun xs => .ok fun _ => rfl

/-- An absent entry is an error of the object, unless the shape says what it means. -/
theorem Member.pointsAt_decode_absent {body : Shape → Decoding Datum} {m : Member}
    {entries : List (String × Value)} (hsource : m.source = .required)
    (hv : Entries.get? entries m.key = none) :
    PointsAt own (.object entries) fun path => m.decode body ⟨entries, path⟩ := by
  have hcause : (CodingCause.keyNotFound m.key).Describes own (.object entries) :=
    .keyNotFound (Entries.get?_eq_none_iff.mp hv)
  unfold decode
  simp only [hsource]
  cases m.helper with
  | some helper =>
      refine .error hcause fun path => ?_
      simp only [KeyedDecoder.decodeWith, KeyedDecoder.nested, hv, bind, Except.bind]
      rfl
  | none =>
      simp only [KeyedDecoder.decode, hv]
      cases m.shape with
      | option inner => exact .ok fun _ => rfl
      | phantom => exact .ok fun _ => rfl
      | _ => exact .error hcause fun _ => rfl

/-- A default hides every error. -/
theorem Member.pointsAt_decode_defaulted {body : Shape → Decoding Datum} {m : Member}
    {entries : List (String × Value)} {y : Datum} (hsource : m.source = .defaulted y)
    (h : ∀ e ∈ entries, PointsAt own e.2 fun path => m.reading body ⟨e.2, path⟩) :
    PointsAt own (.object entries) fun path => m.decode body ⟨entries, path⟩ := by
  by_cases hpresent : ∃ v, Entries.get? entries m.key = some v ∧ v.isNull = false ∧
      ∃ x, ∀ path, m.reading body ⟨v, path⟩ = .ok x
  · obtain ⟨v, hv, hnull, x, hx⟩ := hpresent
    exact .ok fun path => decode_of_defaulted hsource hv hnull (hx _)
  · refine .ok (a := y) fun path => ?_
    show m.decode body ⟨entries, path⟩ = .ok y
    rw [decode_defaulted hsource]
    split
    · rename_i x hsome
      obtain ⟨v, hv, hnull, hread⟩ := KeyedDecoder.decodeIfPresent_eq_some_iff.mp hsome
      -- what is read here is read anywhere
      rcases h _ (Entries.mem_of_get? hv) with ⟨x', hx'⟩ | ⟨_, _, _, herror, -⟩
      · exact absurd ⟨v, hv, hnull, x', hx'⟩ hpresent
      · cases (herror _).symm.trans hread
    · rfl

/-- A member points at the culprit if what reads its entry does. -/
theorem Member.pointsAt_decode {body : Shape → Decoding Datum} {m : Member}
    {entries : List (String × Value)}
    (h : ∀ e ∈ entries, PointsAt own e.2 fun path => m.reading body ⟨e.2, path⟩) :
    PointsAt own (.object entries) fun path => m.decode body ⟨entries, path⟩ := by
  cases hsource : m.source with
  | fixed y => exact .ok fun path => decode_of_fixed hsource
  | defaulted y => exact pointsAt_decode_defaulted hsource h
  | required =>
      cases hv : Entries.get? entries m.key with
      | none => exact pointsAt_decode_absent hsource hv
      | some v =>
          have hmem := Entries.mem_of_get? hv
          exact ((h _ hmem).entry hmem).congr fun path => decode_of_required hsource hv

/-- Members point at the culprit if each member does. -/
theorem pointsAt_decodeMembers {body : Shape → Decoding Datum} {members : List Member}
    {entries : List (String × Value)}
    (h : ∀ m ∈ members, PointsAt own (.object entries) fun path => m.decode body ⟨entries, path⟩) :
    PointsAt own (.object entries) fun path => decodeMembers body ⟨entries, path⟩ members := by
  induction members with
  | nil => exact .ok fun _ => rfl
  | cons m rest ih =>
      have htail := ih fun m' hm' => h m' (List.mem_cons_of_mem _ hm')
      exact (h m List.mem_cons_self).bind fun x => htail.bind fun xs => .ok fun _ => rfl

end Steps

/-! ## Declared types -/

section Schemas

variable {own : String → Value → Prop} {body : Shape → Decoding Datum} {title : String}

theorem pointsAt_readMembers {members : List Member} {v : Value}
    (h : ∀ entries, v = .object entries → ∀ m ∈ members,
      PointsAt own (.object entries) fun path => m.decode body ⟨entries, path⟩) :
    PointsAt own v fun path => readMembers body members ⟨v, path⟩ := by
  cases v with
  | object entries => exact pointsAt_decodeMembers (h entries rfl)
  | _ => exact .mismatch (by simp [Value.kindName]) fun _ => rfl

theorem Schema.pointsAt_decode_enum {variants : List Case} {v : Value}
    (h : ∀ case ∈ variants, ∀ entries, v = .object [(case.key, .object entries)] →
      ∀ m ∈ case.members,
        PointsAt own (.object entries) fun path => m.decode body ⟨entries, path⟩) :
    PointsAt own v fun path => (Schema.enum title variants).decode body ⟨v, path⟩ := by
  cases v with
  | object entries =>
      match entries with
      | [] => exact .error (.invalidEnumShape (by decide)) fun _ => rfl
      | [(key, payload)] =>
          cases hcase : variants.find? fun case => case.key == key with
          | none =>
              have hunknown : key ∉ variants.map Case.key := by
                intro hmem
                obtain ⟨case, hcase', hkey⟩ := List.mem_map.mp hmem
                exact List.find?_eq_none.mp hcase case hcase' (by simpa using hkey)
              refine .error (.unknownVariant hunknown) fun path => ?_
              simp only [Schema.decode, Decoder.container, KeyedDecoder.singleKey, hcase, bind,
                Except.bind]
          | some case =>
              obtain rfl : case.key = key := by simpa using List.find?_some hcase
              have hmembers : PointsAt own payload fun path =>
                  readMembers body case.members ⟨payload, path⟩ := by
                refine pointsAt_readMembers fun inner hinner => ?_
                exact h case (List.mem_of_find?_eq_some hcase) inner (by rw [hinner])
              refine ((hmembers.map (Datum.variant case.ident)).entry List.mem_cons_self).congr ?_
              exact Schema.decode_enum hcase payload
      | e :: f :: rest => exact .error (.invalidEnumShape (by simp)) fun _ => rfl
  | _ => exact .mismatch (by simp [Value.kindName]) fun _ => rfl

end Schemas

/-! ## Shapes -/

/-- Every declared type that a shape refers to is there. -/
def Shape.Resolves (types : Registry) : Shape → Prop
  | .named name => (types.find? name).isSome = true
  | .option inner | .box inner | .list inner | .map _ inner => inner.Resolves types
  | _ => True

/-- Every declared type that members without a helper refer to is there. -/
def Registry.Closed (types : Registry) : Prop :=
  ∀ m, types.HasMember m → m.helper = none → m.shape.Resolves types

section Shapes

variable {own : String → Value → Prop}

theorem pointsAt_decodeInteger (kind : IntKind) (v : Value) :
    PointsAt own v fun path => decodeInteger kind ⟨v, path⟩ := by
  cases hn : v.integer? with
  | some n =>
      by_cases hfits : kind.fits n = true
      · refine .ok (a := n) fun path => ?_
        simp only [decodeInteger, hn, hfits, if_true]
      · have hcause : (CodingCause.outOfRange (toString n) kind.name).Describes own v :=
          .outOfRange hn
        refine .error hcause fun path => ?_
        simp only [decodeInteger, hn, hfits, if_false, Bool.false_eq_true]
  | none =>
      have hkind : "integer" ≠ v.kindName := by
        cases v <;> simp_all [Value.integer?, Value.kindName]
      refine .mismatch hkind fun path => ?_
      simp only [decodeInteger, hn]

theorem pointsAt_decodeFloat (v : Value) :
    PointsAt own v fun path => decodeFloat ⟨v, path⟩ := by
  cases v with
  | float x => exact .ok fun _ => rfl
  | int n => exact .ok fun _ => rfl
  | uint n => exact .ok fun _ => rfl
  | _ => exact .mismatch (by simp [Value.kindName]) fun _ => rfl

theorem pointsAt_decodeString (v : Value) :
    PointsAt own v fun path => decodeString ⟨v, path⟩ := by
  cases v with
  | string s => exact .ok fun _ => rfl
  | _ => exact .mismatch (by simp [Value.kindName]) fun _ => rfl

theorem pointsAt_singleChar (s : String) :
    PointsAt own (.string s) fun path => singleChar ⟨.string s, path⟩ s := by
  by_cases hsingle : ∃ c, s.toList = [c]
  · obtain ⟨c, hc⟩ := hsingle
    refine .ok (a := .char c) fun path => ?_
    simp only [singleChar, hc]
  · have hlength : s.length ≠ 1 := by
      intro hone
      rw [← String.length_toList] at hone
      exact hsingle (List.length_eq_one_iff.mp hone)
    refine .error (.notOneCharacter hlength) fun path => ?_
    unfold singleChar
    split
    · rename_i c hc
      exact absurd ⟨c, hc⟩ hsingle
    · rfl

end Shapes

namespace Registry

variable {own : String → Value → Prop} {types : Registry}

/-- A declared type points at the culprit if the members of all objects in the tree do. -/
theorem pointsAt_decode_named {name : String} {schema : Schema}
    (hfind : types.find? name = some schema) {v : Value}
    (hmember : ∀ entries, (Value.object entries).depth ≤ v.depth → ∀ m, types.HasMember m →
      PointsAt own (.object entries) fun path => m.decode types.decode ⟨entries, path⟩) :
    PointsAt own v fun path => types.decode (.named name) ⟨v, path⟩ := by
  simp only [decode_named types hfind]
  cases schema with
  | struct title members =>
      have hmembers : PointsAt own v fun path => readMembers types.decode members ⟨v, path⟩ := by
        refine pointsAt_readMembers fun entries hv m hm => ?_
        exact hmember entries (Nat.le_of_eq (by rw [hv])) m (hasMember_of_struct hfind hm)
      exact (hmembers.map Datum.record).congr fun path =>
        Schema.decode_struct members ⟨v, path⟩
  | enum title variants =>
      refine Schema.pointsAt_decode_enum fun case hcase entries hv m hm => ?_
      have hdepth : (Value.object entries).depth < v.depth := by
        rw [hv]
        exact Value.depth_lt_object List.mem_cons_self
      exact hmember entries (Nat.le_of_lt hdepth) m (hasMember_of_variant hfind hcase hm)

/-- A shape points at the culprit if the members of all objects in the tree do. -/
theorem pointsAt_decode_of_members {shape : Shape} (hshape : shape.Resolves types) {v : Value}
    (hmember : ∀ entries, (Value.object entries).depth ≤ v.depth → ∀ m, types.HasMember m →
      PointsAt own (.object entries) fun path => m.decode types.decode ⟨entries, path⟩) :
    PointsAt own v fun path => types.decode shape ⟨v, path⟩ := by
  -- Objects inside items and entries are less deep than the tree, so `hmember` holds for them too.
  induction shape generalizing v with
  | bool =>
      cases v with
      | bool b => exact .ok fun _ => rfl
      | _ => exact .mismatch (by simp [Value.kindName]) fun _ => rfl
  | int kind => exact (pointsAt_decodeInteger kind v).map Datum.int
  | float32 => exact (pointsAt_decodeFloat v).map fun x => Datum.float32 x.narrow
  | float64 => exact (pointsAt_decodeFloat v).map Datum.float64
  | string => exact (pointsAt_decodeString v).map Datum.string
  | char =>
      cases v with
      | string s => exact pointsAt_singleChar s
      | _ => exact .mismatch (by simp [Value.kindName]) fun _ => rfl
  | value => exact .ok (a := .value v) fun _ => rfl
  | option inner ih =>
      have hinner := (ih hshape hmember).map Datum.some
      cases v with
      | null => exact .ok fun _ => rfl
      | _ => exact hinner
  | box inner ih => exact ih hshape hmember
  | list inner ih =>
      cases v with
      | array items =>
          have hitems : PointsAt own (.array items) fun path =>
              decodeItems (types.decode inner) path 0 items := by
            refine pointsAt_decodeItems (by simp) fun u hu => ?_
            have hdepth : u.depth < (Value.array items).depth := Value.depth_lt_array hu
            exact ih hshape fun entries hentries => hmember entries (by omega)
          exact (hitems.map Datum.list).congr fun path => types.decode_list inner items path
      | _ => exact .mismatch (by simp [Value.kindName]) fun _ => rfl
  | map kind inner ih =>
      cases v with
      | object all =>
          have hall : PointsAt own (.object all) fun path =>
              decodeEntries (types.decode inner) path all := by
            refine pointsAt_decodeEntries (fun _ he => he) fun e he => ?_
            have hdepth : e.2.depth < (Value.object all).depth := Value.depth_lt_object he
            exact ih hshape fun entries hentries => hmember entries (by omega)
          exact (hall.map Datum.map).congr fun path => types.decode_map kind inner all path
      | _ => exact .mismatch (by simp [Value.kindName]) fun _ => rfl
  | phantom => exact .ok fun _ => rfl
  | named name =>
      obtain ⟨schema, hfind⟩ := Option.isSome_iff_exists.mp hshape
      exact pointsAt_decode_named hfind hmember

/-- A member reads an entry, which is less deep than the object it stands in. -/
theorem pointsAt_member_decode (hclosed : types.Closed)
    (hhelpers : ∀ m, types.HasMember m → ∀ helper, m.helper = some helper →
      ∀ v, PointsAt own v fun path => helper.decode ⟨v, path⟩)
    (entries : List (String × Value)) {m : Member} (hm : types.HasMember m) :
    PointsAt own (.object entries) fun path => m.decode types.decode ⟨entries, path⟩ := by
  generalize hbound : (Value.object entries).depth = bound
  induction bound using Nat.strongRecOn generalizing entries m with
  | _ bound hlower =>
    refine Member.pointsAt_decode fun e he => ?_
    unfold Member.reading
    cases hhelper : m.helper with
    | some helper => exact hhelpers m hm helper hhelper e.2
    | none =>
        have hdepth : e.2.depth < (Value.object entries).depth := Value.depth_lt_object he
        refine pointsAt_decode_of_members (hclosed m hm hhelper) fun inner hinner m' hm' => ?_
        exact hlower (Value.object inner).depth (by omega) inner hm' rfl

/-- Where a tree stands does not change what it is decoded to, and an error points at the culprit:
its path goes on from there to a subtree that its cause describes. -/
theorem decode_error_points_at_culprit (hclosed : types.Closed)
    (hhelpers : ∀ m, types.HasMember m → ∀ helper, m.helper = some helper →
      ∀ v, PointsAt own v fun path => helper.decode ⟨v, path⟩)
    {shape : Shape} (hshape : shape.Resolves types) (v : Value) (path : CodingPath) :
    (∀ x, types.fromValue shape v = .ok x → types.decode shape ⟨v, path⟩ = .ok x) ∧
    ∀ e, types.fromValue shape v = .error e →
      types.decode shape ⟨v, path⟩ =
        .error ⟨⟨path.segments ++ e.path.segments⟩, e.cause⟩ ∧
      ∃ u, v.Reaches e.path.segments u ∧ e.cause.Describes own u := by
  have hpoints : PointsAt own v fun path => types.decode shape ⟨v, path⟩ :=
    pointsAt_decode_of_members hshape fun entries _ m hm =>
      pointsAt_member_decode hclosed hhelpers entries hm
  rcases hpoints with ⟨x, hx⟩ | ⟨segments, cause, u, herror, hreach, hcause⟩
  · have hroot : types.fromValue shape v = .ok x := hx .root
    rw [hroot]
    refine ⟨fun y hy => ?_, fun e he => ?_⟩
    · cases hy
      exact hx path
    · cases he
  · have hroot : types.fromValue shape v = .error ⟨⟨segments⟩, cause⟩ := herror .root
    rw [hroot]
    refine ⟨fun y hy => ?_, fun e he => ?_⟩
    · cases hy
    · cases he
      exact ⟨herror path, u, hreach, hcause⟩

end Registry

namespace Journal

/-- What the helper for labels says about the tree at fault. -/
def LabelText (text : String) (u : Value) : Prop :=
  text = "missing bang" ∧ ∃ s, u = .string s ∧ Helper.behindBang s.toList = none

theorem closed : types.Closed := by
  intro m hm _
  rcases member_cases hm with rfl | rfl | rfl | rfl | rfl
  case inr.inr.inr.inr => exact Option.isSome_of_eq_some find?_entry
  all_goals exact trivial

theorem pointsAt_bang (v : Value) :
    PointsAt LabelText v fun path => Helper.bang.decode ⟨v, path⟩ := by
  cases v with
  | null => exact .ok fun _ => rfl
  | string s =>
      cases hbehind : Helper.behindBang s.toList with
      | some rest =>
          refine .ok (a := .some (.string rest)) fun path => ?_
          simp only [Helper.bang, decodeString, hbehind, bind, Except.bind]
      | none =>
          refine .error (.helper ⟨rfl, s, rfl, hbehind⟩) fun path => ?_
          simp only [Helper.bang, decodeString, hbehind, bind, Except.bind]
  | _ => exact .mismatch (by simp [Value.kindName]) fun _ => rfl

/-- A note whose next note has a number in place of a label. -/
def mislabelled : Value :=
  .object [("Note", .object [("label", .null), ("next", .object
    [("Note", .object [("label", .int 5)])])])]

/-- The way to the number. -/
def mislabelledError : CodingError :=
  ⟨⟨["Note", "next", "Note", "label"]⟩, .typeMismatch "string" "integer"⟩

theorem mislabelled_points_at_culprit :
    types.fromValue (.named "Entry") mislabelled = .error mislabelledError ∧
    types.decode (.named "Entry") ⟨mislabelled, ⟨["page", "0"]⟩⟩ =
      .error ⟨⟨["page", "0", "Note", "next", "Note", "label"]⟩,
        .typeMismatch "string" "integer"⟩ ∧
    ∃ u, mislabelled.Reaches ["Note", "next", "Note", "label"] u ∧
      (CodingCause.typeMismatch "string" "integer").Describes LabelText u := by
  have hroot : types.fromValue (.named "Entry") mislabelled = .error mislabelledError := rfl
  have hhelpers : ∀ m, types.HasMember m → ∀ helper, m.helper = some helper →
      ∀ v, PointsAt LabelText v fun path => helper.decode ⟨v, path⟩ := by
    intro m hm helper hhelper v
    obtain ⟨-, rfl⟩ := eq_label hm hhelper
    exact pointsAt_bang v
  have hentry : (Shape.named "Entry").Resolves types := Option.isSome_of_eq_some find?_entry
  exact ⟨hroot, (Registry.decode_error_points_at_culprit closed hhelpers hentry mislabelled
    ⟨["page", "0"]⟩).2 _ hroot⟩

end Journal

end KeyedCoding
