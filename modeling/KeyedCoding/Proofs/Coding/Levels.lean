import KeyedCoding.Coding.Codec

/-!
# Levels of declared types

`Registry.decodeNamed` and `Registry.encodeNamed` count down a bound, one step for each level of
declared types.  Every declared type reads an object and writes a record or a variant, so what lies
one level further down is less deep than what is at hand, and a bound above the depth never runs
out.  Hence the bound can be forgotten: `Registry.decode` and `Registry.encode` satisfy the
equations of a recursion on the shape that looks a declared type up and goes on with its schema.
-/

namespace KeyedCoding

/-! ## What is inside is less deep -/

namespace Value

theorem depth_le_depthItems {v : Value} {items : List Value} (h : v ∈ items) :
    v.depth ≤ depthItems items := by
  induction items with
  | nil => cases h
  | cons head rest ih =>
      simp only [depthItems]
      rcases List.mem_cons.mp h with rfl | hrest
      · exact Nat.le_max_left _ _
      · exact Nat.le_trans (ih hrest) (Nat.le_max_right _ _)

theorem depth_le_depthEntries {key : String} {v : Value} {entries : List (String × Value)}
    (h : (key, v) ∈ entries) : v.depth ≤ depthEntries entries := by
  induction entries with
  | nil => cases h
  | cons head rest ih =>
      obtain ⟨k, w⟩ := head
      simp only [depthEntries]
      rcases List.mem_cons.mp h with heq | hrest
      · cases heq
        exact Nat.le_max_left _ _
      · exact Nat.le_trans (ih hrest) (Nat.le_max_right _ _)

theorem depth_lt_array {v : Value} {items : List Value} (h : v ∈ items) :
    v.depth < (array items).depth := by
  have hle := depth_le_depthItems h
  simp only [depth]
  omega

theorem depth_lt_object {key : String} {v : Value} {entries : List (String × Value)}
    (h : (key, v) ∈ entries) : v.depth < (object entries).depth := by
  have hle := depth_le_depthEntries h
  simp only [depth]
  omega

end Value

namespace Datum

theorem depth_le_depthItems {x : Datum} {items : List Datum} (h : x ∈ items) :
    x.depth ≤ depthItems items := by
  induction items with
  | nil => cases h
  | cons head rest ih =>
      simp only [depthItems]
      rcases List.mem_cons.mp h with rfl | hrest
      · exact Nat.le_max_left _ _
      · exact Nat.le_trans (ih hrest) (Nat.le_max_right _ _)

theorem depth_le_depthEntries {key : String} {x : Datum} {entries : List (String × Datum)}
    (h : (key, x) ∈ entries) : x.depth ≤ depthEntries entries := by
  induction entries with
  | nil => cases h
  | cons head rest ih =>
      obtain ⟨k, w⟩ := head
      simp only [depthEntries]
      rcases List.mem_cons.mp h with heq | hrest
      · cases heq
        exact Nat.le_max_left _ _
      · exact Nat.le_trans (ih hrest) (Nat.le_max_right _ _)

end Datum

/-! ## Decoders that agree below a depth -/

theorem decodeItems_congr {body body' : Decoding Datum} {items : List Value}
    (h : ∀ v ∈ items, ∀ path, body ⟨v, path⟩ = body' ⟨v, path⟩) (path : CodingPath)
    (index : Nat) : decodeItems body path index items = decodeItems body' path index items := by
  induction items generalizing index with
  | nil => rfl
  | cons v rest ih =>
      have hrest := ih (fun w hw => h w (List.mem_cons_of_mem _ hw)) (index + 1)
      simp only [decodeItems, h v List.mem_cons_self, hrest]

theorem decodeEntries_congr {body body' : Decoding Datum} {entries : List (String × Value)}
    (h : ∀ e ∈ entries, ∀ path, body ⟨e.2, path⟩ = body' ⟨e.2, path⟩) (path : CodingPath) :
    decodeEntries body path entries = decodeEntries body' path entries := by
  induction entries with
  | nil => rfl
  | cons e rest ih =>
      obtain ⟨key, v⟩ := e
      have hrest := ih (fun w hw => h w (List.mem_cons_of_mem _ hw))
      simp only [decodeEntries, h (key, v) List.mem_cons_self, hrest]

theorem Shape.decodeWith_congr {named named' : String → Decoding Datum} (shape : Shape)
    (d : Decoder)
    (h : ∀ name d', d'.value.depth ≤ d.value.depth → named name d' = named' name d') :
    shape.decodeWith named d = shape.decodeWith named' d := by
  induction shape generalizing d with
  | option inner ih =>
      simp only [Shape.decodeWith]
      rw [ih d h]
  | box inner ih =>
      simp only [Shape.decodeWith]
      exact ih d h
  | list inner ih =>
      obtain ⟨value, path⟩ := d
      cases value with
      | array items =>
          simp only [Shape.decodeWith]
          rw [decodeItems_congr (fun v hv p => ih ⟨v, p⟩ fun name d' hd' =>
            h name d' (Nat.le_trans hd' (Nat.le_of_lt (Value.depth_lt_array hv))))]
      | _ => rfl
  | map kind inner ih =>
      obtain ⟨value, path⟩ := d
      cases value with
      | object entries =>
          simp only [Shape.decodeWith]
          rw [decodeEntries_congr (fun e he p => ih ⟨e.2, p⟩ fun name d' hd' =>
            h name d' (Nat.le_trans hd' (Nat.le_of_lt (Value.depth_lt_object he))))]
      | _ => rfl
  | named name => exact h name d (Nat.le_refl _)
  | _ => rfl

theorem Member.decode_congr {body body' : Shape → Decoding Datum} {c : KeyedDecoder}
    (h : ∀ shape key v path, (key, v) ∈ c.entries → body shape ⟨v, path⟩ = body' shape ⟨v, path⟩)
    (m : Member) : m.decode body c = m.decode body' c := by
  have hpresent : ∀ v, Entries.get? c.entries m.key = some v →
      body m.shape ⟨v, c.path.child m.key⟩ = body' m.shape ⟨v, c.path.child m.key⟩ :=
    fun v hv => h m.shape m.key v _ (Entries.mem_of_get? hv)
  have hdecode : c.decode (body m.shape) m.shape.missing m.key =
      c.decode (body' m.shape) m.shape.missing m.key := by
    simp only [KeyedDecoder.decode]
    cases hget : Entries.get? c.entries m.key with
    | none => rfl
    | some v => exact hpresent v hget
  have hoptional : c.decodeIfPresent (body m.shape) m.key =
      c.decodeIfPresent (body' m.shape) m.key := by
    simp only [KeyedDecoder.decodeIfPresent]
    cases hget : Entries.get? c.entries m.key with
    | none => rfl
    | some v =>
        cases v with
        | null => rfl
        | _ => simp only [hpresent _ hget]
  simp only [Member.decode, hdecode, hoptional]

theorem decodeMembers_congr {body body' : Shape → Decoding Datum} {c : KeyedDecoder}
    (h : ∀ shape key v path, (key, v) ∈ c.entries → body shape ⟨v, path⟩ = body' shape ⟨v, path⟩)
    (members : List Member) : decodeMembers body c members = decodeMembers body' c members := by
  induction members with
  | nil => rfl
  | cons m rest ih => simp only [decodeMembers, Member.decode_congr h m, ih]

/-- A schema decodes only what lies further down, so bodies that agree there decode alike. -/
theorem Schema.decode_congr {body body' : Shape → Decoding Datum} (schema : Schema) (d : Decoder)
    (h : ∀ shape d', d'.value.depth < d.value.depth → body shape d' = body' shape d') :
    schema.decode body d = schema.decode body' d := by
  obtain ⟨value, path⟩ := d
  cases value with
  | object entries =>
      cases schema with
      | struct title members =>
          have hmembers := decodeMembers_congr (c := ⟨entries, path⟩)
            (fun shape key v p hv => h shape ⟨v, p⟩ (Value.depth_lt_object hv)) members
          simp only [Schema.decode, Decoder.container, bind, Except.bind, hmembers]
      | enum title cases =>
          simp only [Schema.decode, Decoder.container, KeyedDecoder.singleKey]
          match entries with
          | [] => rfl
          | _ :: _ :: _ => rfl
          | [(key, payload)] =>
              simp only [bind, Except.bind]
              cases hcase : cases.find? (fun case => case.key == key) with
              | none => rfl
              | some case =>
                  simp only [KeyedDecoder.nested]
                  cases hget : Entries.get? [(key, payload)] case.key with
                  | none => rfl
                  | some v =>
                      have hv := Value.depth_lt_object (Entries.mem_of_get? hget)
                      cases v with
                      | object inner =>
                          have hmembers := decodeMembers_congr
                            (c := ⟨inner, path.child case.key⟩)
                            (fun shape key w p hw => h shape ⟨w, p⟩
                              (Nat.lt_trans (Value.depth_lt_object hw) hv)) case.members
                          simp only [hmembers]
                      | _ => rfl
  | _ => cases schema <;> rfl

namespace Registry

/-- Bounds above the depth of the value at hand decode alike. -/
theorem decodeNamed_eq (types : Registry) {a b : Nat} (name : String) (d : Decoder)
    (ha : d.value.depth < a) (hb : d.value.depth < b) :
    types.decodeNamed a name d = types.decodeNamed b name d := by
  induction a generalizing b name d with
  | zero => omega
  | succ a ih =>
      cases b with
      | zero => omega
      | succ b =>
          simp only [decodeNamed]
          cases types.find? name with
          | none => rfl
          | some schema =>
              refine Schema.decode_congr schema d fun shape d' hd' => ?_
              refine Shape.decodeWith_congr shape d' fun other d'' hd'' => ?_
              exact ih other d'' (by omega) (by omega)

/-- A bound above the depth decodes a shape as `Registry.decode` does. -/
theorem decodeWith_decodeNamed (types : Registry) {bound : Nat} (shape : Shape) (d : Decoder)
    (h : d.value.depth < bound) :
    shape.decodeWith (types.decodeNamed bound) d = types.decode shape d :=
  Shape.decodeWith_congr shape d fun name d' hd' =>
    types.decodeNamed_eq name d' (by omega) (by omega)

end Registry

/-! ## Encoders that agree below a depth -/

theorem encodeItems_congr {body body' : Datum → Encoding Unit} {items : List Datum}
    (h : ∀ x ∈ items, body x = body' x) : encodeItems body items = encodeItems body' items := by
  induction items with
  | nil => rfl
  | cons x rest ih =>
      have hrest := ih fun y hy => h y (List.mem_cons_of_mem _ hy)
      simp only [encodeItems, h x List.mem_cons_self, hrest]

theorem encodeEntries_congr {body body' : Datum → Encoding Unit} {entries : List (String × Datum)}
    (h : ∀ e ∈ entries, body e.2 = body' e.2) :
    encodeEntries body entries = encodeEntries body' entries := by
  induction entries with
  | nil => rfl
  | cons e rest ih =>
      obtain ⟨key, x⟩ := e
      have hrest := ih fun y hy => h y (List.mem_cons_of_mem _ hy)
      simp only [encodeEntries, h (key, x) List.mem_cons_self, hrest]

theorem Shape.encodeWith_congr {named named' : String → Datum → Encoding Unit} (shape : Shape)
    (x : Datum) (h : ∀ name y, y.depth ≤ x.depth → named name y = named' name y) :
    shape.encodeWith named x = shape.encodeWith named' x := by
  induction shape generalizing x with
  | option inner ih =>
      cases x with
      | some y => exact ih y h
      | _ => rfl
  | box inner ih =>
      simp only [Shape.encodeWith]
      exact ih x h
  | list inner ih =>
      cases x with
      | list items =>
          simp only [Shape.encodeWith]
          rw [encodeItems_congr fun y hy => ih y fun name z hz =>
            h name z (Nat.le_trans hz (Datum.depth_le_depthItems hy))]
      | _ => rfl
  | map kind inner ih =>
      cases x with
      | map entries =>
          simp only [Shape.encodeWith]
          rw [encodeEntries_congr fun e he => ih e.2 fun name z hz =>
            h name z (Nat.le_trans hz (Datum.depth_le_depthEntries he))]
      | _ => rfl
  | named name =>
      simp only [Shape.encodeWith]
      exact h name x (Nat.le_refl _)
  | _ => cases x <;> rfl

theorem encodeMembers_congr {body body' : Shape → Datum → Encoding Unit} (members : List Member)
    {fields : List Datum} (h : ∀ shape, ∀ x ∈ fields, body shape x = body' shape x) :
    encodeMembers body members fields = encodeMembers body' members fields := by
  induction members generalizing fields with
  | nil => rfl
  | cons m rest ih =>
      cases fields with
      | nil => rfl
      | cons x xs =>
          have hrest := ih fun shape y hy => h shape y (List.mem_cons_of_mem _ hy)
          simp only [encodeMembers, Member.encode, h m.shape x List.mem_cons_self, hrest]

/-- A schema encodes only what lies further down, so bodies that agree there encode alike. -/
theorem Schema.encode_congr {body body' : Shape → Datum → Encoding Unit} (schema : Schema)
    (x : Datum) (h : ∀ shape y, y.depth < x.depth → body shape y = body' shape y) :
    schema.encode body x = schema.encode body' x := by
  cases schema with
  | struct title members =>
      cases x with
      | record fields =>
          have hfields : ∀ shape, ∀ y ∈ fields, body shape y = body' shape y := by
            intro shape y hy
            have hle := Datum.depth_le_depthItems hy
            exact h shape y (by simp only [Datum.depth]; omega)
          simp only [Schema.encode, encodeMembers_congr members hfields]
      | _ => rfl
  | enum title cases =>
      cases x with
      | variant name fields =>
          have hfields : ∀ shape, ∀ y ∈ fields, body shape y = body' shape y := by
            intro shape y hy
            have hle := Datum.depth_le_depthItems hy
            exact h shape y (by simp only [Datum.depth]; omega)
          simp only [Schema.encode, encodeMembers_congr _ hfields]
      | _ => rfl

namespace Registry

/-- Bounds above the depth of the datum at hand encode alike. -/
theorem encodeNamed_eq (types : Registry) {a b : Nat} (name : String) (x : Datum)
    (ha : x.depth < a) (hb : x.depth < b) :
    types.encodeNamed a name x = types.encodeNamed b name x := by
  induction a generalizing b name x with
  | zero => omega
  | succ a ih =>
      cases b with
      | zero => omega
      | succ b =>
          simp only [encodeNamed]
          cases types.find? name with
          | none => rfl
          | some schema =>
              refine Schema.encode_congr schema x fun shape y hy => ?_
              refine Shape.encodeWith_congr shape y fun other z hz => ?_
              exact ih other z (by omega) (by omega)

/-- A bound above the depth encodes a shape as `Registry.encode` does. -/
theorem encodeWith_encodeNamed (types : Registry) {bound : Nat} (shape : Shape) (x : Datum)
    (h : x.depth < bound) :
    shape.encodeWith (types.encodeNamed bound) x = types.encode shape x :=
  Shape.encodeWith_congr shape x fun name y hy =>
    types.encodeNamed_eq name y (by omega) (by omega)

/-! ## The equations without a bound -/

variable (types : Registry)

@[simp] theorem decode_option (inner : Shape) (d : Decoder) :
    types.decode (.option inner) d =
      match d.value with
      | .null => .ok .none
      | _ => (types.decode inner d).map .some := rfl

@[simp] theorem decode_box (inner : Shape) (d : Decoder) :
    types.decode (.box inner) d = types.decode inner d := rfl

theorem decode_list (inner : Shape) (items : List Value) (path : CodingPath) :
    types.decode (.list inner) ⟨.array items, path⟩ =
      (decodeItems (types.decode inner) path 0 items).map .list := by
  simp only [decode, Shape.decodeWith]
  rw [decodeItems_congr fun v hv p => types.decodeWith_decodeNamed inner ⟨v, p⟩
    (Nat.lt_succ_of_lt (Value.depth_lt_array hv))]

theorem decode_map (kind : MapKind) (inner : Shape) (entries : List (String × Value))
    (path : CodingPath) :
    types.decode (.map kind inner) ⟨.object entries, path⟩ =
      (decodeEntries (types.decode inner) path entries).map .map := by
  simp only [decode, Shape.decodeWith]
  rw [decodeEntries_congr fun e he p => types.decodeWith_decodeNamed inner ⟨e.2, p⟩
    (Nat.lt_succ_of_lt (Value.depth_lt_object he))]

theorem decode_named {name : String} {schema : Schema} (h : types.find? name = some schema)
    (d : Decoder) : types.decode (.named name) d = schema.decode types.decode d := by
  simp only [decode, Shape.decodeWith, decodeNamed, h]
  exact Schema.decode_congr schema d fun shape d' hd' =>
    types.decodeWith_decodeNamed shape d' hd'

@[simp] theorem encode_box (inner : Shape) (x : Datum) :
    types.encode (.box inner) x = types.encode inner x := by
  simp only [encode, Shape.encodeWith]

theorem encode_list (inner : Shape) (items : List Datum) :
    types.encode (.list inner) (.list items) =
      match encodeItems (types.encode inner) items with
      | .ok values => Encoding.value (.array values)
      | .error e => throw e := by
  have hitems : encodeItems (inner.encodeWith
      (types.encodeNamed ((Datum.list items).depth + 1))) items =
        encodeItems (types.encode inner) items :=
    encodeItems_congr fun x hx => types.encodeWith_encodeNamed inner x
      (Nat.lt_succ_of_le (Datum.depth_le_depthItems hx))
  rw [← hitems]
  rfl

theorem encode_map (kind : MapKind) (inner : Shape) (entries : List (String × Datum)) :
    types.encode (.map kind inner) (.map entries) =
      match encodeEntries (types.encode inner) entries with
      | .ok values => Encoding.value (Value.ofPairs values)
      | .error e => throw e := by
  have hentries : encodeEntries (inner.encodeWith
      (types.encodeNamed ((Datum.map entries).depth + 1))) entries =
        encodeEntries (types.encode inner) entries :=
    encodeEntries_congr fun e he => types.encodeWith_encodeNamed inner e.2
      (Nat.lt_succ_of_le (Datum.depth_le_depthEntries he))
  rw [← hentries]
  rfl

theorem encode_named {name : String} {schema : Schema} (h : types.find? name = some schema)
    (x : Datum) : types.encode (.named name) x = schema.encode types.encode x := by
  simp only [encode, Shape.encodeWith, encodeNamed, h]
  exact Schema.encode_congr schema x fun shape y hy => types.encodeWith_encodeNamed shape y hy

end Registry

end KeyedCoding
