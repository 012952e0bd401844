import KeyedCoding.Proofs.Coding.Places
import KeyedCoding.Proofs.Derivation.WellFormed

/-!
# Enums are coded as tagged structs

Beside every variant of an enum one can declare a struct with the fields of the variant and the
attributes of the enum.  The struct is accepted if the enum is, and an enum is coded by way of these
structs: encoding a variant is encoding its struct one key further down, and decoding reads the only
key of an object and goes on with the struct of the variant that has this key.
-/

namespace KeyedCoding

open Attribute Diagnostic

/-! ## The struct of a variant -/

namespace Declaration

/-- The texts of the variants on the wire, in order. -/
def variantKeys (d : Declaration) : List String :=
  d.variants.map (DeclaredVariant.wireKey d.strategy)

/-- A struct with the fields of a variant and the attributes of its enum; so it has the key strategy
of the enum too. -/
structure PayloadOf (p d : Declaration) (v : DeclaredVariant) : Prop where
  kind : p.kind = .struct
  attributes : p.attributes = d.attributes
  style : p.style = v.style
  members : p.members = v.members
  variants : p.variants = []

variable {d p : Declaration} {v : DeclaredVariant}

theorem PayloadOf.strategy_eq (h : p.PayloadOf d v) : p.strategy = d.strategy := by
  rw [strategy, strategy, h.attributes]

theorem PayloadOf.conforms_eq (h : p.PayloadOf d v) (direction : Direction) :
    p.conforms direction = d.conforms direction := by
  rw [conforms, conforms, h.attributes]

/-- What may stand on an enum may stand on a struct. -/
theorem sound_struct_of_enum {attributes : List Attribute} {name name' : String}
    (h : (⟨.enum, name, attributes⟩ : Target).Sound) :
    (⟨.struct, name', attributes⟩ : Target).Sound where
  placed := by
    intro a ha k hk
    have hsuits : k.Suits .enum := h.placed a ha k hk
    cases k <;> simp_all [Known.Suits]
  once := h.once
  exclusive := h.exclusive
  paired := h.paired
  understood := h.understood

theorem PayloadOf.sound (h : p.PayloadOf d v) (henum : d.kind = .enum) (hv : v ∈ d.variants)
    (hsound : d.Sound) : p.Sound := by
  have hown : (⟨d.kind, d.typeName, d.attributes⟩ : Target).Sound := hsound _ (by simp [targets])
  rw [henum] at hown
  intro t ht
  simp only [targets, h.kind, h.attributes, h.members, h.variants, List.flatMap_nil,
    List.append_nil, List.mem_cons] at ht
  rcases ht with rfl | ht
  · exact sound_struct_of_enum hown
  · exact hsound.variant hv t (List.mem_cons_of_mem _ ht)

/-- The struct of a variant of an accepted enum is accepted. -/
theorem PayloadOf.accepted (h : p.PayloadOf d v) (henum : d.kind = .enum)
    (hident : d.ident.isSome = true) (hv : v ∈ d.variants)
    (haccepted : d.expand.outcome = .accepted) : p.expand.outcome = .accepted := by
  obtain ⟨hsound, hdistinct⟩ := accepted_iff.mp haccepted
  refine accepted_iff.mpr ⟨h.sound henum hv hsound, fun hasks scope hscope => ?_⟩
  have hasks : d.AsksForProtocol := by
    rw [AsksForProtocol, h.attributes] at hasks
    exact hasks
  refine hdistinct hasks scope ?_
  obtain ⟨ident, hident⟩ := Option.isSome_iff_exists.mp hident
  -- the only scope of the struct is that of its variant
  obtain rfl : scope = StoredMember.wireKeys d.strategy v.members := by
    unfold keyScopes at hscope
    rw [h.kind, h.strategy_eq, h.members] at hscope
    split at hscope <;> simp_all
  simp only [keyScopes, hident, henum]
  exact List.mem_cons_of_mem _ (List.mem_map_of_mem hv)

end Declaration

/-! ## What fields stand for -/

/-- The fields of a struct and of a variant are written alike, so they mean the same in
surroundings where their types do. -/
structure Surroundings.AgreesOn (s s' : Surroundings) (members : List StoredMember) : Prop where
  shapes : ∀ m ∈ members, s.shape? m.type = s'.shape? m.type
  helpers : s.helper? = s'.helper?
  constants : s.constant? = s'.constant?
  defaults : s.default? = s'.default?

/-- A stored member stands for a member of a schema, under some name of its key. -/
def StoredMember.Means (m : StoredMember) (strategy : KeyStrategy) (s : Surroundings)
    (x : Member) : Prop :=
  ∃ keyVariant c, CodedMember.ofStored m keyVariant strategy = .ok c ∧ c.schema? s = some x

/-- A variant stands for a case of a schema. -/
structure DeclaredVariant.Means (v : DeclaredVariant) (strategy : KeyStrategy) (s : Surroundings)
    (case : Case) : Prop where
  ident : case.ident = v.ident
  key : case.key = v.wireKey strategy
  members : List.Forall₂ (fun m x => m.Means strategy s x) v.members case.members

/-- A coded member means the same in surroundings that agree on it. -/
theorem CodedMember.schema?_of_agreesOn {s s' : Surroundings} {members : List StoredMember}
    (h : s.AgreesOn s' members) {c : CodedMember} (hc : c.stored ∈ members) :
    c.schema? s = c.schema? s' := by
  simp only [schema?, helper?, source?, preset?, fallback?, h.shapes c.stored hc, h.helpers,
    h.constants, h.defaults]

/-- The name of a key is not part of what a member stands for. -/
theorem StoredMember.Means.eq {m : StoredMember} {strategy : KeyStrategy} {s s' : Surroundings}
    {members : List StoredMember} (hagrees : s.AgreesOn s' members) (hm : m ∈ members)
    {x y : Member} (hx : m.Means strategy s x) (hy : m.Means strategy s' y) : x = y := by
  obtain ⟨keyVariant, c, hc, hx⟩ := hx
  obtain ⟨keyVariant', c', hc', hy⟩ := hy
  obtain ⟨o, ho, hc⟩ := bind_eq_ok_iff.mp hc
  obtain ⟨o', ho', hc'⟩ := bind_eq_ok_iff.mp hc'
  -- both read the same attributes, so they differ in the name of the key alone
  rw [ho, Except.ok.injEq] at ho'
  subst ho'
  cases hc
  cases hc'
  rw [CodedMember.schema?_of_agreesOn hagrees hm] at hx
  exact Option.some.inj (hx.symm.trans hy)

/-- Fields that are written alike stand for the same members. -/
theorem members_eq_of_means {strategy : KeyStrategy} {s s' : Surroundings}
    {members all : List StoredMember} (hagrees : s.AgreesOn s' all) (hall : ∀ m ∈ members, m ∈ all)
    {xs ys : List Member} (hxs : List.Forall₂ (fun m x => m.Means strategy s x) members xs)
    (hys : List.Forall₂ (fun m x => m.Means strategy s' x) members ys) : xs = ys := by
  induction hxs generalizing ys with
  | nil =>
      cases hys
      rfl
  | @cons m x members xs hx _ ih =>
      cases hys with
      | cons hy hys =>
          rw [List.forall_mem_cons] at hall
          rw [hx.eq hagrees hall.1 hy, ih hall.2 hys]

/-- A variant stands for what its coded case stands for. -/
theorem DeclaredVariant.means_of_ofVariant {v : DeclaredVariant} {strategy : KeyStrategy}
    {s : Surroundings} {c : CodedCase} {x : Case} (hc : CodedCase.ofVariant v strategy = .ok c)
    (hx : c.schema? s = some x) : v.Means strategy s x := by
  obtain ⟨hident, hkey, hmembers⟩ := CodedCase.schema?_eq_some hx
  have hwire := (CodedCase.wireKey_of_ofVariant hc).1
  obtain ⟨_, _, hc⟩ := bind_eq_ok_iff.mp hc
  obtain ⟨made, hmade, hc⟩ := bind_eq_ok_iff.mp hc
  cases hc
  refine ⟨hident, hkey.trans hwire, ?_⟩
  refine (forall₂_comp (mapM_eq_ok_iff.mp hmade) hmembers).imp fun m y hy => ?_
  obtain ⟨c, hc, hy⟩ := hy
  exact ⟨_, c, hc, hy⟩

/-! ## Declared names -/

namespace Registry

/-- A name stands for the type of a declaration. -/
def Declares (types : Registry) (name : String) (d : Declaration) (s : Surroundings) : Prop :=
  ∃ t schema, d.codedType? = some t ∧ t.schema? s = some schema ∧ types.find? name = some schema

variable {types : Registry} {name : String} {d : Declaration} {s : Surroundings}

/-- The name of a struct stands for members that its fields stand for. -/
theorem Declares.exists_struct (h : types.Declares name d s) (hkind : d.kind = .struct) :
    ∃ title members, types.find? name = some (.struct title members) ∧
      List.Forall₂ (fun m x => m.Means d.strategy s x) d.members members := by
  obtain ⟨t, schema, hcoded, hmeant, hfind⟩ := h
  have ht := Declaration.ofDeclaration_of_codedType? hcoded
  unfold CodedType.schema? at hmeant
  cases hbody : t.body with
  | enum cases => exact absurd (CodedType.kind_of_enum ht hbody) (by simp [hkind])
  | struct style members =>
      simp only [hbody, Option.bind_eq_bind, Option.bind_eq_some_iff, Option.some.injEq] at hmeant
      obtain ⟨xs, hxs, rfl⟩ := hmeant
      have hmade := CodedType.forall₂_of_struct ht hbody
      refine ⟨t.ident, xs, hfind, ?_⟩
      refine (forall₂_comp hmade (forall₂_of_mapM_some hxs)).imp fun m x hx => ?_
      obtain ⟨c, hc, hx⟩ := hx
      exact ⟨m.ident, c, hc, hx⟩

/-- The name of an enum stands for cases that its variants stand for. -/
theorem Declares.exists_enum (h : types.Declares name d s) (hkind : d.kind = .enum) :
    ∃ title cases, types.find? name = some (.enum title cases) ∧
      List.Forall₂ (fun v x => v.Means d.strategy s x) d.variants cases := by
  obtain ⟨t, schema, hcoded, hmeant, hfind⟩ := h
  have ht := Declaration.ofDeclaration_of_codedType? hcoded
  unfold CodedType.schema? at hmeant
  cases hbody : t.body with
  | struct style members => exact absurd (CodedType.kind_of_struct ht hbody) (by simp [hkind])
  | enum cases =>
      simp only [hbody, Option.bind_eq_bind, Option.bind_eq_some_iff, Option.some.injEq] at hmeant
      obtain ⟨xs, hxs, rfl⟩ := hmeant
      have hmade := CodedType.forall₂_of_enum ht hbody
      refine ⟨t.ident, xs, hfind, ?_⟩
      refine (forall₂_comp hmade (forall₂_of_mapM_some hxs)).imp fun v x hx => ?_
      obtain ⟨c, hc, hx⟩ := hx
      exact DeclaredVariant.means_of_ofVariant hc hx

/-- Every variant has a struct with its fields declared beside the enum. -/
def HasPayloads (types : Registry) (d : Declaration) (s : Surroundings)
    (struct : DeclaredVariant → String) : Prop :=
  ∀ v ∈ d.variants, ∃ p s', p.PayloadOf d v ∧ s.AgreesOn s' v.members ∧
    types.Declares (struct v) p s'

/-- The struct of a variant has the members of the case. -/
theorem HasPayloads.find?_struct {struct : DeclaredVariant → String}
    (h : types.HasPayloads d s struct) {v : DeclaredVariant} (hv : v ∈ d.variants) {case : Case}
    (hcase : v.Means d.strategy s case) :
    ∃ title, types.find? (struct v) = some (.struct title case.members) := by
  obtain ⟨p, s', hpayload, hagrees, hdeclares⟩ := h v hv
  obtain ⟨title, members, hfind, hmembers⟩ := hdeclares.exists_struct hpayload.kind
  rw [hpayload.strategy_eq, hpayload.members] at hmembers
  have heq : case.members = members :=
    members_eq_of_means hagrees (fun _ hm => hm) hcase.members hmembers
  exact ⟨title, heq ▸ hfind⟩

end Registry

namespace Declaration

variable {d : Declaration} {t : CodedType}

/-- The generated key enum names each key once. -/
def KeyNamesDiffer (d : Declaration) : Prop :=
  ∀ t, d.codedType? = some t → (t.keys.entries.map KeyEntry.variant).Nodup

theorem nodup_idents (hcoded : d.codedType? = some t) (henum : d.kind = .enum)
    (hnames : d.KeyNamesDiffer) : (d.variants.map DeclaredVariant.ident).Nodup := by
  have ht := ofDeclaration_of_codedType? hcoded
  cases hbody : t.body with
  | struct style members => exact absurd (CodedType.kind_of_struct ht hbody) (by simp [henum])
  | enum cases =>
      have hvariants : (cases.map CodedCase.key).map KeyEntry.variant =
          d.variants.map DeclaredVariant.ident := by
        rw [List.map_map]
        refine map_eq_map_of_forall₂ ((CodedType.forall₂_of_enum ht hbody).imp fun v c hc => ?_)
        obtain ⟨_, _, hc⟩ := bind_eq_ok_iff.mp hc
        obtain ⟨_, _, hc⟩ := bind_eq_ok_iff.mp hc
        cases hc
        rfl
      rw [← hvariants]
      exact ((CodedType.caseKeys_sublist hbody).map _).nodup (hnames t hcoded)

/-- The texts of every scope differ in an accepted declaration that asks for a protocol. -/
theorem nodup_keyScopes {direction : Direction} (hcoded : d.codedType? = some t)
    (haccepted : d.expand.outcome = .accepted) (hconforms : d.conforms direction = true) :
    ∀ scope ∈ d.keyScopes, scope.Nodup := by
  intro scope hscope
  rw [← CodedType.map_value_scopes (ofDeclaration_of_codedType? hcoded)] at hscope
  obtain ⟨entries, hentries, rfl⟩ := List.mem_map.mp hscope
  exact nodup_scopes haccepted hconforms hcoded entries hentries

theorem nodup_variantKeys {direction : Direction} (hcoded : d.codedType? = some t)
    (henum : d.kind = .enum) (haccepted : d.expand.outcome = .accepted)
    (hconforms : d.conforms direction = true) : d.variantKeys.Nodup := by
  have hident := CodedType.ident_of_ofDeclaration (ofDeclaration_of_codedType? hcoded)
  refine nodup_keyScopes hcoded haccepted hconforms _ ?_
  simp only [keyScopes, hident, henum]
  exact List.mem_cons_self

end Declaration

/-! ## Tagged coding -/

/-- The fields of a struct as those of a variant. -/
def Datum.tagged (ident : String) : Datum → Datum
  | .record fields => .variant ident fields
  | x => x

/-- A value is no object, an object with several entries or none, or an object with one. -/
theorem Value.tagged_cases (v : Value) :
    (∀ entries, v ≠ .object entries) ∨ (∃ entries, v = .object entries ∧ entries.length ≠ 1) ∨
      ∃ key payload, v = .object [(key, payload)] := by
  cases v with
  | object entries =>
      match entries with
      | [] => exact .inr (.inl ⟨[], rfl, by simp⟩)
      | [(key, payload)] => exact .inr (.inr ⟨key, payload, rfl⟩)
      | e :: f :: rest => exact .inr (.inl ⟨e :: f :: rest, rfl, by simp⟩)
  | _ => exact .inl (by simp)

namespace Schema

variable {title title' : String} {cases : List Case} {case : Case}

/-- An enum writes the struct of the variant one key further down. -/
theorem encode_enum_eq_nested {body : Shape → Datum → Encoding Unit}
    (h : cases.find? (fun other => other.ident == case.ident) = some case) (fields : List Datum) :
    (Schema.enum title cases).encode body (.variant case.ident fields) =
      Encoding.nested case.key
        ((Schema.struct title' case.members).encode body (.record fields)) := by
  funext e
  simp only [encode, h]
  rfl

/-- An enum reads the struct of the variant one key further down. -/
theorem decode_enum_eq_tagged {body : Shape → Decoding Datum}
    (h : cases.find? (fun other => other.key == case.key) = some case) (payload : Value)
    (path : CodingPath) :
    (Schema.enum title cases).decode body ⟨.object [(case.key, payload)], path⟩ =
      ((Schema.struct title' case.members).decode body ⟨payload, path.child case.key⟩).map
        (Datum.tagged case.ident) := by
  rw [decode_enum h, decode_struct]
  cases readMembers body case.members ⟨payload, path.child case.key⟩ <;> rfl

end Schema

namespace Encoding

/-- A nested write on a fresh encoder leaves one entry. -/
theorem Writes.nested {body : Encoding Unit} {path : CodingPath} {key : String} {v : Value}
    (h : body.Writes (path.child key) v) : (nested key body).Writes path (.object [(key, v)]) :=
  ⟨_, nested_holding h [], rfl⟩

theorem FailsOn.toValue_eq {body : Encoding Unit} {err : CodingError}
    (h : body.FailsOn (Encoder.fresh .root) err) : toValue body = .error err := by
  obtain ⟨e, he⟩ := h
  simp only [toValue, he]

/-- A body that is written the same everywhere fails at a key exactly if it fails at the root. -/
theorem Placeless.toValue_nested_fails_iff {body : Encoding Unit} (h : body.Placeless)
    (key : String) :
    (∃ e, toValue (Encoding.nested key body) = .error e) ↔ ∃ e, toValue body = .error e := by
  rcases h with ⟨v, hv⟩ | hfails
  · have hnested : (Encoding.nested key body).Writes .root (.object [(key, v)]) := (hv _).nested
    rw [toValue_eq_ok_iff.mpr hnested, toValue_eq_ok_iff.mpr (hv .root)]
    simp
  · -- the failure at the key is not the one at the root, but it is one
    have hnested : ∃ e, toValue (Encoding.nested key body) = .error e := by
      obtain ⟨err, e, he⟩ := hfails (CodingPath.root.child key)
      have hrun : Encoding.nested key body (Encoder.fresh .root) =
          .error err (Encoder.fresh .root).opened := by
        simp only [Encoding.nested, Encoder.opened, Encoder.fresh] at he ⊢
        rw [he]
      exact ⟨err, FailsOn.toValue_eq ⟨_, hrun⟩⟩
    obtain ⟨err, herr⟩ := hfails .root
    exact iff_of_true hnested ⟨err, herr.toValue_eq⟩

end Encoding

namespace Registry

/-- Encoding a variant is encoding its struct at the key of the variant. -/
structure EncodesTagged (types : Registry) (name : String) (d : Declaration)
    (struct : DeclaredVariant → String) : Prop where
  nested : ∀ v ∈ d.variants, ∀ fields, types.encode (.named name) (.variant v.ident fields) =
    Encoding.nested (v.wireKey d.strategy) (types.encode (.named (struct v)) (.record fields))
  /-- The tree has one entry, which holds the tree of the struct. -/
  tree : types.HelpersPlaceless → ∀ v ∈ d.variants, ∀ fields w,
    types.toValue (.named (struct v)) (.record fields) = .ok w →
    types.toValue (.named name) (.variant v.ident fields) =
      .ok (.object [(v.wireKey d.strategy, w)])
  fails : types.HelpersPlaceless → ∀ v ∈ d.variants, ∀ fields,
    ((∃ e, types.toValue (.named name) (.variant v.ident fields) = .error e) ↔
      ∃ e, types.toValue (.named (struct v)) (.record fields) = .error e)

/-- Decoding an enum is decoding the struct of the variant that the only key names. -/
structure DecodesTagged (types : Registry) (name : String) (d : Declaration)
    (struct : DeclaredVariant → String) : Prop where
  notObject : ∀ v path, (∀ entries, v ≠ .object entries) →
    types.decode (.named name) ⟨v, path⟩ = .error ⟨path, .typeMismatch "object" v.kindName⟩
  notSingle : ∀ entries path, entries.length ≠ 1 →
    types.decode (.named name) ⟨.object entries, path⟩ =
      .error ⟨path, .invalidEnumShape entries.length⟩
  unknown : ∀ key payload path, key ∉ d.variantKeys →
    types.decode (.named name) ⟨.object [(key, payload)], path⟩ =
      .error ⟨path, .unknownVariant key d.variantKeys⟩
  /-- Exactly one variant has the key, and its struct is decoded. -/
  variant : ∀ key payload path, key ∈ d.variantKeys →
    ∃ v ∈ d.variants, v.wireKey d.strategy = key ∧
      (∀ other ∈ d.variants, other.wireKey d.strategy = key → other = v) ∧
      types.decode (.named name) ⟨.object [(key, payload)], path⟩ =
        (types.decode (.named (struct v)) ⟨payload, path.child key⟩).map (Datum.tagged v.ident)
  /-- The key that names the variant is never looked for in vain. -/
  present : types.HelpersReportWithin → ∀ v path key,
    types.decode (.named name) ⟨v, path⟩ ≠ .error ⟨path, .keyNotFound key⟩
  /-- Without variants there is nothing to decode. -/
  uninhabited : d.variants = [] → ∀ v path, ∃ e, types.decode (.named name) ⟨v, path⟩ = .error e

section Coding

variable {types : Registry} {name title : String} {d : Declaration} {s : Surroundings}
  {struct : DeclaredVariant → String} {cases : List Case}

theorem encode_variant_eq_nested (hfind : types.find? name = some (.enum title cases))
    (hcases : List.Forall₂ (fun v case => v.Means d.strategy s case) d.variants cases)
    (hidents : (d.variants.map DeclaredVariant.ident).Nodup)
    (hpayloads : types.HasPayloads d s struct) {v : DeclaredVariant} (hv : v ∈ d.variants)
    (fields : List Datum) :
    types.encode (.named name) (.variant v.ident fields) =
      Encoding.nested (v.wireKey d.strategy)
        (types.encode (.named (struct v)) (.record fields)) := by
  obtain ⟨case, hcase, hmeans⟩ := exists_of_forall₂_left hcases hv
  obtain ⟨title', hstruct⟩ := hpayloads.find?_struct hv hmeans
  have hnames : (cases.map Case.ident).Nodup := by
    rw [map_eq_map_of_forall₂ (hcases.imp fun _ _ h => h.ident)]
    exact hidents
  rw [types.encode_named hfind, types.encode_named hstruct, ← hmeans.ident, ← hmeans.key]
  exact Schema.encode_enum_eq_nested (find?_key_of_nodup hnames hcase) fields

theorem encodesTagged (hfind : types.find? name = some (.enum title cases))
    (hcases : List.Forall₂ (fun v case => v.Means d.strategy s case) d.variants cases)
    (hidents : (d.variants.map DeclaredVariant.ident).Nodup)
    (hpayloads : types.HasPayloads d s struct) : types.EncodesTagged name d struct where
  nested := fun v hv fields => encode_variant_eq_nested hfind hcases hidents hpayloads hv fields
  tree := by
    intro hhelpers v hv fields w hw
    have hplaceless := types.placeless_encode hhelpers (.named (struct v)) (.record fields)
    have hroot := Encoding.toValue_eq_ok_iff.mp hw
    rw [toValue, encode_variant_eq_nested hfind hcases hidents hpayloads hv fields]
    exact Encoding.toValue_eq_ok_iff.mpr (hplaceless.writes hroot _).nested
  fails := by
    intro hhelpers v hv fields
    have hplaceless := types.placeless_encode hhelpers (.named (struct v)) (.record fields)
    rw [toValue, encode_variant_eq_nested hfind hcases hidents hpayloads hv fields]
    exact hplaceless.toValue_nested_fails_iff _

/-- The only key names a variant, whose struct is read from the entry. -/
theorem decode_variant_eq_tagged (hfind : types.find? name = some (.enum title cases))
    (hcases : List.Forall₂ (fun v case => v.Means d.strategy s case) d.variants cases)
    (hkeys : d.variantKeys.Nodup) (hpayloads : types.HasPayloads d s struct)
    {v : DeclaredVariant} (hv : v ∈ d.variants) (payload : Value) (path : CodingPath) :
    types.decode (.named name) ⟨.object [(v.wireKey d.strategy, payload)], path⟩ =
      (types.decode (.named (struct v)) ⟨payload, path.child (v.wireKey d.strategy)⟩).map
        (Datum.tagged v.ident) := by
  obtain ⟨case, hcase, hmeans⟩ := exists_of_forall₂_left hcases hv
  obtain ⟨title', hstruct⟩ := hpayloads.find?_struct hv hmeans
  have hnodup : (cases.map Case.key).Nodup := by
    rw [map_eq_map_of_forall₂ (hcases.imp fun _ _ h => h.key)]
    exact hkeys
  rw [types.decode_named hfind, types.decode_named hstruct, ← hmeans.ident, ← hmeans.key]
  exact Schema.decode_enum_eq_tagged (find?_key_of_nodup hnodup hcase) payload path

/-- What is no object with one entry is refused as such. -/
theorem decode_enum_of_length_ne (hfind : types.find? name = some (.enum title cases))
    {entries : List (String × Value)} (h : entries.length ≠ 1) (path : CodingPath) :
    types.decode (.named name) ⟨.object entries, path⟩ =
      .error ⟨path, .invalidEnumShape entries.length⟩ := by
  rw [types.decode_named hfind]
  match entries with
  | [] => rfl
  | [_] => exact absurd rfl h
  | _ :: _ :: _ => rfl

theorem decode_enum_of_not_object (hfind : types.find? name = some (.enum title cases))
    {v : Value} (h : ∀ entries, v ≠ .object entries) (path : CodingPath) :
    types.decode (.named name) ⟨v, path⟩ = .error ⟨path, .typeMismatch "object" v.kindName⟩ := by
  rw [types.decode_named hfind]
  cases v with
  | object entries => exact absurd rfl (h entries)
  | _ => rfl

theorem decode_enum_of_unknown_key (hfind : types.find? name = some (.enum title cases))
    (hcases : List.Forall₂ (fun v case => v.Means d.strategy s case) d.variants cases)
    {key : String} (hkey : key ∉ d.variantKeys) (payload : Value) (path : CodingPath) :
    types.decode (.named name) ⟨.object [(key, payload)], path⟩ =
      .error ⟨path, .unknownVariant key d.variantKeys⟩ := by
  have hkeys : cases.map Case.key = d.variantKeys :=
    map_eq_map_of_forall₂ (hcases.imp fun _ _ h => h.key)
  have hnone : cases.find? (fun case => case.key == key) = none := by
    rw [List.find?_eq_none]
    intro case hcase heq
    rw [beq_iff_eq] at heq
    exact hkey (hkeys ▸ heq ▸ List.mem_map_of_mem hcase)
  rw [types.decode_named hfind, Schema.decode_enum_of_unknown hnone, hkeys]

theorem decodesTagged (hfind : types.find? name = some (.enum title cases))
    (hcases : List.Forall₂ (fun v case => v.Means d.strategy s case) d.variants cases)
    (hkeys : d.variantKeys.Nodup) (hpayloads : types.HasPayloads d s struct) :
    types.DecodesTagged name d struct where
  notObject := fun v path h => decode_enum_of_not_object hfind h path
  notSingle := fun entries path h => decode_enum_of_length_ne hfind h path
  unknown := fun key payload path h => decode_enum_of_unknown_key hfind hcases h payload path
  variant := by
    intro key payload path hkey
    obtain ⟨v, hv, rfl⟩ := List.mem_map.mp hkey
    refine ⟨v, hv, rfl, fun other hother heq => ?_, ?_⟩
    · exact List.inj_on_of_nodup_map hkeys hother hv heq
    · exact decode_variant_eq_tagged hfind hcases hkeys hpayloads hv payload path
  present := by
    intro hhelpers v path key h
    rcases v.tagged_cases with hv | ⟨entries, rfl, hlength⟩ | ⟨tag, payload, rfl⟩
    · rw [decode_enum_of_not_object hfind hv] at h
      cases h
    · rw [decode_enum_of_length_ne hfind hlength] at h
      cases h
    · by_cases htag : tag ∈ d.variantKeys
      · -- what the struct reports lies one key further down
        obtain ⟨variant, hvariant, rfl⟩ := List.mem_map.mp htag
        rw [decode_variant_eq_tagged hfind hcases hkeys hpayloads hvariant] at h
        have hwithin := types.reportsWithin_decode hhelpers (.named (struct variant)) _ _
          (map_eq_error_iff.mp h)
        exact path.not_within_child _ hwithin
      · rw [decode_enum_of_unknown_key hfind hcases htag] at h
        cases h
  uninhabited := by
    intro hnone v path
    rcases v.tagged_cases with hv | ⟨entries, rfl, hlength⟩ | ⟨tag, payload, rfl⟩
    · exact ⟨_, decode_enum_of_not_object hfind hv path⟩
    · exact ⟨_, decode_enum_of_length_ne hfind hlength path⟩
    · have htag : tag ∉ d.variantKeys := by simp [Declaration.variantKeys, hnone]
      exact ⟨_, decode_enum_of_unknown_key hfind hcases htag payload path⟩

end Coding

end Registry

/-- Enums are coded as tagged structs.  The structs with the fields of its variants are accepted if
an enum is; encoding a variant is encoding its struct at the key of the variant, and decoding reads
the only key of an object and goes on with the struct of the variant that has this key. -/
theorem Registry.enum_codes_as_tagged_structs {types : Registry} {name : String} {d : Declaration}
    {s : Surroundings} {direction : Direction} {struct : DeclaredVariant → String}
    (henum : d.kind = .enum) (haccepted : d.expand.outcome = .accepted)
    (hconforms : d.conforms direction = true) (hnames : d.KeyNamesDiffer)
    (hdeclares : types.Declares name d s) (hpayloads : types.HasPayloads d s struct) :
    (∀ v ∈ d.variants, ∀ p : Declaration, p.PayloadOf d v →
      p.expand.outcome = .accepted ∧ ∀ dir, p.conforms dir = d.conforms dir) ∧
    types.EncodesTagged name d struct ∧ types.DecodesTagged name d struct := by
  obtain ⟨t, -, hcoded, -⟩ := id hdeclares
  obtain ⟨title, cases, hfind, hcases⟩ := hdeclares.exists_enum henum
  have hident : d.ident.isSome = true := by
    rw [CodedType.ident_of_ofDeclaration (Declaration.ofDeclaration_of_codedType? hcoded)]
    rfl
  have hidents := Declaration.nodup_idents hcoded henum hnames
  have hkeys := Declaration.nodup_variantKeys hcoded henum haccepted hconforms
  refine ⟨fun v hv p hp => ⟨hp.accepted henum hident hv haccepted, hp.conforms_eq⟩, ?_, ?_⟩
  · exact encodesTagged hfind hcases hidents hpayloads
  · exact decodesTagged hfind hcases hkeys hpayloads

/-- A name of a library stands for the declaration that is found under it. -/
theorem Library.declares {l : Library} {types : Registry} {name key : String} {d : Declaration}
    {arguments : List Shape} {schema : Schema} (hd : l.find? name = some d)
    (hschema : l.schema? name arguments = some schema) (hkey : types.find? key = some schema) :
    types.Declares key d (l.surroundings d arguments) := by
  simp only [schema?, hd, Option.bind_eq_bind, Option.bind_some, Option.bind_eq_some_iff] at hschema
  obtain ⟨t, ht, hmeant⟩ := hschema
  exact ⟨t, schema, ht, hmeant, hkey⟩

/-! ## The structs of a journal -/

namespace Journal

/-- A struct with the fields of a note. -/
def noteItem : Item :=
  ⟨[.marker "codable" []], [], .struct [Make.ident "struct"] (Make.ident "NoteFields") .none
    (.named noteFields .made) []⟩

/-- A struct with the fields of a mark. -/
def markItem : Item :=
  ⟨[.marker "codable" []], [], .struct [Make.ident "struct"] (Make.ident "MarkFields") .none .unit
    (Make.op ";")⟩

/-- The declarations of the journal with the structs of its variants beside them. -/
def payloadLibrary : Library :=
  ⟨[.ofItem entry, .ofItem noteItem, .ofItem markItem], Helper.readyMade⟩

/-- The declared types of the journal with the structs of its variants beside them. -/
def payloadTypes : Registry := payloadLibrary.registry payloadLibrary.plainInstances

/-- The name of the struct of a variant. -/
def structOf (v : DeclaredVariant) : String := v.ident ++ "Fields"

set_option maxRecDepth 4000 in
theorem schemas_payloadTypes : payloadTypes.schemas =
    [("Entry", .enum "Entry" [note, mark]), ("NoteFields", .struct "NoteFields" note.members),
      ("MarkFields", .struct "MarkFields" mark.members)] := rfl

theorem mem_note_of_hasMember {m : Member} (h : payloadTypes.HasMember m) : m ∈ note.members := by
  obtain ⟨name, schema, hfind, hm⟩ := h
  rw [Registry.find?, schemas_payloadTypes] at hfind
  obtain ⟨before, behind, hschemas, -⟩ := List.lookup_eq_some_iff.mp hfind
  have hmem : (name, schema) ∈ before ++ (name, schema) :: behind := by simp
  rw [← hschemas] at hmem
  simp only [List.mem_cons, Prod.mk.injEq, List.not_mem_nil, or_false] at hmem
  rcases hmem with ⟨-, rfl⟩ | ⟨-, rfl⟩ | ⟨-, rfl⟩
  · simpa [Schema.members, mark] using hm
  · exact hm
  · cases hm

theorem eq_bang {helper : Helper} (h : payloadTypes.HasHelper helper) : helper = .bang := by
  obtain ⟨m, hm, hhelper⟩ := h
  have hmember := mem_note_of_hasMember hm
  simp only [note, List.mem_cons, List.not_mem_nil, or_false] at hmember
  rcases hmember with rfl | rfl | rfl | rfl | rfl <;> cases hhelper
  rfl

theorem placeless_bang (x : Datum) : (Helper.bang.encode x).Placeless := by
  cases x with
  | none => exact Encoding.placeless_value _
  | some y =>
      cases y <;> first | exact Encoding.placeless_value _ | exact Encoding.placeless_pure
  | _ => exact Encoding.placeless_pure

theorem reportsWithin_bang : Helper.bang.decode.ReportsWithin := by
  intro d e h
  simp only [Helper.bang] at h
  split at h
  · cases h
  · rcases bind_eq_error_iff.mp h with htext | ⟨text, -, h⟩
    · exact reportsWithin_decodeString d e htext
    · split at h <;> cases h
      exact d.path.within_refl

theorem agreesOn_noteFields : (payloadLibrary.surroundings (.ofItem entry) []).AgreesOn
    (payloadLibrary.surroundings (.ofItem noteItem) []) (StoredMember.ofFields 0 noteFields) :=
  ⟨by decide +kernel, rfl, rfl, rfl⟩

theorem declares_of_lookup (schema : Schema) {name : String} {d : Declaration}
    (hd : payloadLibrary.find? name = some d)
    (hschema : payloadLibrary.schema? name [] = some schema)
    (hlookup : payloadTypes.schemas.lookup name = some schema) :
    payloadTypes.Declares name d (payloadLibrary.surroundings d []) :=
  Library.declares hd hschema hlookup

set_option maxRecDepth 4000 in
theorem declares_entry : payloadTypes.Declares "Entry" (.ofItem entry)
    (payloadLibrary.surroundings (.ofItem entry) []) :=
  declares_of_lookup (.enum "Entry" [note, mark]) rfl rfl (by rw [schemas_payloadTypes]; rfl)

set_option maxRecDepth 4000 in
theorem hasPayloads : payloadTypes.HasPayloads (.ofItem entry)
    (payloadLibrary.surroundings (.ofItem entry) []) structOf := by
  intro v hv
  have hv : v = .ofVariant ⟨[], Make.ident "Note", .named noteFields .made, [], Make.op ","⟩ ∨
      v = .ofVariant ⟨[], Make.ident "Mark", .unit, [], Make.op ","⟩ := by
    simpa [Declaration.ofItem, entry] using hv
  rcases hv with rfl | rfl
  · have hdeclares : payloadTypes.Declares "NoteFields" (.ofItem noteItem) _ :=
      declares_of_lookup (.struct "NoteFields" note.members) rfl rfl
        (by rw [schemas_payloadTypes]; rfl)
    exact ⟨.ofItem noteItem, _, ⟨rfl, rfl, rfl, rfl, rfl⟩, agreesOn_noteFields, hdeclares⟩
  · have hdeclares : payloadTypes.Declares "MarkFields" (.ofItem markItem) _ :=
      declares_of_lookup (.struct "MarkFields" mark.members) rfl rfl
        (by rw [schemas_payloadTypes]; rfl)
    exact ⟨.ofItem markItem, payloadLibrary.surroundings (.ofItem markItem) [],
      ⟨rfl, rfl, rfl, rfl, rfl⟩, ⟨nofun, rfl, rfl, rfl⟩, hdeclares⟩

theorem keyNamesDiffer_entry : (Declaration.ofItem entry).KeyNamesDiffer := by
  have hall : ((Declaration.ofItem entry).codedType?.all fun t =>
      decide (t.keys.entries.map KeyEntry.variant).Nodup) = true := by decide +kernel
  intro t ht
  simpa [ht] using hall

/-- The values of the fields of a note. -/
def plainFields : List Datum :=
  [.some (.string "tea"), .some (.string "a"), .none, .bool true, .none]

/-- The tree of the values of a note. -/
def plainTree : Value :=
  .object [("count", .null), ("label", .string "!a"), ("next", .null), ("seen", .bool true),
    ("text", .string "tea")]

/-- A note is written as the struct of its fields, at its key, and no key is looked for in vain. -/
theorem note_codes_as_tagged_struct :
    (Declaration.ofItem noteItem).expand.outcome = .accepted ∧
    payloadTypes.toValue (.named "Entry") (.variant "Note" plainFields) =
      .ok (.object [("Note", plainTree)]) ∧
    payloadTypes.DecodesTagged "Entry" (.ofItem entry) structOf ∧
    ∀ v path key,
      payloadTypes.decode (.named "Entry") ⟨v, path⟩ ≠ .error ⟨path, .keyNotFound key⟩ := by
  have hconforms : (Declaration.ofItem entry).conforms .decode = true := by decide +kernel
  obtain ⟨haccepted, hencodes, hdecodes⟩ := Registry.enum_codes_as_tagged_structs rfl
    (by decide +kernel) hconforms keyNamesDiffer_entry declares_entry hasPayloads
  have hplaceless : payloadTypes.HelpersPlaceless := fun helper h => eq_bang h ▸ placeless_bang
  have hwithin : payloadTypes.HelpersReportWithin := fun helper h => eq_bang h ▸ reportsWithin_bang
  have hnote : DeclaredVariant.ofVariant ⟨[], Make.ident "Note", .named noteFields .made, [],
      Make.op ","⟩ ∈ (Declaration.ofItem entry).variants := List.mem_cons_self
  have htree : payloadTypes.toValue (.named "NoteFields") (.record plainFields) =
      .ok plainTree := rfl
  refine ⟨?_, ?_, hdecodes, hdecodes.present hwithin⟩
  · exact (haccepted _ hnote (.ofItem noteItem) ⟨rfl, rfl, rfl, rfl, rfl⟩).1
  · exact hencodes.tree hplaceless _ hnote plainFields plainTree htree

end Journal

end KeyedCoding
