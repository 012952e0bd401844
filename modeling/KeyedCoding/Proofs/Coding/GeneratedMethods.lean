import KeyedCoding.Proofs.Coding.EncodingMethods
import KeyedCoding.Proofs.Coding.Tagged
import KeyedCoding.Proofs.Derivation.Scoping

/-!
# Generated methods do what schemas say

What is generated beside an accepted declaration is printed from the bodies that are run here, so
the methods of a declared type do what its schema says.  Of the source this takes no more than that
it can be compiled: fields that are named as they are written and told apart by their names, and
keys that differ in theirs.
-/

namespace KeyedCoding

open Running (done)

namespace Declaration

variable {d : Declaration} {t : CodedType}

/-! ## Sources that compile -/

/-- The fields of each form of a declaration, with their style. -/
def groups (d : Declaration) : List (FieldStyle × List StoredMember) :=
  (d.style, d.members) :: d.variants.map fun v => (v.style, v.members)

/-- Fields as a source has them: with names exactly where they are written with names, and called
neither like each other nor like a name that an expansion makes up. -/
structure Legible (d : Declaration) : Prop where
  named : ∀ group ∈ d.groups, ∀ m ∈ group.2, m.named = true ↔ group.1 = .named
  idents : ∀ group ∈ d.groups, (group.2.map StoredMember.ident).Nodup
  fresh : ∀ group ∈ d.groups, ∀ m ∈ group.2, ∀ use number, m.ident ≠ Context.nameOf use number

/-- Every item that is parsed is named as it is written. -/
theorem named_groups_of_parse {scope : Span} {tokens : Tokens} {item : Item}
    (h : Language.parse Language.item scope tokens = .ok item) :
    ∀ group ∈ (ofItem item).groups, ∀ m ∈ group.2, m.named = true ↔ group.1 = .named := by
  intro group hgroup
  rcases List.mem_cons.mp hgroup with rfl | hgroup
  · exact namedAsWritten_of_parse h
  · obtain ⟨v, hv, rfl⟩ := List.mem_map.mp hgroup
    exact named_iff_of_variant h v hv

theorem Legible.separates (h : d.Legible) (hd : d.OfItem) :
    ∀ group ∈ d.groups, group.1.Separates group.2 := by
  intro group hgroup
  have hshape : (group.1 = .unit → group.2 = []) ∧
      group.2.map StoredMember.index = List.range' 0 group.2.length := by
    rcases List.mem_cons.mp hgroup with rfl | hvariant
    · exact ⟨hd.members_of_unit, hd.map_index⟩
    · obtain ⟨v, hv, rfl⟩ := List.mem_map.mp hvariant
      exact ⟨hd.payload_of_unit v hv, hd.map_index_of_variant v hv⟩
  exact ⟨h.named group hgroup, hshape.1, hshape.2, h.idents group hgroup, h.fresh group hgroup⟩

/-- The forms of a coded type have the fields of its declaration. -/
theorem groups_subset (hcoded : d.codedType? = some t) : t.groups ⊆ d.groups := by
  have ht := ofDeclaration_of_codedType? hcoded
  cases hbody : t.body with
  | struct style members =>
      obtain rfl := CodedType.style_of_struct ht hbody
      have hstored : members.map CodedMember.stored = d.members.map id :=
        map_eq_map_of_forall₂ ((CodedType.codes_of_struct ht hbody).imp fun _ _ hc => hc.stored)
      rw [List.map_id] at hstored
      simp only [CodedType.groups, hbody, hstored]
      exact List.cons_subset.mpr ⟨List.mem_cons_self, List.nil_subset _⟩
  | enum cases =>
      have hstored : cases.map (fun c => (c.style, c.members.map CodedMember.stored)) =
          d.variants.map fun v => (v.style, v.members) := by
        refine map_eq_map_of_forall₂ ((CodedType.codes_of_enum ht hbody).imp fun v c hc => ?_)
        have hmembers : c.members.map CodedMember.stored = v.members.map id :=
          map_eq_map_of_forall₂ (hc.members.imp fun _ _ hm => hm.stored)
        rw [hc.style, hmembers, List.map_id]
      simp only [CodedType.groups, hbody, hstored]
      exact List.subset_cons_self _ _

/-- The coded type of a source that compiles can be told apart by code. -/
theorem Legible.ordinary (h : d.Legible) (hd : d.OfItem) (hcoded : d.codedType? = some t)
    (hkeys : (t.keys.entries.map KeyEntry.name).Nodup) : t.Ordinary where
  keys := hkeys
  variants := by
    intro cases hbody
    have hcodes := CodedType.codes_of_enum (ofDeclaration_of_codedType? hcoded) hbody
    have hnames : (cases.map CodedCase.key).map KeyEntry.name =
        (cases.map CodedCase.ident).map Identifier.unmarked := by
      rw [List.map_map, List.map_map]
      refine List.map_congr_left fun c hc => ?_
      obtain ⟨v, -, hv⟩ := exists_of_forall₂_right hcodes hc
      rw [Function.comp_apply, Function.comp_apply, KeyEntry.name, hv.variant, hv.ident]
    have hnodup := hkeys.sublist ((CodedType.caseKeys_sublist hbody).map KeyEntry.name)
    rw [hnames] at hnodup
    exact hnodup.of_map _
  fields := fun group hgroup => h.separates hd group (groups_subset hcoded hgroup)

/-! ## Methods of an accepted declaration -/

/-- Where a protocol is asked for, its method is generated around the body of the coded type. -/
theorem exists_methods_of_accepted (haccepted : d.expand.outcome = .accepted)
    (hcoded : d.codedType? = some t) {direction : Direction}
    (hconforms : d.conforms direction = true) :
    ∃ decoding encoding : Option Conformance,
      (∀ c ∈ decoding.toList ++ encoding.toList, c.code ∈ d.expand.generated) ∧
      decoding.isSome = d.conforms .decode ∧ encoding.isSome = d.conforms .encode ∧
      (∀ c, decoding = some c → ∃ context, c = t.decodable (t.decodeBody context).1) ∧
      ∀ c, encoding = some c → ∃ context, c = t.encodable (t.encodeBody context).1 := by
  obtain ⟨o, ho, ht⟩ := codedType?_eq_some hcoded
  obtain ⟨protocols, hprotocols, hrequested⟩ := requested_of_conforms ho hconforms
  have hfound : ∀ direction : Direction,
      d.conforms direction = (findProtocol direction.protocol protocols).isSome := by
    intro direction
    simp only [conforms, ho, hprotocols, Option.getD_some]
  obtain ⟨decoding, encoding, hcode, hdecodable, hencodable, hdecode, hencode, -⟩ :=
    exists_coding hrequested (d.initializerCode o ⟨0, d.findings⟩).2
  refine ⟨decoding, encoding, fun c hc => ?_, ?_, ?_, hdecode, hencode⟩
  · rw [generated_eq_build haccepted, build_eq ho hprotocols ht, hcode]
    exact List.mem_append_right _ (List.mem_cons_of_mem _ (List.mem_map_of_mem hc))
  · rw [hfound, hdecodable]
  · rw [hfound, hencodable]

end Declaration

/-- The methods that are generated beside an accepted declaration are what its name stands for: run
with the codec of the registry for the types of their members, they are the codec of the registry
for the declared type, on every decoder and on every datum of the type. -/
theorem Registry.Declares.run_methods {types : Registry} {name : String} {d : Declaration}
    {s : Surroundings} (h : types.Declares name d s) (haccepted : d.expand.outcome = .accepted)
    (hd : d.OfItem) (hlegible : d.Legible) (hs : s.Relative)
    (hkeys : ∀ t, d.codedType? = some t → (t.keys.entries.map KeyEntry.name).Nodup) :
    ∃ t, d.codedType? = some t ∧
      (d.conforms .decode = true → ∃ code : DecodeBody,
        (t.decodable code).code ∈ d.expand.generated ∧
          ∀ decoder, code.run t s types.decode decoder =
            done (types.decode (.named name) decoder)) ∧
      (d.conforms .encode = true → ∃ code : EncodeBody,
        (t.encodable code).code ∈ d.expand.generated ∧
          ∀ coded x, x.HasShape types coded (.named name) →
            code.run t s types.encode x = some (types.encode (.named name) x)) := by
  obtain ⟨t, schema, hcoded, hschema, hfind⟩ := h
  have hordinary := hlegible.ordinary hd hcoded (hkeys t hcoded)
  refine ⟨t, hcoded, fun hconforms => ?_, fun hconforms => ?_⟩
  · obtain ⟨decoding, encoding, hgenerated, hdecodable, -, hdecode, -⟩ :=
      Declaration.exists_methods_of_accepted haccepted hcoded hconforms
    obtain ⟨c, rfl⟩ := Option.isSome_iff_exists.mp (hdecodable.trans hconforms)
    obtain ⟨context, rfl⟩ := hdecode c rfl
    refine ⟨(t.decodeBody context).1, hgenerated _ (by simp), fun decoder => ?_⟩
    rw [types.decode_named hfind]
    exact CodedType.run_decodeBody hs hordinary hschema decoder context
  · obtain ⟨decoding, encoding, hgenerated, -, hencodable, -, hencode⟩ :=
      Declaration.exists_methods_of_accepted haccepted hcoded hconforms
    obtain ⟨c, rfl⟩ := Option.isSome_iff_exists.mp (hencodable.trans hconforms)
    obtain ⟨context, rfl⟩ := hencode c rfl
    refine ⟨(t.encodeBody context).1, hgenerated _ (by simp), fun coded x hx => ?_⟩
    rw [types.encode_named hfind]
    exact CodedType.run_encodeBody hordinary hschema (Schema.holds_of_hasShape hx hfind) context

/-! ## An entry of the journal -/

namespace Journal

set_option maxRecDepth 10000 in
/-- The fields of an entry are told apart, and none is called like a name that is made up. -/
theorem legible_entry : (Declaration.ofItem entry).Legible where
  named := by
    have hparse : Language.parse Language.item .made entry.tokens = .ok entry := by rfl
    exact Declaration.named_groups_of_parse hparse
  idents := by decide +kernel
  fresh := by
    have hapart : ∀ group ∈ (Declaration.ofItem entry).groups, ∀ m ∈ group.2,
        m.ident.toList.take 2 ≠ ['_', '_'] := by decide +kernel
    rintro group hgroup m hm use number heq
    refine hapart group hgroup m hm ?_
    rw [heq]
    simp [Context.nameOf]

/-- The methods of an entry, run on any tree and on any entry, are the codec of entries. -/
theorem entry_methods_run : ∃ t, (Declaration.ofItem entry).codedType? = some t ∧
    (∃ code : DecodeBody, (t.decodable code).code ∈ (Declaration.ofItem entry).expand.generated ∧
      ∀ decoder, code.run t (payloadLibrary.surroundings (.ofItem entry) []) payloadTypes.decode
        decoder = done (payloadTypes.decode (.named "Entry") decoder)) ∧
    ∃ code : EncodeBody, (t.encodable code).code ∈ (Declaration.ofItem entry).expand.generated ∧
      ∀ coded x, x.HasShape payloadTypes coded (.named "Entry") →
        code.run t (payloadLibrary.surroundings (.ofItem entry) []) payloadTypes.encode x =
          some (payloadTypes.encode (.named "Entry") x) := by
  have hall : ((Declaration.ofItem entry).codedType?.all fun t =>
      decide (t.keys.entries.map KeyEntry.name).Nodup) = true := by decide +kernel
  obtain ⟨t, hcoded, hdecode, hencode⟩ := declares_entry.run_methods (by decide +kernel)
    ⟨entry, entry.attributes, rfl⟩ legible_entry (payloadLibrary.relative_surroundings _ _)
    fun t ht => by simpa [ht] using hall
  exact ⟨t, hcoded, hdecode (by decide +kernel), hencode (by decide +kernel)⟩

end Journal

end KeyedCoding
