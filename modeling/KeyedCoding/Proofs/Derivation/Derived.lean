import KeyedCoding.Coding.ReadyMade
import KeyedCoding.Meaning.Declared
import KeyedCoding.Proofs.Coding.Writing
import KeyedCoding.Proofs.Derivation.Acceptance

/-!
# Schemas of accepted declarations

A schema is derived from a declaration if expansion accepts the declaration for both protocols, the
generated key enum names each key once, and the schema is what the coded type stands for in some
surroundings.  Nothing is said about the surroundings: types, helpers and closed expressions may
stand for anything.  Acceptance makes the keys of a derived schema differ.
-/

namespace KeyedCoding

/-! ## Schemas -/

namespace Schema

/-- The members of a declared type, those of all variants of an enum. -/
def members : Schema → List Member
  | .struct _ members => members
  | .enum _ variants => variants.flatMap Case.members

/-- The keys that are written beside each other differ, and so do the variants and their keys. -/
def Distinct : Schema → Prop
  | .struct _ members => (writtenKeys members).Nodup
  | .enum _ variants =>
      (variants.map Case.ident).Nodup ∧ (variants.map Case.key).Nodup ∧
        ∀ v ∈ variants, (writtenKeys v.members).Nodup

/-- A schema comes from a declaration that is accepted for both protocols and whose key enum names
each key once. -/
structure DerivedFrom (schema : Schema) (d : Declaration) (t : CodedType) (s : Surroundings) :
    Prop where
  accepted : d.expand.outcome = .accepted
  decodable : d.conforms .decode = true
  encodable : d.conforms .encode = true
  coded : d.codedType? = some t
  named : (t.keys.entries.map KeyEntry.variant).Nodup
  meant : t.schema? s = some schema

end Schema

/-- Every declared type has a derived schema. -/
def Registry.Derived (types : Registry) : Prop :=
  ∀ name schema, types.find? name = some schema → ∃ d t s, schema.DerivedFrom d t s

/-! ## Members and variants of a derived schema -/

namespace CodedMember

theorem schema?_eq_some {s : Surroundings} {m : CodedMember} {x : Member}
    (h : m.schema? s = some x) : x.key = m.key.value ∧ x.encoded = m.encoded := by
  simp only [schema?, Option.bind_eq_bind, Option.bind_eq_some_iff, Option.some.injEq] at h
  obtain ⟨_, _, _, _, _, _, _, _, rfl⟩ := h
  exact ⟨rfl, rfl⟩

/-- The keys that a schema writes are among the keys of the coded members. -/
theorem writtenKeys_sublist {s : Surroundings} {members : List CodedMember} {xs : List Member}
    (h : List.Forall₂ (fun m x => schema? s m = some x) members xs) :
    (writtenKeys xs).Sublist ((keysOf members).map KeyEntry.value) := by
  induction h with
  | nil => exact List.Sublist.refl _
  | @cons m x members xs hm _ ih =>
      obtain ⟨hkey, hencoded⟩ := schema?_eq_some hm
      by_cases hx : x.encoded = true
      · have hcoded : m.coded = true := by
          rw [hencoded] at hx
          simp only [encoded, Bool.not_eq_true'] at hx
          simp [coded, MemberOptions.ignored, hx]
        simpa [writtenKeys, keysOf, hx, hcoded, hkey] using ih.cons_cons m.key.value
      · have hskip : writtenKeys (x :: xs) = writtenKeys xs := by simp [writtenKeys, hx]
        rw [hskip]
        by_cases hcoded : m.coded = true
        · have htake : keysOf (m :: members) = m.key :: keysOf members := by
            simp [keysOf, hcoded]
          rw [htake, List.map_cons]
          exact ih.cons _
        · have hdrop : keysOf (m :: members) = keysOf members := by simp [keysOf, hcoded]
          rw [hdrop]
          exact ih

end CodedMember

namespace CodedCase

theorem ofVariant_eq_ok {v : DeclaredVariant} {s : KeyStrategy} {c : CodedCase}
    (h : ofVariant v s = .ok c) : c.key.variant = c.ident := by
  obtain ⟨_, _, h⟩ := bind_eq_ok_iff.mp h
  obtain ⟨_, _, h⟩ := bind_eq_ok_iff.mp h
  cases h
  rfl

theorem schema?_eq_some {s : Surroundings} {c : CodedCase} {x : Case} (h : c.schema? s = some x) :
    x.ident = c.ident ∧ x.key = c.key.value ∧
      List.Forall₂ (fun m y => CodedMember.schema? s m = some y) c.members x.members := by
  simp only [schema?, Option.bind_eq_bind, Option.bind_eq_some_iff, Option.some.injEq] at h
  obtain ⟨members, hmembers, rfl⟩ := h
  exact ⟨rfl, rfl, forall₂_of_mapM_some hmembers⟩

end CodedCase

namespace CodedType

/-- The keys of the variants are among the keys of an enum. -/
theorem caseKeys_sublist {t : CodedType} {cases : List CodedCase} (h : t.body = .enum cases) :
    (cases.map CodedCase.key).Sublist t.keys.entries := by
  simp only [keys, h]
  clear h
  induction cases with
  | nil => exact List.Sublist.refl _
  | cons c rest ih =>
      rw [List.map_cons, List.flatMap_cons, List.cons_append]
      exact (ih.trans (List.sublist_append_right _ _)).cons_cons _

/-- The members of a coded struct are made from those of its declaration. -/
theorem forall₂_of_struct {d : Declaration} {s : KeyStrategy} {t : CodedType}
    (h : ofDeclaration d s = .ok (some t)) {style : FieldStyle} {members : List CodedMember}
    (hbody : t.body = .struct style members) :
    List.Forall₂ (fun m c => CodedMember.ofStored m m.ident s = .ok c) d.members members := by
  unfold ofDeclaration at h
  split at h
  · obtain ⟨made, hmade, h⟩ := bind_eq_ok_iff.mp h
    cases h
    simp only [CodedBody.struct.injEq] at hbody
    obtain ⟨-, rfl⟩ := hbody
    exact mapM_eq_ok_iff.mp hmade
  · obtain ⟨_, _, h⟩ := bind_eq_ok_iff.mp h
    cases h
    simp at hbody
  · cases h

/-- The cases of a coded enum are made from the variants of its declaration. -/
theorem forall₂_of_enum {d : Declaration} {s : KeyStrategy} {t : CodedType}
    (h : ofDeclaration d s = .ok (some t)) {cases : List CodedCase} (hbody : t.body = .enum cases) :
    List.Forall₂ (fun v c => CodedCase.ofVariant v s = .ok c) d.variants cases := by
  unfold ofDeclaration at h
  split at h
  · obtain ⟨_, _, h⟩ := bind_eq_ok_iff.mp h
    cases h
    simp at hbody
  · obtain ⟨made, hmade, h⟩ := bind_eq_ok_iff.mp h
    cases h
    simp only [CodedBody.enum.injEq] at hbody
    subst hbody
    exact mapM_eq_ok_iff.mp hmade
  · cases h

theorem kind_of_struct {d : Declaration} {s : KeyStrategy} {t : CodedType}
    (h : ofDeclaration d s = .ok (some t)) {style : FieldStyle}
    {members : List CodedMember} (hbody : t.body = .struct style members) : d.kind = .struct := by
  unfold ofDeclaration at h
  split at h
  · assumption
  · obtain ⟨_, _, h⟩ := bind_eq_ok_iff.mp h
    cases h
    cases hbody
  · cases h

theorem kind_of_enum {d : Declaration} {s : KeyStrategy} {t : CodedType}
    (h : ofDeclaration d s = .ok (some t)) {cases : List CodedCase}
    (hbody : t.body = .enum cases) : d.kind = .enum := by
  unfold ofDeclaration at h
  split at h
  · obtain ⟨_, _, h⟩ := bind_eq_ok_iff.mp h
    cases h
    cases hbody
  · assumption
  · cases h

theorem ident_of_ofDeclaration {d : Declaration} {s : KeyStrategy} {t : CodedType}
    (h : ofDeclaration d s = .ok (some t)) : d.ident = some t.ident := by
  unfold ofDeclaration at h
  split at h
  · next hident _ =>
    obtain ⟨_, _, h⟩ := bind_eq_ok_iff.mp h
    cases h
    exact hident
  · next hident _ =>
    obtain ⟨_, _, h⟩ := bind_eq_ok_iff.mp h
    cases h
    exact hident
  · cases h

/-- In the coded type of a declaration the key of a variant has the name of the variant. -/
theorem key_variant_of_ofDeclaration {d : Declaration} {s : KeyStrategy} {t : CodedType}
    (h : ofDeclaration d s = .ok (some t)) {cases : List CodedCase} (hbody : t.body = .enum cases) :
    ∀ c ∈ cases, c.key.variant = c.ident := by
  intro c hc
  obtain ⟨v, -, hv⟩ := exists_of_forall₂_right (forall₂_of_enum h hbody) hc
  exact CodedCase.ofVariant_eq_ok hv

end CodedType

/-! ## The keys of a derived schema differ -/

namespace Declaration

/-- The parts of the coded type of a declaration. -/
theorem codedType?_eq_some {d : Declaration} {t : CodedType} (h : d.codedType? = some t) :
    ∃ o, ContainerOptions.ofAttributes d.attributes = .ok o ∧
      CodedType.ofDeclaration d o.strategy = .ok (some t) := by
  unfold codedType? at h
  split at h
  · rename_i o ho
    split at h
    · rename_i t' ht
      subst h
      exact ⟨o, ho, ht⟩
    · cases h
  · cases h

/-- A declaration that asks for a protocol has a list of protocols with one that is found. -/
theorem requested_of_conforms {d : Declaration} {direction : Direction} {o : ContainerOptions}
    (ho : ContainerOptions.ofAttributes d.attributes = .ok o)
    (h : d.conforms direction = true) :
    ∃ protocols, o.protocols = some protocols ∧ CodedType.requested protocols = true := by
  simp only [conforms, ho] at h
  cases hprotocols : o.protocols with
  | none =>
      rw [hprotocols] at h
      cases direction <;> simp [findProtocol] at h
  | some protocols =>
      rw [hprotocols] at h
      refine ⟨protocols, rfl, ?_⟩
      cases direction with
      | decode => exact Bool.or_eq_true_iff.mpr (Or.inl h)
      | encode => exact Bool.or_eq_true_iff.mpr (Or.inr h)

/-- The keys of every scope differ in the coded type of an accepted declaration that asks for a
protocol. -/
theorem nodup_scopes {d : Declaration} {t : CodedType} {direction : Direction}
    (haccepted : d.expand.outcome = .accepted) (hconforms : d.conforms direction = true)
    (hcoded : d.codedType? = some t) :
    ∀ scope ∈ t.scopes, (scope.map KeyEntry.value).Nodup := by
  obtain ⟨o, ho, ht⟩ := codedType?_eq_some hcoded
  obtain ⟨protocols, hprotocols, hrequested⟩ := requested_of_conforms ho hconforms
  exact nodup_scopes_of_accepted haccepted ho hprotocols hrequested ht

end Declaration

namespace Schema.DerivedFrom

variable {schema : Schema} {d : Declaration} {t : CodedType} {s : Surroundings}

theorem distinct (h : schema.DerivedFrom d t s) : schema.Distinct := by
  have hscopes := Declaration.nodup_scopes h.accepted h.decodable h.coded
  obtain ⟨o, ho, ht⟩ := Declaration.codedType?_eq_some h.coded
  have hmeant := h.meant
  unfold CodedType.schema? at hmeant
  cases hbody : t.body with
  | struct style members =>
      simp only [hbody, Option.bind_eq_bind, Option.bind_eq_some_iff, Option.some.injEq] at hmeant
      obtain ⟨xs, hxs, rfl⟩ := hmeant
      have hkeys := hscopes (CodedMember.keysOf members) (by simp [CodedType.scopes, hbody])
      exact (CodedMember.writtenKeys_sublist (forall₂_of_mapM_some hxs)).nodup hkeys
  | enum cases =>
      simp only [hbody, Option.bind_eq_bind, Option.bind_eq_some_iff, Option.some.injEq] at hmeant
      obtain ⟨variants, hvariants, rfl⟩ := hmeant
      have hforall := forall₂_of_mapM_some hvariants
      have hidents : variants.map Case.ident = cases.map CodedCase.ident :=
        map_eq_map_of_forall₂ (hforall.imp fun _ _ hc => (CodedCase.schema?_eq_some hc).1)
      have hkeys : variants.map Case.key = (cases.map CodedCase.key).map KeyEntry.value := by
        rw [List.map_map]
        exact map_eq_map_of_forall₂ (hforall.imp fun _ _ hc => (CodedCase.schema?_eq_some hc).2.1)
      refine ⟨?_, ?_, ?_⟩
      · have hvariants : cases.map CodedCase.ident =
            (cases.map CodedCase.key).map KeyEntry.variant := by
          rw [List.map_map]
          exact List.map_congr_left fun c hc =>
            (CodedType.key_variant_of_ofDeclaration ht hbody c hc).symm
        rw [hidents, hvariants]
        exact (CodedType.caseKeys_sublist hbody).map _ |>.nodup h.named
      · rw [hkeys]
        exact hscopes (cases.map CodedCase.key) (by simp [CodedType.scopes, hbody])
      · intro v hv
        obtain ⟨c, hc, hschema⟩ := exists_of_forall₂_right hforall hv
        have hscope := hscopes (CodedMember.keysOf c.members) (by
          simp only [CodedType.scopes, hbody]
          exact List.mem_cons_of_mem _ (List.mem_map_of_mem hc))
        exact (CodedMember.writtenKeys_sublist (CodedCase.schema?_eq_some hschema).2.2).nodup hscope

end Schema.DerivedFrom

/-! ## Libraries of declarations -/

/-- Whether a declaration is accepted for both protocols and its key enum names each key once. -/
def Declaration.derivable (d : Declaration) : Bool :=
  d.expand.outcome = .accepted && d.conforms .decode && d.conforms .encode &&
    d.codedType?.all fun t => decide (t.keys.entries.map KeyEntry.variant).Nodup

/-- The schemas of a library are derived if all its declarations are derivable. -/
theorem Library.derived_registry {l : Library}
    (h : l.declarations.all Declaration.derivable = true)
    (instances : List (String × List Shape)) : (l.registry instances).Derived := by
  intro name schema hfind
  obtain ⟨before, behind, hschemas, -⟩ := List.lookup_eq_some_iff.mp hfind
  have hmem : (name, schema) ∈ (l.registry instances).schemas := by
    rw [hschemas]
    exact List.mem_append_right _ List.mem_cons_self
  simp only [registry, List.mem_filterMap] at hmem
  obtain ⟨⟨ident, arguments⟩, -, hmade⟩ := hmem
  simp only [schema?, Option.bind_eq_bind, Option.bind_eq_some_iff, Option.some.injEq,
    Prod.mk.injEq] at hmade
  obtain ⟨_, ⟨d, hd, t, ht, hschema⟩, -, rfl⟩ := hmade
  have hderivable := List.all_eq_true.mp h d (List.mem_of_find?_eq_some hd)
  simp only [Declaration.derivable, ht, Bool.and_eq_true, Option.all_some,
    decide_eq_true_eq] at hderivable
  obtain ⟨⟨⟨haccepted, hdecode⟩, hencode⟩, hnamed⟩ := hderivable
  exact ⟨d, t, _, haccepted, hdecode, hencode, ht, hnamed, hschema⟩

/-! ## A journal

A declaration with most of what members can ask for: an enum that refers to itself, an optional
member, one with a helper, one with a default and one that is not read. -/

namespace Journal

/-- A type with one argument. -/
def applied (name : String) (argument : Tokens) : Tokens :=
  Make.ident name :: Make.op "<" ++ argument ++ Make.op ">"

/-- A named field. -/
def field (attributes : List Attribute) (name : String) (type : Tokens) : Field :=
  ⟨attributes, [], some (Make.ident name), Make.op ":", type, Make.op ","⟩

/-- The fields of a note. -/
def noteFields : List Field :=
  [field [] "text" (applied "Option" [Make.ident "String"]),
    field [.marker "coded_by" [Make.ident "Bang"]] "label" (applied "Option" [Make.ident "String"]),
    field [.marker "default_value" [Make.ident "Some", Make.parens [Make.literal "5"]]] "count"
      (applied "Option" [Make.ident "u8"]),
    field [.marker "ignore_decoding" []] "seen" [Make.ident "bool"],
    field [] "next" (applied "Option" (applied "Box" [Make.ident "Entry"]))]

/-- An entry of the journal: a note, or a mark. -/
def entry : Item :=
  ⟨[.marker "codable" []], [], .enum [Make.ident "enum"] (Make.ident "Entry") .none
    [⟨[], Make.ident "Note", .named noteFields .made, [], Make.op ","⟩,
      ⟨[], Make.ident "Mark", .unit, [], Make.op ","⟩] .made⟩

/-- The declarations of the journal and the helpers they use. -/
def library : Library := ⟨[.ofItem entry], Helper.readyMade⟩

/-- The declared types of the journal. -/
def types : Registry := library.registry library.plainInstances

/-- The member `text` of a note. -/
def text : Member :=
  ⟨"text", "text", 0, true, "text", .option .string, none, .required, true, none⟩

/-- The member `label` of a note, which a helper codes. -/
def label : Member :=
  ⟨"label", "label", 1, true, "label", .option .string, some .bang, .required, true, none⟩

/-- The member `count` of a note, which has a default. -/
def count : Member :=
  ⟨"count", "count", 2, true, "count", .option (.int .u8), none, .defaulted (.some (.int 5)), true,
    some (.some (.int 5))⟩

/-- The member `seen` of a note, which is not read. -/
def seen : Member :=
  ⟨"seen", "seen", 3, true, "seen", .bool, none, .fixed (.bool false), true, none⟩

/-- The member `next` of a note. -/
def next : Member :=
  ⟨"next", "next", 4, true, "next", .option (.box (.named "Entry")), none, .required, true, none⟩

/-- What coding knows about a note. -/
def note : Case := ⟨"Note", "Note", [text, label, count, seen, next]⟩

/-- What coding knows about a mark. -/
def mark : Case := ⟨"Mark", "Mark", []⟩

set_option maxRecDepth 4000 in
theorem schemas_types : types.schemas = [("Entry", .enum "Entry" [note, mark])] := rfl

theorem find?_entry : types.find? "Entry" = some (.enum "Entry" [note, mark]) := by
  rw [Registry.find?, schemas_types]
  rfl

theorem derived : types.Derived :=
  Library.derived_registry (by decide +kernel) _

end Journal

end KeyedCoding
