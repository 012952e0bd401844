import KeyedCoding.Proofs.Derivation.Derived
import Mathlib.Data.List.Pairwise

/-!
# Names of the keys

The key enum of a type has one variant for each key: named like the field of a struct, like the
variant of an enum, or by the variant and the field with two underscores between them.  The names of
an enum's variants and the joined names share one scope, and joining is not injective, so keys may
read alike although fields and variants differ.  `CodedCase.Clash` lists the ways: a variant has a
joined name, or the longer of two variant names takes over underscores, or more, from a field of the
shorter one.  The names of the keys differ exactly if no variants clash.
-/

namespace KeyedCoding

/-! ## Joined names -/

/-- The names of a variant and of a field with two underscores between them. -/
def joinedName (variant field : String) : String := variant ++ "__" ++ field

/-- The name of variant `b` takes over underscores, or more, from the name of a field `m` of
variant `a`, so that both read alike once `n` is joined to `b`. -/
def Overlap (a m b n : String) : Prop :=
  (b = a ++ "_" ∧ m = "_" ++ n) ∨ ∃ rest, b = joinedName a rest ∧ m = joinedName rest n

theorem ne_joinedName (a m : String) : a ≠ joinedName a m := by
  intro h
  have hlength := congrArg String.length h
  simp only [joinedName, String.length_append] at hlength
  have htwo : "__".length = 2 := rfl
  omega

theorem joinedName_injective (a : String) : Function.Injective (joinedName a) := by
  intro m n h
  have hlist := congrArg String.toList h
  simp only [joinedName, String.toList_append, List.append_cancel_left_eq] at hlist
  exact String.toList_inj.mp hlist

theorem Overlap.joinedName_eq {a m b n : String} (h : Overlap a m b n) :
    joinedName a m = joinedName b n := by
  rcases h with ⟨rfl, rfl⟩ | ⟨rest, rfl, rfl⟩
  · apply String.toList_inj.mp
    simp [joinedName]
  · apply String.toList_inj.mp
    simp [joinedName]

theorem Overlap.ne {a m b n : String} (h : Overlap a m b n) : a ≠ b := by
  rcases h with ⟨rfl, -⟩ | ⟨rest, rfl, -⟩
  · intro heq
    have hlength := congrArg String.length heq
    rw [String.length_append] at hlength
    have hone : "_".length = 1 := rfl
    omega
  · exact ne_joinedName a rest

/-- Where the shorter of two variant names ends, the joined name goes on with its two underscores:
the longer name has taken over one of them, or both and then some of the field. -/
theorem overlap_of_append {a b rest m n : List Char} (hb : b = a ++ rest) (hrest : rest ≠ [])
    (h : '_' :: '_' :: m = rest ++ '_' :: '_' :: n) :
    Overlap (String.ofList a) (String.ofList m) (String.ofList b) (String.ofList n) := by
  subst hb
  match rest, hrest, h with
  | [c], _, h =>
      obtain ⟨rfl, rfl⟩ : c = '_' ∧ m = '_' :: n := by simpa [eq_comm] using h
      refine .inl ⟨?_, ?_⟩ <;> apply String.toList_inj.mp <;> simp
  | c :: c' :: rest, _, h =>
      obtain ⟨rfl, rfl, rfl⟩ : c = '_' ∧ c' = '_' ∧ m = rest ++ '_' :: '_' :: n := by
        simpa [eq_comm] using h
      refine .inr ⟨String.ofList rest, ?_, ?_⟩ <;> apply String.toList_inj.mp <;>
        simp [joinedName]

/-- Names joined from different variants read alike only where one variant overlaps the other. -/
theorem overlap_of_joinedName_eq {a m b n : String} (hne : a ≠ b)
    (h : joinedName a m = joinedName b n) : Overlap a m b n ∨ Overlap b n a m := by
  have hlist : a.toList ++ '_' :: '_' :: m.toList = b.toList ++ '_' :: '_' :: n.toList := by
    simpa [joinedName] using congrArg String.toList h
  rcases List.append_eq_append_iff.mp hlist with ⟨rest, hb, hm⟩ | ⟨rest, ha, hn⟩
  · have hrest : rest ≠ [] := by
      rintro rfl
      exact hne (String.toList_inj.mp (by simpa using hb.symm))
    have hoverlap := overlap_of_append hb hrest hm
    simp only [String.ofList_toList] at hoverlap
    exact .inl hoverlap
  · have hrest : rest ≠ [] := by
      rintro rfl
      exact hne (String.toList_inj.mp (by simpa using ha))
    have hoverlap := overlap_of_append ha hrest hn
    simp only [String.ofList_toList] at hoverlap
    exact .inr hoverlap

/-! ## Names without marks -/

/-- A name that starts with no mark starts with none once a field is joined to it. -/
theorem unmarked_joinedName {a : String} (h : Identifier.unmarked a = a) (m : String) :
    Identifier.unmarked (joinedName a m) = joinedName a m := by
  have hjoined : (joinedName a m).toList = a.toList ++ '_' :: '_' :: m.toList := by
    simp [joinedName]
  unfold Identifier.unmarked
  rw [hjoined]
  match hlist : a.toList with
  | [] => rfl
  | [c] => simp
  | c :: c' :: rest =>
      simp only [List.cons_append]
      split
      · rename_i behind heq
        -- a mark at the start of the joined name is one at the start of the variant
        obtain ⟨rfl, rfl, -⟩ : c = 'r' ∧ c' = '#' ∧ rest ++ '_' :: '_' :: m.toList = behind := by
          simpa using heq
        have hlength := congrArg (fun s => s.toList.length) h
        simp only [Identifier.unmarked, hlist, String.toList_ofList, List.length_cons] at hlength
        omega
      · rfl

/-- The name of a key as the language tells it from others: without a mark. -/
def KeyEntry.name (e : KeyEntry) : String := Identifier.unmarked e.variant

/-- The text of the first key of a name. -/
def KeyEnum.text? (keys : KeyEnum) (variant : String) : Option String :=
  (keys.entries.find? fun e => e.name == Identifier.unmarked variant).map KeyEntry.value

/-- The name of a member. -/
def CodedMember.name (m : CodedMember) : String := m.stored.name

namespace CodedCase

/-- The name of a variant without a mark. -/
def name (c : CodedCase) : String := Identifier.unmarked c.ident

/-- The members of a variant that have keys. -/
def keyed (c : CodedCase) : List CodedMember := c.members.filter CodedMember.coded

/-- The names of the keys of a variant: its own, and those of its members. -/
def keyNames (c : CodedCase) : List String :=
  c.name :: c.keyed.map fun m => joinedName c.name m.name

/-- A key of `b` reads like a key of a member of `a`. -/
def Clash (a b : CodedCase) : Prop :=
  (∃ m ∈ a.keyed, b.name = joinedName a.name m.name) ∨
    ∃ m ∈ a.keyed, ∃ n ∈ b.keyed, Overlap a.name m.name b.name n.name

end CodedCase

/-- Two variants of an enum clash; members of a struct never do. -/
def CodedType.Clashes (t : CodedType) : Prop :=
  match t.body with
  | .struct _ _ => False
  | .enum cases => ∃ a ∈ cases, ∃ b ∈ cases, a.Clash b

namespace CodedCase

theorem Clash.name_ne {a b : CodedCase} (h : a.Clash b) : a.name ≠ b.name := by
  rcases h with ⟨m, -, hname⟩ | ⟨m, -, n, -, hoverlap⟩
  · rw [hname]
    exact ne_joinedName a.name m.name
  · exact hoverlap.ne

/-- Variants that clash share the name of a key. -/
theorem Clash.not_disjoint {a b : CodedCase} (h : a.Clash b) :
    ¬ List.Disjoint a.keyNames b.keyNames := by
  intro hdisjoint
  rcases h with ⟨m, hm, hname⟩ | ⟨m, hm, n, hn, hoverlap⟩
  · refine hdisjoint (List.mem_cons_of_mem _ (List.mem_map_of_mem hm)) ?_
    rw [← hname]
    exact List.mem_cons_self
  · refine hdisjoint (List.mem_cons_of_mem _ (List.mem_map_of_mem hm)) ?_
    rw [hoverlap.joinedName_eq]
    exact List.mem_cons_of_mem _ (List.mem_map_of_mem hn)

/-- Variants of different names that do not clash share no name of a key. -/
theorem disjoint_keyNames {a b : CodedCase} (hne : a.name ≠ b.name) (hab : ¬ a.Clash b)
    (hba : ¬ b.Clash a) : List.Disjoint a.keyNames b.keyNames := by
  intro key ha hb
  rcases List.mem_cons.mp ha with rfl | ha <;> rcases List.mem_cons.mp hb with hb | hb
  · exact hne hb
  · obtain ⟨n, hn, hkey⟩ := List.mem_map.mp hb
    exact hba (.inl ⟨n, hn, hkey.symm⟩)
  · obtain ⟨m, hm, hkey⟩ := List.mem_map.mp ha
    exact hab (.inl ⟨m, hm, hb ▸ hkey.symm⟩)
  · obtain ⟨m, hm, rfl⟩ := List.mem_map.mp ha
    obtain ⟨n, hn, hkey⟩ := List.mem_map.mp hb
    rcases overlap_of_joinedName_eq hne hkey.symm with hoverlap | hoverlap
    · exact hab (.inr ⟨m, hm, n, hn, hoverlap⟩)
    · exact hba (.inr ⟨n, hn, m, hm, hoverlap⟩)

theorem nodup_keyNames {c : CodedCase} (h : (c.members.map CodedMember.name).Nodup) :
    c.keyNames.Nodup := by
  have hkeyed : (c.keyed.map CodedMember.name).Nodup :=
    (List.filter_sublist.map CodedMember.name).nodup h
  refine List.nodup_cons.mpr ⟨?_, ?_⟩
  · intro hmem
    obtain ⟨m, -, hname⟩ := List.mem_map.mp hmem
    exact ne_joinedName c.name m.name hname.symm
  · have hmap := hkeyed.map (joinedName_injective c.name)
    rwa [List.map_map] at hmap

/-- The names of the keys of all variants differ exactly if no variants clash. -/
theorem nodup_flatMap_keyNames_iff {cases : List CodedCase} (hnames : (cases.map name).Nodup)
    (hmembers : ∀ c ∈ cases, (c.members.map CodedMember.name).Nodup) :
    (cases.flatMap keyNames).Nodup ↔ ¬ ∃ a ∈ cases, ∃ b ∈ cases, a.Clash b := by
  rw [List.nodup_flatMap]
  -- Inside one variant nothing can go wrong, so all depends on the pairs of variants.
  constructor
  · rintro ⟨-, hpairwise⟩ ⟨a, ha, b, hb, hclash⟩
    have hne : a ≠ b := fun heq => hclash.name_ne (congrArg name heq)
    have : Std.Symm (Function.onFun List.Disjoint keyNames) := ⟨fun _ _ h _ hb ha => h ha hb⟩
    exact hclash.not_disjoint (hpairwise.forall ha hb hne)
  · intro hclash
    refine ⟨fun c hc => nodup_keyNames (hmembers c hc), ?_⟩
    have hpairwise : cases.Pairwise fun a b => a.name ≠ b.name := List.pairwise_map.mp hnames
    refine hpairwise.imp_of_mem fun {a b} ha hb hne => ?_
    exact disjoint_keyNames hne (fun h => hclash ⟨a, ha, b, hb, h⟩)
      (fun h => hclash ⟨b, hb, a, ha, h⟩)

end CodedCase

/-! ## The keys of a declaration -/

/-- The name of a declared variant without a mark. -/
def DeclaredVariant.name (v : DeclaredVariant) : String := Identifier.unmarked v.ident

/-- What the language demands of the names in a declaration: fields that stand beside each other
differ, variants differ, marks aside, and a name is marked once at most. -/
structure Declaration.NamesDiffer (d : Declaration) : Prop where
  fields : (d.members.map StoredMember.name).Nodup
  variants : (d.variants.map DeclaredVariant.name).Nodup
  payloads : ∀ v ∈ d.variants, (v.members.map StoredMember.name).Nodup
  marked : ∀ v ∈ d.variants, Identifier.unmarked v.name = v.name

theorem CodedMember.ofStored_eq_ok {m : StoredMember} {keyVariant : String} {s : KeyStrategy}
    {c : CodedMember} (h : ofStored m keyVariant s = .ok c) :
    c.stored = m ∧ c.key.variant = keyVariant := by
  obtain ⟨_, _, h⟩ := bind_eq_ok_iff.mp h
  cases h
  exact ⟨rfl, rfl⟩

theorem CodedCase.members_of_ofVariant {v : DeclaredVariant} {s : KeyStrategy} {c : CodedCase}
    (h : ofVariant v s = .ok c) :
    c.name = v.name ∧ List.Forall₂ (fun stored m => m.name = StoredMember.name stored ∧
      m.key.variant = joinedName c.name m.name) v.members c.members := by
  obtain ⟨_, _, h⟩ := bind_eq_ok_iff.mp h
  obtain ⟨members, hmembers, h⟩ := bind_eq_ok_iff.mp h
  cases h
  refine ⟨rfl, (mapM_eq_ok_iff.mp hmembers).imp fun stored m hm => ?_⟩
  obtain ⟨rfl, hvariant⟩ := CodedMember.ofStored_eq_ok hm
  exact ⟨rfl, hvariant⟩

namespace CodedType

variable {d : Declaration} {s : KeyStrategy} {t : CodedType}

/-- The keys of a struct have the names of its fields. -/
theorem nodup_keyNames_of_struct {style : FieldStyle} {members : List CodedMember}
    (h : ofDeclaration d s = .ok (some t)) (hbody : t.body = .struct style members)
    (hnames : d.NamesDiffer) : (t.keys.entries.map KeyEntry.name).Nodup := by
  have hmembers : members.map (fun m => m.key.name) = d.members.map StoredMember.name := by
    refine map_eq_map_of_forall₂ ((forall₂_of_struct h hbody).imp fun stored m hm => ?_)
    obtain ⟨-, hvariant⟩ := CodedMember.ofStored_eq_ok hm
    rw [KeyEntry.name, hvariant]
    rfl
  have hkeys : t.keys.entries.map KeyEntry.name =
      (members.filter CodedMember.coded).map fun m => m.key.name := by
    simp only [keys, hbody, CodedMember.keysOf, List.map_map]
    rfl
  rw [hkeys]
  refine (List.filter_sublist.map _).nodup ?_
  rw [hmembers]
  exact hnames.fields

/-- A case made from a variant has the name and the field names of the variant. -/
theorem exists_variant_of_mem {cases : List CodedCase} (h : ofDeclaration d s = .ok (some t))
    (hbody : t.body = .enum cases) {c : CodedCase} (hc : c ∈ cases) :
    ∃ v ∈ d.variants, c.name = v.name ∧ c.key.variant = c.ident ∧
      c.members.map CodedMember.name = v.members.map StoredMember.name ∧
      ∀ m ∈ c.members, m.key.variant = joinedName c.name m.name := by
  obtain ⟨v, hv, hmade⟩ := exists_of_forall₂_right (forall₂_of_enum h hbody) hc
  obtain ⟨hname, hmembers⟩ := CodedCase.members_of_ofVariant hmade
  refine ⟨v, hv, hname, CodedCase.ofVariant_eq_ok hmade, ?_, fun m hm => ?_⟩
  · exact map_eq_map_of_forall₂ (hmembers.imp fun _ _ hm => hm.1)
  · obtain ⟨_, -, -, hvariant⟩ := exists_of_forall₂_right hmembers hm
    exact hvariant

/-- The keys of an enum have the names of the keys of its variants. -/
theorem map_name_keys_of_enum {cases : List CodedCase} (h : ofDeclaration d s = .ok (some t))
    (hbody : t.body = .enum cases) (hnames : d.NamesDiffer) :
    t.keys.entries.map KeyEntry.name = cases.flatMap CodedCase.keyNames := by
  simp only [keys, hbody, List.map_flatMap]
  refine List.flatMap_congr fun c hc => ?_
  obtain ⟨v, hv, hname, hkey, -, hmembers⟩ := exists_variant_of_mem h hbody hc
  have hmarked : Identifier.unmarked c.name = c.name := by
    rw [hname]
    exact hnames.marked v hv
  have hown : c.key.name = c.name := by
    rw [KeyEntry.name, hkey]
    rfl
  rw [List.map_cons, hown, CodedCase.keyNames, CodedMember.keysOf, List.map_map]
  refine congrArg (c.name :: ·) (List.map_congr_left fun m hm => ?_)
  show Identifier.unmarked m.key.variant = joinedName c.name m.name
  rw [hmembers m (List.mem_of_mem_filter hm), unmarked_joinedName hmarked]

/-- The names of the keys differ exactly if no variants clash. -/
theorem nodup_map_name_keys_iff (h : ofDeclaration d s = .ok (some t)) (hnames : d.NamesDiffer) :
    (t.keys.entries.map KeyEntry.name).Nodup ↔ ¬ t.Clashes := by
  unfold Clashes
  cases hbody : t.body with
  | struct style members => simp [nodup_keyNames_of_struct h hbody hnames]
  | enum cases =>
      have hcases : cases.map CodedCase.name = d.variants.map DeclaredVariant.name :=
        map_eq_map_of_forall₂ ((forall₂_of_enum h hbody).imp fun _ _ hc =>
          (CodedCase.members_of_ofVariant hc).1)
      rw [map_name_keys_of_enum h hbody hnames]
      refine CodedCase.nodup_flatMap_keyNames_iff (hcases ▸ hnames.variants) fun c hc => ?_
      obtain ⟨v, hv, -, -, hmembers, -⟩ := exists_variant_of_mem h hbody hc
      rw [hmembers]
      exact hnames.payloads v hv

end CodedType

/-! ## The key enum of an accepted declaration -/

namespace Declaration

variable {d : Declaration} {o : ContainerOptions} {protocols : List Tokens}

/-- An accepted struct or enum with a list of protocols has a coded type. -/
theorem exists_codedType_of_accepted (haccepted : d.expand.outcome = .accepted)
    (ho : ContainerOptions.ofAttributes d.attributes = .ok o)
    (hprotocols : o.protocols = some protocols) (hident : d.ident.isSome = true)
    (hkind : d.kind = .struct ∨ d.kind = .enum) :
    ∃ t, CodedType.ofDeclaration d o.strategy = .ok (some t) := by
  have hbuild := build_of_accepted haccepted
  cases ht : CodedType.ofDeclaration d o.strategy with
  | ok made =>
      cases made with
      | some t => exact ⟨t, rfl⟩
      | none =>
          obtain ⟨ident, hident⟩ := Option.isSome_iff_exists.mp hident
          unfold CodedType.ofDeclaration at ht
          rcases hkind with hkind | hkind <;> rw [hident, hkind] at ht <;>
            obtain ⟨_, _, hnone⟩ := bind_eq_ok_iff.mp ht <;> cases hnone
  | error f =>
      -- the failure would have been reported as an error
      have hdiagnostics : (d.build ⟨0, d.findings⟩).2.diagnostics =
          (d.initializerCode o ⟨0, d.findings⟩).2.diagnostics ++ [Diagnostic.ofFailure f] := by
        simp only [build, ho, hprotocols, ht]
        rfl
      have hreported : Diagnostic.ofFailure f ∈ (d.build ⟨0, d.findings⟩).2.diagnostics := by
        rw [hdiagnostics]
        exact List.mem_append_right _ List.mem_cons_self
      exact absurd rfl (List.any_eq_false.mp hbuild _ hreported)

theorem keyDeclaration_mem_codingCode {t : CodedType}
    (hrequested : CodedType.requested protocols = true) (c : Context) :
    t.keys.declaration t.visibility ∈ (codingCode t protocols c).1 := by
  simp only [codingCode, CodedType.keyDeclarations, hrequested, if_true]
  exact List.mem_append_left _ List.mem_cons_self

/-- The key enum is part of the code of an accepted declaration that asks for a protocol. -/
theorem keyDeclaration_mem_generated (haccepted : d.expand.outcome = .accepted)
    (ho : ContainerOptions.ofAttributes d.attributes = .ok o)
    (hprotocols : o.protocols = some protocols)
    (hrequested : CodedType.requested protocols = true) {t : CodedType}
    (ht : CodedType.ofDeclaration d o.strategy = .ok (some t)) :
    t.keys.declaration t.visibility ∈ d.expand.generated := by
  have hgenerated : d.expand.generated = (d.build ⟨0, d.findings⟩).1 := by
    have hfinal := build_of_accepted haccepted
    unfold expand at haccepted ⊢
    by_cases hchecked : (⟨0, d.findings⟩ : Context).hasErrors = true
    · simp [hchecked] at haccepted
    · simp [hchecked, hfinal]
  rw [hgenerated]
  simp only [build, ho, hprotocols, ht]
  exact List.mem_append_right _ (keyDeclaration_mem_codingCode hrequested _)

/-- The code generated for an accepted struct or enum declares the keys of its coded type. -/
theorem exists_keys_of_accepted {direction : Direction}
    (haccepted : d.expand.outcome = .accepted) (hconforms : d.conforms direction = true)
    (hident : d.ident.isSome = true) (hkind : d.kind = .struct ∨ d.kind = .enum) :
    ∃ t, d.codedType? = some t ∧ t.keys.declaration t.visibility ∈ d.expand.generated := by
  obtain ⟨o, ho⟩ : ∃ o, ContainerOptions.ofAttributes d.attributes = .ok o := by
    cases ho : ContainerOptions.ofAttributes d.attributes with
    | ok o => exact ⟨o, rfl⟩
    | error f => simp only [conforms, ho, Bool.false_eq_true] at hconforms
  obtain ⟨protocols, hprotocols, hrequested⟩ := requested_of_conforms ho hconforms
  obtain ⟨t, ht⟩ := exists_codedType_of_accepted haccepted ho hprotocols hident hkind
  refine ⟨t, ?_, keyDeclaration_mem_generated haccepted ho hprotocols hrequested ht⟩
  simp only [codedType?, ho, ht]

end Declaration

/-- In the key enum that is generated for an accepted struct or enum, the names of the keys differ
exactly if no variants clash, and then each key has its own text. -/
theorem Declaration.keyNames_differ_iff_not_clashes {d : Declaration} {direction : Direction}
    (haccepted : d.expand.outcome = .accepted) (hconforms : d.conforms direction = true)
    (hident : d.ident.isSome = true) (hkind : d.kind = .struct ∨ d.kind = .enum)
    (hnames : d.NamesDiffer) :
    ∃ t, d.codedType? = some t ∧ t.keys.declaration t.visibility ∈ d.expand.generated ∧
      ((t.keys.entries.map KeyEntry.name).Nodup ↔ ¬ t.Clashes) ∧
      (¬ t.Clashes → ∀ e ∈ t.keys.entries, t.keys.text? e.variant = some e.value) := by
  obtain ⟨t, hcoded, hgenerated⟩ := exists_keys_of_accepted haccepted hconforms hident hkind
  obtain ⟨o, -, ht⟩ := codedType?_eq_some hcoded
  have hiff := CodedType.nodup_map_name_keys_iff ht hnames
  refine ⟨t, hcoded, hgenerated, hiff, fun hclash e he => ?_⟩
  have hfind := find?_key_of_nodup (hiff.mpr hclash) he
  show (t.keys.entries.find? fun other => other.name == e.name).map KeyEntry.value = some e.value
  rw [hfind]
  rfl

namespace Journal

theorem keyNames_differ_entry :
    ∃ t, (Declaration.ofItem entry).codedType? = some t ∧
      t.keys.declaration t.visibility ∈ (Declaration.ofItem entry).expand.generated ∧
      ((t.keys.entries.map KeyEntry.name).Nodup ↔ ¬ t.Clashes) ∧
      (¬ t.Clashes → ∀ e ∈ t.keys.entries, t.keys.text? e.variant = some e.value) := by
  have hconforms : (Declaration.ofItem entry).conforms .decode = true := by decide +kernel
  have hnames : (Declaration.ofItem entry).NamesDiffer :=
    ⟨by decide +kernel, by decide +kernel, by decide +kernel, by decide +kernel⟩
  exact Declaration.keyNames_differ_iff_not_clashes (by decide +kernel) hconforms rfl (.inr rfl)
    hnames

/-- A note with a text, and a variant that is named like the key of the text. -/
def twice : Item :=
  ⟨[.marker "codable" []], [], .enum [Make.ident "enum"] (Make.ident "Twice") .none
    [⟨[], Make.ident "Note", .named [field [] "text" [Make.ident "String"]] .made, [], Make.op ","⟩,
      ⟨[], Make.ident "Note__text", .unit, [], Make.op ","⟩] .made⟩

/-- The declaration is accepted although its key enum has one variant twice. -/
theorem keyNames_repeat_twice :
    (Declaration.ofItem twice).expand.outcome = .accepted ∧
    (Declaration.ofItem twice).conforms .decode = true ∧
    (Declaration.ofItem twice).conforms .encode = true ∧ (Declaration.ofItem twice).NamesDiffer ∧
    ∃ t, (Declaration.ofItem twice).codedType? = some t ∧
      t.keys.declaration t.visibility ∈ (Declaration.ofItem twice).expand.generated ∧
      ¬ (t.keys.entries.map KeyEntry.variant).Nodup := by
  have haccepted : (Declaration.ofItem twice).expand.outcome = .accepted := by decide +kernel
  have hconforms : (Declaration.ofItem twice).conforms .decode = true := by decide +kernel
  refine ⟨haccepted, hconforms, by decide +kernel, ?_, ?_⟩
  · exact ⟨by decide +kernel, by decide +kernel, by decide +kernel, by decide +kernel⟩
  · obtain ⟨t, hcoded, hgenerated⟩ :=
      Declaration.exists_keys_of_accepted haccepted hconforms rfl (.inr rfl)
    have hvariants : (Declaration.ofItem twice).codedType?.map
        (fun t => t.keys.entries.map KeyEntry.variant) =
        some ["Note", "Note__text", "Note__text"] := by decide +kernel
    rw [hcoded, Option.map_some, Option.some.injEq] at hvariants
    refine ⟨t, hcoded, hgenerated, ?_⟩
    rw [hvariants]
    decide

end Journal

end KeyedCoding
