import KeyedCoding.Proofs.Derivation.Derived
import KeyedCoding.Proofs.Derivation.Options

/-!
# Declarations that are accepted

Expansion checks the attributes of every target, reads the same attributes again to build the code,
and compares the keys that come out.  `Declaration.WellFormed` says when a declaration is accepted
without any of this: all its targets are sound, and where a protocol is asked for, the texts on the
wire differ in every scope.  Building therefore never finds a fault of its own in attributes that
the rules let pass.
-/

namespace KeyedCoding

open Attribute Diagnostic Expanding

/-! ## Texts on the wire -/

namespace StoredMember

/-- Whether a member takes part in coding in neither direction. -/
def unused (m : StoredMember) : Bool :=
  has .ignoreCoding m.attributes ||
    (has .ignoreDecoding m.attributes && has .ignoreEncoding m.attributes)

/-- Whether the member is read when its type is decoded. -/
def isRead (m : StoredMember) : Bool :=
  !(has .ignoreCoding m.attributes || has .ignoreDecoding m.attributes)

/-- Whether the member is written when its type is encoded. -/
def isWritten (m : StoredMember) : Bool :=
  !(has .ignoreCoding m.attributes || has .ignoreEncoding m.attributes)

/-- The default of the member, if it is given one. -/
def default? (m : StoredMember) : Option Expression :=
  asked .defaultValue expressionArgument m.attributes

/-- The expression that stands for a member where it is not given: its default, or else its initial
value. -/
def preset? (m : StoredMember) : Option Expression :=
  asked .defaultValue expressionArgument m.attributes <|>
    asked .initial expressionArgument m.attributes

/-- The path of the helper that codes the member, if there is one. -/
def helperPath? (m : StoredMember) : Option Tokens := asked .codedBy pathArgument m.attributes

/-- The text of a member on the wire: the one it is given, or its name as the strategy writes it.
A position is not a name. -/
def wireKey (s : KeyStrategy) (m : StoredMember) : String :=
  (asked .codedAt keyArgument m.attributes).getD (if m.named then s.apply m.name else m.name)

/-- The texts of the members that take part in coding. -/
def wireKeys (s : KeyStrategy) (members : List StoredMember) : List String :=
  (members.filter fun m => !m.unused).map (wireKey s)

end StoredMember

/-- The text of a variant on the wire: the one it is given, or its name as the strategy writes
it. -/
def DeclaredVariant.wireKey (s : KeyStrategy) (v : DeclaredVariant) : String :=
  (asked .codedAs keyArgument v.attributes).getD (s.apply v.ident)

namespace Declaration

/-- The strategy for names without a given key. -/
def strategy (d : Declaration) : KeyStrategy :=
  (asked .codingKeys Attribute.strategy d.attributes).getD .verbatim

/-- The texts that stand beside each other on the wire, scope by scope. -/
def keyScopes (d : Declaration) : List (List String) :=
  match d.ident, d.kind with
  | some _, .struct => [StoredMember.wireKeys d.strategy d.members]
  | some _, .enum =>
      d.variants.map (DeclaredVariant.wireKey d.strategy) ::
        d.variants.map fun v => StoredMember.wireKeys d.strategy v.members
  | _, _ => []

/-- Some protocol is found among those that coding is asked for with. -/
def AsksForProtocol (d : Declaration) : Prop :=
  ∃ protocols, asked .codable Attribute.protocols d.attributes = some protocols ∧
    ∃ direction : Direction, (findProtocol direction.protocol protocols).isSome = true

/-- Every target of a declaration is sound. -/
def Sound (d : Declaration) : Prop := ∀ t ∈ d.targets, t.Sound

/-- A declaration with nothing to object to. -/
structure WellFormed (d : Declaration) : Prop where
  sound : d.Sound
  /-- Where something is coded, no text stands for two members or two variants of a scope. -/
  distinct : d.AsksForProtocol → ∀ scope ∈ d.keyScopes, scope.Nodup

end Declaration

/-! ## Reading the attributes of a sound declaration -/

theorem Target.Sound.all_understood {t : Target} (h : t.Sound) :
    ∀ a ∈ t.attributes, a.Understood :=
  h.understood

theorem CodedMember.exists_ofStored_ok {m : StoredMember} (h : m.target.Sound)
    (keyVariant : String) (s : KeyStrategy) : ∃ c, ofStored m keyVariant s = .ok c := by
  obtain ⟨o, ho⟩ := MemberOptions.exists_ofAttributes_ok h.all_understood
  have ho : MemberOptions.ofAttributes m.attributes = .ok o := ho
  exact ⟨_, by rw [ofStored, ho]; rfl⟩

theorem CodedCase.exists_ofVariant_ok {v : DeclaredVariant} (h : ∀ t ∈ v.targets, t.Sound)
    (s : KeyStrategy) : ∃ c, ofVariant v s = .ok c := by
  rw [DeclaredVariant.targets, List.forall_mem_cons] at h
  obtain ⟨o, ho⟩ := VariantOptions.exists_ofAttributes_ok h.1.all_understood
  have ho : VariantOptions.ofAttributes v.attributes = .ok o := ho
  have hmembers : ∀ m ∈ v.members, m.target.Sound := fun m hm =>
    h.2 m.target (List.mem_map_of_mem hm)
  obtain ⟨cs, hcs⟩ := exists_mapM_eq_ok_iff.mpr fun m hm =>
    CodedMember.exists_ofStored_ok (hmembers m hm) (Identifier.unmarked v.ident ++ "__" ++ m.name) s
  exact ⟨_, by rw [ofVariant, ho]; simp only [bind, Except.bind]; rw [hcs]⟩

namespace Declaration

variable {d : Declaration}

theorem Sound.attributes (h : d.Sound) : ∀ a ∈ d.attributes, a.Understood := by
  have htarget : (⟨d.kind, d.typeName, d.attributes⟩ : Target).Sound := h _ (by simp [targets])
  exact htarget.all_understood

theorem Sound.member (h : d.Sound) {m : StoredMember} (hm : m ∈ d.members) : m.target.Sound :=
  h _ (by simp only [targets, List.mem_append, List.mem_cons]
          exact .inl (.inr (List.mem_map_of_mem hm)))

theorem Sound.variant (h : d.Sound) {v : DeclaredVariant} (hv : v ∈ d.variants) :
    ∀ t ∈ v.targets, t.Sound := fun t ht =>
  h t (by simp only [targets, List.mem_append, List.mem_flatMap]
          exact .inr ⟨v, hv, ht⟩)

theorem Sound.exists_containerOptions (h : d.Sound) :
    ∃ o, ContainerOptions.ofAttributes d.attributes = .ok o :=
  ContainerOptions.exists_ofAttributes_ok h.attributes

theorem Sound.exists_initializer (h : d.Sound) : ∃ i, Initializer.ofDeclaration d = .ok i := by
  unfold Initializer.ofDeclaration
  cases d.ident with
  | none => exact ⟨none, rfl⟩
  | some ident =>
      have hmembers : ∀ m ∈ d.members, ∃ p, InitParameter.ofMember m = .ok p := by
        intro m hm
        obtain ⟨o, ho⟩ := MemberOptions.exists_ofAttributes_ok (h.member hm).all_understood
        have ho : MemberOptions.ofAttributes m.attributes = .ok o := ho
        exact ⟨_, by rw [InitParameter.ofMember, ho]; rfl⟩
      obtain ⟨parameters, hparameters⟩ := exists_mapM_eq_ok_iff.mpr hmembers
      exact ⟨_, by rw [hparameters]; rfl⟩

theorem Sound.exists_codedType (h : d.Sound) (s : KeyStrategy) :
    ∃ t, CodedType.ofDeclaration d s = .ok t := by
  unfold CodedType.ofDeclaration
  split
  · obtain ⟨members, hmembers⟩ := exists_mapM_eq_ok_iff.mpr fun m hm =>
      CodedMember.exists_ofStored_ok (h.member hm) m.ident s
    exact ⟨_, by rw [hmembers]; rfl⟩
  · obtain ⟨cases, hcases⟩ := exists_mapM_eq_ok_iff.mpr fun v hv =>
      CodedCase.exists_ofVariant_ok (h.variant hv) s
    exact ⟨_, by rw [hcases]; rfl⟩
  · exact ⟨none, rfl⟩

end Declaration

/-! ## The keys that come out -/

namespace CodedMember

/-- A coded member has the text of its stored member, and takes part in coding if that does. -/
theorem wireKey_of_ofStored {m : StoredMember} {keyVariant : String} {s : KeyStrategy}
    {c : CodedMember} (h : ofStored m keyVariant s = .ok c) :
    c.key.value = m.wireKey s ∧ c.coded = !m.unused := by
  obtain ⟨o, ho, h⟩ := bind_eq_ok_iff.mp h
  cases h
  have hoptions := MemberOptions.ofAttributes_eq_ok ho
  constructor
  · have hkey : o.key.map GivenKey.key = asked .codedAt keyArgument m.attributes := by
      rw [hoptions]
      exact map_key_asked _ _
    rw [StoredMember.wireKey, ← hkey]
    cases o.key <;> rfl
  · show (!o.ignored) = !m.unused
    rw [hoptions, MemberOptions.ignored, StoredMember.unused]
    -- being ignored altogether counts for both directions
    cases has .ignoreCoding m.attributes <;> rfl

/-- The keys of coded members are the texts of their stored members. -/
theorem map_value_keysOf {s : KeyStrategy} {name : StoredMember → String}
    {members : List StoredMember} {coded : List CodedMember}
    (h : List.Forall₂ (fun m c => ofStored m (name m) s = .ok c) members coded) :
    (keysOf coded).map KeyEntry.value = StoredMember.wireKeys s members := by
  induction h with
  | nil => rfl
  | @cons m c members coded hm _ ih =>
      obtain ⟨hkey, hcoded⟩ := wireKey_of_ofStored hm
      simp only [keysOf, StoredMember.wireKeys, List.filter_cons, hcoded] at ih ⊢
      cases m.unused with
      | true => simpa using ih
      | false => simpa [hkey] using ih

end CodedMember

/-- The key of a case is the text of its variant, and so are the keys of its members. -/
theorem CodedCase.wireKey_of_ofVariant {v : DeclaredVariant} {s : KeyStrategy} {c : CodedCase}
    (h : ofVariant v s = .ok c) :
    c.key.value = v.wireKey s ∧
      (CodedMember.keysOf c.members).map KeyEntry.value = StoredMember.wireKeys s v.members := by
  obtain ⟨o, ho, h⟩ := bind_eq_ok_iff.mp h
  obtain ⟨members, hmembers, h⟩ := bind_eq_ok_iff.mp h
  cases h
  constructor
  · have hkey : o.key.map GivenKey.key = asked .codedAs keyArgument v.attributes := by
      rw [VariantOptions.ofAttributes_eq_ok ho]
      exact map_key_asked _ _
    rw [DeclaredVariant.wireKey, ← hkey]
    cases o.key <;> rfl
  · exact CodedMember.map_value_keysOf (mapM_eq_ok_iff.mp hmembers)

namespace CodedType

variable {d : Declaration}

/-- The scopes of a coded type hold the texts of the scopes of its declaration. -/
theorem map_value_scopes {t : CodedType} (h : ofDeclaration d d.strategy = .ok (some t)) :
    t.scopes.map (List.map KeyEntry.value) = d.keyScopes := by
  unfold Declaration.keyScopes
  split
  · next hident hkind =>
    simp only [ofDeclaration, hident, hkind] at h
    obtain ⟨members, hmembers, h⟩ := bind_eq_ok_iff.mp h
    cases h
    have hkeys := CodedMember.map_value_keysOf (mapM_eq_ok_iff.mp hmembers)
    simp only [scopes, List.map_cons, List.map_nil, hkeys]
  · next hident hkind =>
    simp only [ofDeclaration, hident, hkind] at h
    obtain ⟨cases, hcases, h⟩ := bind_eq_ok_iff.mp h
    cases h
    have hmade := (mapM_eq_ok_iff.mp hcases).imp fun _ _ => CodedCase.wireKey_of_ofVariant
    have hown : cases.map (fun c => c.key.value) =
        d.variants.map (DeclaredVariant.wireKey d.strategy) :=
      map_eq_map_of_forall₂ (hmade.imp fun _ _ hc => hc.1)
    have hmembers : cases.map (fun c => (CodedMember.keysOf c.members).map KeyEntry.value) =
        d.variants.map fun v => StoredMember.wireKeys d.strategy v.members :=
      map_eq_map_of_forall₂ (hmade.imp fun _ _ hc => hc.2)
    simp only [scopes, List.map_cons, List.map_map]
    exact congrArg₂ List.cons hown hmembers
  · next hstruct henum =>
    unfold ofDeclaration at h
    split at h
    · next hident hkind => exact absurd hkind (hstruct _ hident)
    · next hident hkind => exact absurd hkind (henum _ hident)
    · cases h

/-- What is not coded has no scopes. -/
theorem keyScopes_eq_nil {s : KeyStrategy} (h : ofDeclaration d s = .ok none) :
    d.keyScopes = [] := by
  unfold Declaration.keyScopes
  split
  · next hident hkind =>
    simp only [ofDeclaration, hident, hkind] at h
    obtain ⟨_, _, h⟩ := bind_eq_ok_iff.mp h
    cases h
  · next hident hkind =>
    simp only [ofDeclaration, hident, hkind] at h
    obtain ⟨_, _, h⟩ := bind_eq_ok_iff.mp h
    cases h
  · rfl

/-- The key findings of a coded type reject nothing exactly if the texts of its declaration
differ. -/
theorem harmless_keyFindings {t : CodedType} (h : ofDeclaration d d.strategy = .ok (some t)) :
    Harmless t.keyFindings ↔ ∀ scope ∈ d.keyScopes, scope.Nodup := by
  have hnil : Harmless t.keyFindings ↔ t.keyFindings = [] := by
    constructor
    · intro hharmless
      refine List.eq_nil_iff_forall_not_mem.mpr fun finding hfinding => ?_
      have hquiet := List.any_eq_false.mp hharmless finding hfinding
      exact hquiet (isError_of_mem_keyFindings hfinding)
    · intro hnil
      rw [hnil]
      exact harmless_nil
  rw [hnil, keyFindings_eq_nil_iff, ← map_value_scopes h]
  simp

end CodedType

/-! ## Building -/

namespace Declaration

variable {d : Declaration}

theorem ofDeclaration_of_codedType? {t : CodedType} (h : d.codedType? = some t) :
    CodedType.ofDeclaration d d.strategy = .ok (some t) := by
  obtain ⟨o, ho, ht⟩ := codedType?_eq_some h
  have hstrategy : o.strategy = d.strategy := by
    rw [ContainerOptions.ofAttributes_eq_ok ho]
    rfl
  rw [← hstrategy]
  exact ht

/-- The initializer of a sound declaration adds no finding. -/
theorem Sound.quiet_initializerCode (h : d.Sound) (o : ContainerOptions) :
    Quiet (d.initializerCode o) := by
  obtain ⟨i, hi⟩ := h.exists_initializer
  unfold initializerCode
  rw [hi]
  cases o.memberInit with
  | false => exact quiet_pure _
  | true => cases i <;> exact quiet_pure _

/-- Code for protocols of which none is found adds no finding. -/
theorem quiet_codingCode {t : CodedType} {protocols : List Tokens}
    (h : CodedType.requested protocols = false) : Quiet (codingCode t protocols) := by
  have hkeys : Quiet (t.keyDeclarations protocols) := by
    unfold CodedType.keyDeclarations
    rw [h]
    exact quiet_pure _
  exact hkeys.bind fun _ => (t.detached_synthesize .decode protocols).quiet.bind fun _ =>
    (t.detached_synthesize .encode protocols).quiet.bind fun _ => quiet_pure _

theorem requested_iff {protocols : List Tokens} :
    CodedType.requested protocols = true ↔
      ∃ direction : Direction, (findProtocol direction.protocol protocols).isSome = true := by
  rw [CodedType.requested, Bool.or_eq_true_iff]
  constructor
  · rintro (h | h)
    · exact ⟨.decode, h⟩
    · exact ⟨.encode, h⟩
  · rintro ⟨direction, h⟩
    cases direction with
    | decode => exact .inl h
    | encode => exact .inr h

/-- Building the code of a sound declaration that asks for no protocol reports nothing. -/
theorem Sound.build_diagnostics_of_not_asks (h : d.Sound) (hasks : ¬ d.AsksForProtocol)
    (c : Context) : (d.build c).2.diagnostics = c.diagnostics := by
  obtain ⟨o, ho⟩ := h.exists_containerOptions
  have hoptions := ContainerOptions.ofAttributes_eq_ok ho
  have hstrategy : o.strategy = d.strategy := by
    rw [hoptions]
    rfl
  have hfirst : (d.initializerCode o c).2.diagnostics = c.diagnostics :=
    h.quiet_initializerCode o c
  obtain ⟨made, hmade⟩ := h.exists_codedType d.strategy
  cases hasked : asked .codable Attribute.protocols d.attributes with
  | none =>
      have hprotocols : o.protocols = none := by rw [hoptions, hasked]
      have hbuild : (d.build c).2.diagnostics = (d.initializerCode o c).2.diagnostics := by
        simp only [build, ho, hprotocols]
        rfl
      rw [hbuild, hfirst]
  | some protocols =>
      have hprotocols : o.protocols = some protocols := by rw [hoptions, hasked]
      have hrequested : CodedType.requested protocols = false := by
        rw [← Bool.not_eq_true, requested_iff]
        exact fun hfound => hasks ⟨protocols, hasked, hfound⟩
      cases made with
      | none =>
          have hbuild : (d.build c).2.diagnostics = (d.initializerCode o c).2.diagnostics := by
            simp only [build, ho, hprotocols, hstrategy, hmade]
            rfl
          rw [hbuild, hfirst]
      | some t =>
          have hbuild : (d.build c).2.diagnostics =
              (codingCode t protocols (d.initializerCode o c).2).2.diagnostics := by
            simp only [build, ho, hprotocols, hstrategy, hmade]
            rfl
          rw [hbuild, quiet_codingCode hrequested, hfirst]

/-- Building the code of a sound declaration that asks for a protocol reports the key findings of
its coded type, if it has one. -/
theorem Sound.build_diagnostics_of_asks (h : d.Sound) (hasks : d.AsksForProtocol) :
    ∃ made, CodedType.ofDeclaration d d.strategy = .ok made ∧ ∀ c,
      (d.build c).2.diagnostics = c.diagnostics ++ (made.map CodedType.keyFindings).getD [] := by
  obtain ⟨protocols, hasked, hfound⟩ := hasks
  have hrequested : CodedType.requested protocols = true := requested_iff.mpr hfound
  obtain ⟨o, ho⟩ := h.exists_containerOptions
  have hoptions := ContainerOptions.ofAttributes_eq_ok ho
  have hprotocols : o.protocols = some protocols := by rw [hoptions, hasked]
  have hstrategy : o.strategy = d.strategy := by
    rw [hoptions]
    rfl
  obtain ⟨made, hmade⟩ := h.exists_codedType d.strategy
  refine ⟨made, hmade, fun c => ?_⟩
  have hfirst : (d.initializerCode o c).2.diagnostics = c.diagnostics :=
    h.quiet_initializerCode o c
  cases made with
  | none =>
      have hbuild : (d.build c).2.diagnostics = (d.initializerCode o c).2.diagnostics := by
        simp only [build, ho, hprotocols, hstrategy, hmade]
        rfl
      rw [hbuild, hfirst]
      exact (List.append_nil _).symm
  | some t =>
      have hbuild : (d.build c).2.diagnostics =
          (codingCode t protocols (d.initializerCode o c).2).2.diagnostics := by
        simp only [build, ho, hprotocols, hstrategy, hmade]
        rfl
      rw [hbuild, codingCode_diagnostics hrequested, hfirst]
      rfl

/-- The code that a sound declaration asks for is built without an error exactly if its texts
differ wherever a protocol is asked for. -/
theorem Sound.harmless_build_iff (h : d.Sound) {c : Context} (hc : Harmless c.diagnostics) :
    Harmless (d.build c).2.diagnostics ↔
      (d.AsksForProtocol → ∀ scope ∈ d.keyScopes, scope.Nodup) := by
  by_cases hasks : d.AsksForProtocol
  · obtain ⟨made, hmade, hbuild⟩ := h.build_diagnostics_of_asks hasks
    cases made with
    | none => simp [hbuild, hc, CodedType.keyScopes_eq_nil hmade]
    | some t =>
        have hkeys := CodedType.harmless_keyFindings hmade
        simp [hbuild, hkeys, hc, hasks]
  · rw [h.build_diagnostics_of_not_asks hasks c]
    simp [hc, hasks]

theorem harmless_findings_iff : Harmless d.findings ↔ d.Sound := by
  simp only [findings, harmless_flatMap, Known.harmless_findings_iff_sound, Sound]

/-- Errors of the rules leave nothing but themselves. -/
theorem expand_of_findings (h : ¬ Harmless d.findings) :
    d.expand = ⟨d.item.stripped, [], d.findings, .rejected⟩ := by
  have hchecked : (⟨0, d.findings⟩ : Context).hasErrors = true := by
    rw [← Bool.not_eq_false]
    exact h
  simp [expand, hchecked]

/-- Errors found while building leave no code. -/
theorem expand_of_build_findings (h : Harmless d.findings)
    (hbuild : ¬ Harmless (d.build ⟨0, d.findings⟩).2.diagnostics) :
    d.expand =
      ⟨d.item.stripped, [], (d.build ⟨0, d.findings⟩).2.diagnostics, .rejected⟩ := by
  have hchecked : (⟨0, d.findings⟩ : Context).hasErrors = false := h
  have hfinal : (d.build ⟨0, d.findings⟩).2.hasErrors = true := by
    rw [← Bool.not_eq_false]
    exact hbuild
  simp [expand, hchecked, hfinal]

/-- Without errors the code that is built is given back. -/
theorem expand_of_harmless (h : Harmless d.findings)
    (hbuild : Harmless (d.build ⟨0, d.findings⟩).2.diagnostics) :
    d.expand = ⟨d.item.stripped, (d.build ⟨0, d.findings⟩).1,
      (d.build ⟨0, d.findings⟩).2.diagnostics, .accepted⟩ := by
  have hchecked : (⟨0, d.findings⟩ : Context).hasErrors = false := h
  have hfinal : (d.build ⟨0, d.findings⟩).2.hasErrors = false := hbuild
  simp [expand, hchecked, hfinal]

/-- A declaration is accepted exactly if neither its rules nor the building of its code find an
error; otherwise it has no code. -/
theorem expand_cases (d : Declaration) :
    (d.expand.outcome = .accepted ∧ Harmless d.findings ∧
      Harmless (d.build ⟨0, d.findings⟩).2.diagnostics) ∨
    (d.expand.outcome = .rejected ∧ d.expand.generated = [] ∧
      ¬ (Harmless d.findings ∧ Harmless (d.build ⟨0, d.findings⟩).2.diagnostics)) := by
  by_cases hfindings : Harmless d.findings
  · by_cases hbuild : Harmless (d.build ⟨0, d.findings⟩).2.diagnostics
    · rw [expand_of_harmless hfindings hbuild]
      exact .inl ⟨rfl, hfindings, hbuild⟩
    · rw [expand_of_build_findings hfindings hbuild]
      exact .inr ⟨rfl, rfl, fun h => hbuild h.2⟩
  · rw [expand_of_findings hfindings]
    exact .inr ⟨rfl, rfl, fun h => hfindings h.1⟩

/-- A declaration is accepted exactly if its targets are sound and the texts of every scope differ
wherever a protocol is asked for. -/
theorem accepted_iff : d.expand.outcome = .accepted ↔
    d.Sound ∧ (d.AsksForProtocol → ∀ scope ∈ d.keyScopes, scope.Nodup) := by
  rcases expand_cases d with ⟨houtcome, hfindings, hbuild⟩ | ⟨houtcome, -, hharmful⟩
  · have hsound := harmless_findings_iff.mp hfindings
    exact iff_of_true houtcome ⟨hsound, (hsound.harmless_build_iff hfindings).mp hbuild⟩
  · simp only [houtcome, reduceCtorEq, false_iff]
    rintro ⟨hsound, hdistinct⟩
    have hfindings := harmless_findings_iff.mpr hsound
    exact hharmful ⟨hfindings, (hsound.harmless_build_iff hfindings).mpr hdistinct⟩

/-- Expansion accepts exactly the well-formed declarations.  Once the rules let the attributes
pass, reading them again does not fail, and nothing is generated for what is rejected. -/
theorem accepted_iff_wellFormed (d : Declaration) :
    (d.expand.outcome = .accepted ↔ d.WellFormed) ∧
    (d.Sound → (∃ o, ContainerOptions.ofAttributes d.attributes = .ok o) ∧
      (∃ i, Initializer.ofDeclaration d = .ok i) ∧
      ∀ s, ∃ t, CodedType.ofDeclaration d s = .ok t) ∧
    (d.expand.outcome = .rejected → d.expand.generated = []) := by
  have hwellFormed : d.WellFormed ↔
      d.Sound ∧ (d.AsksForProtocol → ∀ scope ∈ d.keyScopes, scope.Nodup) :=
    ⟨fun h => ⟨h.sound, h.distinct⟩, fun h => ⟨h.1, h.2⟩⟩
  refine ⟨accepted_iff.trans hwellFormed.symm,
    fun h => ⟨h.exists_containerOptions, h.exists_initializer, h.exists_codedType⟩, ?_⟩
  intro hrejected
  rcases expand_cases d with ⟨houtcome, -⟩ | ⟨-, hgenerated, -⟩
  · rw [houtcome] at hrejected
    cases hrejected
  · exact hgenerated

end Declaration

/-- The entries of a journal are declared in a well-formed way. -/
theorem Journal.entry_wellFormed :
    (Declaration.ofItem Journal.entry).expand.outcome = .accepted ∧
      (Declaration.ofItem Journal.entry).WellFormed := by
  have haccepted : (Declaration.ofItem Journal.entry).expand.outcome = .accepted := by
    decide +kernel
  exact ⟨haccepted, (Declaration.accepted_iff_wellFormed _).1.mp haccepted⟩

end KeyedCoding
