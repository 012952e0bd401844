import KeyedCoding.Proofs.Derivation.Collisions

/-!
# Declarations that differ in attributes

Code is put together from options, not from attributes, and nothing but a finding shows where a
member stands: a coded type may forget the attributes and the spans of its fields (`CodedType.bare`)
and an initializer those of its members (`Initializer.bare`) without a change to what is printed.
`Declaration.DiffersBy` relates declarations that are the same but for their attributes, target by
target.  If the attributes ask for the same, the two are built alike; then what is reported about
them differs in the findings of their rules alone.
-/

namespace KeyedCoding

open Attribute Diagnostic Expanding

/-! ## Forgetting attributes and spans -/

/-- The finding without its span. -/
def Diagnostic.unplaced (finding : Diagnostic) : Diagnostic := { finding with span := .made }

namespace KeyEntry

/-- The entry without its span. -/
def unplaced (e : KeyEntry) : KeyEntry := { e with span := .made }

theorem collisionsFrom_unplaced (typeName : String) (seen entries : List KeyEntry) :
    collisionsFrom typeName (seen.map unplaced) (entries.map unplaced) =
      (collisionsFrom typeName seen entries).map Diagnostic.unplaced := by
  induction entries generalizing seen with
  | nil => rfl
  | cons entry rest ih =>
      -- the first holder of a key is found by its text, which is kept
      have hfind : (seen.map unplaced).find? (fun e => e.value == entry.unplaced.value) =
          (seen.find? fun e => e.value == entry.value).map unplaced := List.find?_map
      rw [List.map_cons, collisionsFrom, collisionsFrom, hfind]
      cases seen.find? fun e => e.value == entry.value with
      | some first => exact congrArg (List.cons _) (ih seen)
      | none =>
          have hseen : seen.map unplaced ++ [entry.unplaced] = (seen ++ [entry]).map unplaced := by
            rw [List.map_append, List.map_singleton]
          rw [Option.map_none, hseen]
          exact ih (seen ++ [entry])

end KeyEntry

/-- The member without its attributes and its span. -/
def StoredMember.bare (m : StoredMember) : StoredMember :=
  { m with attributes := [], span := .made }

namespace CodedMember

/-- The coded member without the attributes and the span of its field; what the attributes ask for
is kept. -/
def bare (m : CodedMember) : CodedMember :=
  { m with stored := m.stored.bare, key := m.key.unplaced }

theorem keysOf_bare (members : List CodedMember) :
    keysOf (members.map bare) = (keysOf members).map KeyEntry.unplaced := by
  rw [keysOf, List.filter_map, List.map_map, keysOf, List.map_map]
  rfl

theorem bindings_bare (keys container : String) (members : List CodedMember) :
    bindings keys container (members.map bare) = bindings keys container members := by
  induction members with
  | nil => rfl
  | cons m rest ih =>
      rw [List.map_cons, bindings, bindings, ih]
      rfl

theorem writings_bare (access : CodedMember → Tokens) (haccess : ∀ m, access (bare m) = access m)
    (keys container : String) (members : List CodedMember) :
    writings keys container access (members.map bare) =
      writings keys container access members := by
  rw [writings, writings, List.filter_map, List.map_map]
  refine List.map_congr_left fun m _ => ?_
  simp only [Function.comp_apply, haccess]
  rfl

theorem construction_bare (path : Tokens) (style : FieldStyle) (members : List CodedMember) :
    construction path style (members.map bare) = construction path style members := by
  rw [construction, List.map_map]
  rfl

theorem pattern_bare (path : Tokens) (style : FieldStyle) (members : List CodedMember) :
    pattern path style (members.map bare) = pattern path style members := by
  rw [pattern, List.map_map]
  rfl

end CodedMember

namespace CodedCase

/-- The case without its span and the attributes and spans of its fields. -/
def bare (c : CodedCase) : CodedCase :=
  { c with key := c.key.unplaced, members := c.members.map CodedMember.bare }

theorem decodeArm_bare (keys : String) (c : CodedCase) :
    c.bare.decodeArm keys = c.decodeArm keys := by
  unfold decodeArm
  simp only [bare, CodedMember.bindings_bare, CodedMember.construction_bare]
  rfl

theorem encodeArm_bare (keys : String) (c : CodedCase) :
    c.bare.encodeArm keys = c.encodeArm keys := by
  have hwritings :=
    CodedMember.writings_bare (fun m => [Make.ident m.stored.ident]) fun _ => rfl
  unfold encodeArm
  simp only [bare, CodedMember.pattern_bare, hwritings]
  rfl

theorem decodeArms_bare (keys : String) (cases : List CodedCase) :
    decodeArms keys (cases.map bare) = decodeArms keys cases := by
  induction cases with
  | nil => rfl
  | cons c rest ih => rw [List.map_cons, decodeArms, decodeArms, decodeArm_bare, ih]

theorem encodeArms_bare (keys : String) (cases : List CodedCase) :
    encodeArms keys (cases.map bare) = encodeArms keys cases := by
  induction cases with
  | nil => rfl
  | cons c rest ih => rw [List.map_cons, encodeArms, encodeArms, encodeArm_bare, ih]

end CodedCase

/-- The members or cases without spans and the attributes of their fields. -/
def CodedBody.bare : CodedBody → CodedBody
  | struct style members => struct style (members.map CodedMember.bare)
  | enum cases => enum (cases.map CodedCase.bare)

namespace CodedType

/-- The coded type without spans and the attributes of its fields. -/
def bare (t : CodedType) : CodedType := { t with body := t.body.bare }

theorem scopes_bare (t : CodedType) :
    t.bare.scopes = t.scopes.map (List.map KeyEntry.unplaced) := by
  obtain ⟨ident, visibility, generics, body⟩ := t
  cases body with
  | struct style members =>
      simp only [scopes, bare, CodedBody.bare, CodedMember.keysOf_bare, List.map_cons, List.map_nil]
  | enum cases =>
      simp only [scopes, bare, CodedBody.bare, List.map_cons, List.map_map]
      refine congrArg₂ List.cons rfl (List.map_congr_left fun c _ => ?_)
      exact CodedMember.keysOf_bare c.members

/-- Forgetting spans changes nothing else about what is found wrong with the keys. -/
theorem keyFindings_bare (t : CodedType) :
    t.bare.keyFindings = t.keyFindings.map Diagnostic.unplaced := by
  rw [keyFindings, keyFindings, scopes_bare, List.flatMap_map, List.map_flatMap]
  exact List.flatMap_congr fun scope _ => KeyEntry.collisionsFrom_unplaced t.ident [] scope

/-- What a coded type forgets about its findings is what they say about places. -/
theorem map_unplaced_keyFindings (made : Option CodedType) :
    ((made.map keyFindings).getD []).map Diagnostic.unplaced =
      ((made.map bare).map keyFindings).getD [] := by
  cases made with
  | none => rfl
  | some t => exact t.keyFindings_bare.symm

theorem entries_bare (t : CodedType) :
    t.bare.keys.entries = t.keys.entries.map KeyEntry.unplaced := by
  obtain ⟨ident, visibility, generics, body⟩ := t
  cases body with
  | struct style members => exact CodedMember.keysOf_bare members
  | enum cases =>
      simp only [keys, bare, CodedBody.bare, List.flatMap_map, List.map_flatMap]
      refine List.flatMap_congr fun c _ => ?_
      exact congrArg (List.cons c.key.unplaced) (CodedMember.keysOf_bare c.members)

theorem declaration_bare (t : CodedType) (visibility : Tokens) :
    t.bare.keys.declaration visibility = t.keys.declaration visibility := by
  unfold KeyEnum.declaration
  simp only [entries_bare, List.map_map]
  rfl

theorem decodeBody_bare (t : CodedType) : t.bare.decodeBody = t.decodeBody := by
  obtain ⟨ident, visibility, generics, body⟩ := t
  cases body with
  | struct style members =>
      simp only [decodeBody, bare, CodedBody.bare, CodedMember.bindings_bare,
        CodedMember.construction_bare]
      rfl
  | enum cases =>
      simp only [decodeBody, bare, CodedBody.bare, CodedCase.decodeArms_bare]
      rfl

theorem encodeBody_bare (t : CodedType) : t.bare.encodeBody = t.encodeBody := by
  have hwritings := CodedMember.writings_bare
    (fun m => Make.op "&" ++ Make.ident "self" :: Make.op "." ++ m.stored.accessor) fun _ => rfl
  obtain ⟨ident, visibility, generics, body⟩ := t
  cases body with
  | struct style members =>
      simp only [encodeBody, bare, CodedBody.bare, hwritings]
      rfl
  | enum cases =>
      cases cases with
      | nil => rfl
      | cons c rest =>
          have harms := fun keys => CodedCase.encodeArms_bare keys (c :: rest)
          simp only [List.map_cons] at harms
          simp only [encodeBody, bare, CodedBody.bare, List.map_cons, harms]
          rfl

theorem synthesize_bare (t : CodedType) (direction : Direction) (protocols : List Tokens) :
    t.bare.synthesize direction protocols = t.synthesize direction protocols := by
  unfold synthesize
  rw [decodeBody_bare, encodeBody_bare]
  rfl

end CodedType

/-- The parameter without the attributes and the span of its member. -/
def InitParameter.bare (p : InitParameter) : InitParameter := { p with member := p.member.bare }

namespace Initializer

/-- The initializer without the attributes and the spans of its members. -/
def bare (i : Initializer) : Initializer :=
  { i with parameters := i.parameters.map InitParameter.bare }

/-- The code of an initializer looks neither at the attributes of its members nor at where they
stand. -/
theorem tokens_bare (i : Initializer) : i.bare.tokens = i.tokens := by
  have hconstructed : i.bare.constructed = i.constructed := by
    unfold constructed
    simp only [bare, List.map_map]
    rfl
  have hconstructor : i.bare.constructorTokens = i.constructorTokens := by
    unfold constructorTokens
    rw [hconstructed]
    simp only [bare, List.filter_map, List.map_map]
    rfl
  unfold tokens
  rw [hconstructor]
  simp only [bare, List.filter_map, List.flatMap_map]
  rfl

end Initializer

/-! ## Steps that come to the same -/

namespace Expanding

variable {α β : Type}

/-- Two steps come to the same and draw as many names, whatever has been found before them. -/
def Alike (first second : Expanding α) : Prop := ∀ c c' : Context, c.nextName = c'.nextName →
  (first c).1 = (second c').1 ∧ (first c).2.nextName = (second c').2.nextName

theorem alike_pure (a : α) : Alike (pure a : Expanding α) (pure a) := fun _ _ h => ⟨rfl, h⟩

theorem alike_report (found found' : List Diagnostic) : Alike (report found) (report found') :=
  fun _ _ h => ⟨rfl, h⟩

theorem Detached.alike {step : Expanding α} (h : Detached step) : Alike step step := by
  rintro ⟨number, found⟩ ⟨_, found'⟩ rfl
  have hstep : step ⟨number, found⟩ = _ := h ⟨number, found'⟩ found
  rw [hstep]
  exact ⟨rfl, rfl⟩

theorem Alike.bind {first second : Expanding α} {next next' : α → Expanding β}
    (h : Alike first second) (hnext : ∀ a, Alike (next a) (next' a)) :
    Alike (first >>= next) (second >>= next') := by
  intro c c' hname
  obtain ⟨hresult, hname⟩ := h c c' hname
  show (next (first c).1 (first c).2).1 = (next' (second c').1 (second c').2).1 ∧
    (next (first c).1 (first c).2).2.nextName = (next' (second c').1 (second c').2).2.nextName
  rw [← hresult]
  exact hnext (first c).1 _ _ hname

end Expanding

/-- The code of a coded type looks neither at the attributes of its fields nor at any span. -/
theorem alike_codingCode {t t' : CodedType} (h : t.bare = t'.bare) (protocols : List Tokens) :
    Alike (Declaration.codingCode t protocols) (Declaration.codingCode t' protocols) := by
  have hdeclaration : t.keys.declaration t.visibility = t'.keys.declaration t'.visibility :=
    calc t.keys.declaration t.visibility
      _ = t.bare.keys.declaration t.bare.visibility := (t.declaration_bare t.visibility).symm
      _ = t'.bare.keys.declaration t'.bare.visibility := by rw [h]
      _ = t'.keys.declaration t'.visibility := t'.declaration_bare t'.visibility
  have hkeys : Alike (t.keyDeclarations protocols) (t'.keyDeclarations protocols) := by
    unfold CodedType.keyDeclarations
    rw [hdeclaration]
    split
    -- the findings may point elsewhere, but no later step looks at them
    · exact (alike_report _ _).bind fun _ => alike_pure _
    · exact alike_pure _
  have hsynthesize : ∀ direction,
      t.synthesize direction protocols = t'.synthesize direction protocols := fun direction => by
    rw [← t.synthesize_bare, h, t'.synthesize_bare]
  have hconformance : t.conformance = t'.conformance := by
    show t.bare.conformance = t'.bare.conformance
    rw [h]
  unfold Declaration.codingCode
  rw [hsynthesize, hsynthesize, hconformance]
  exact hkeys.bind fun _ => (t'.detached_synthesize .decode protocols).alike.bind fun _ =>
    (t'.detached_synthesize .encode protocols).alike.bind fun _ => alike_pure _

/-! ## The same declaration with other attributes -/

section Relation

variable (R : Target → List Attribute → Prop)

/-- The same target with attributes that are related to it. -/
inductive Target.DiffersBy (t : Target) : Target → Prop
  | intro {attributes' : List Attribute} (h : R t attributes') :
      DiffersBy t { t with attributes := attributes' }

/-- The same field with related attributes, so that it may stand at another place. -/
inductive StoredMember.DiffersBy (m : StoredMember) : StoredMember → Prop
  | intro {attributes' : List Attribute} {span' : Span} (h : R m.target attributes') :
      DiffersBy m { m with attributes := attributes', span := span' }

/-- The same variant with related attributes, its own and those of its fields. -/
inductive DeclaredVariant.DiffersBy (v : DeclaredVariant) : DeclaredVariant → Prop
  | intro {attributes' : List Attribute} {members' : List StoredMember} {span' : Span}
      (h : R ⟨.variant, v.ident, v.attributes⟩ attributes')
      (hmembers : List.Forall₂ (StoredMember.DiffersBy R) v.members members') :
      DiffersBy v { v with attributes := attributes', members := members', span := span' }

/-- The same declaration with related attributes at every target. -/
inductive Declaration.DiffersBy (d : Declaration) : Declaration → Prop
  | intro {attributes' : List Attribute} {members' : List StoredMember}
      {variants' : List DeclaredVariant} {item' : Item}
      (h : R ⟨d.kind, d.typeName, d.attributes⟩ attributes')
      (hmembers : List.Forall₂ (StoredMember.DiffersBy R) d.members members')
      (hvariants : List.Forall₂ (DeclaredVariant.DiffersBy R) d.variants variants') :
      DiffersBy d { d with attributes := attributes', members := members', variants := variants',
                           item := item' }

end Relation

section Targets

variable {R : Target → List Attribute → Prop}

theorem forall₂_targets_members {members members' : List StoredMember}
    (h : List.Forall₂ (StoredMember.DiffersBy R) members members') :
    List.Forall₂ (Target.DiffersBy R) (members.map StoredMember.target)
      (members'.map StoredMember.target) := by
  rw [List.forall₂_map_left_iff, List.forall₂_map_right_iff]
  refine h.imp fun m m' hm => ?_
  cases hm with
  | intro h => exact Target.DiffersBy.intro (t := m.target) h

theorem forall₂_targets_variants {variants variants' : List DeclaredVariant}
    (h : List.Forall₂ (DeclaredVariant.DiffersBy R) variants variants') :
    List.Forall₂ (Target.DiffersBy R) (variants.flatMap DeclaredVariant.targets)
      (variants'.flatMap DeclaredVariant.targets) := by
  induction h with
  | nil => exact .nil
  | cons hv _ ih =>
      rw [List.flatMap_cons, List.flatMap_cons]
      refine List.rel_append ?_ ih
      cases hv with
      | intro h hmembers => exact .cons (.intro h) (forall₂_targets_members hmembers)

/-- Declarations that differ in attributes have the same targets, one by one. -/
theorem Declaration.DiffersBy.targets {d d' : Declaration} (h : d.DiffersBy R d') :
    List.Forall₂ (Target.DiffersBy R) d.targets d'.targets := by
  cases h with
  | intro h hmembers hvariants =>
      exact List.rel_append (.cons (.intro h) (forall₂_targets_members hmembers))
        (forall₂_targets_variants hvariants)

/-- A change of attributes that keeps targets sound keeps declarations sound. -/
theorem Declaration.DiffersBy.sound {d d' : Declaration} (h : d.DiffersBy R d')
    (hkeeps : ∀ {t : Target} {attributes' : List Attribute}, t.Sound → R t attributes' →
      (⟨t.kind, t.name, attributes'⟩ : Target).Sound) (hd : d.Sound) : d'.Sound := by
  intro t' ht'
  obtain ⟨t, ht, hdiffers⟩ := exists_of_forall₂_right h.targets ht'
  cases hdiffers with
  | intro hR => exact hkeeps (hd t ht) hR

/-- On a sound declaration a change of attributes is what it is on sound targets. -/
theorem Declaration.DiffersBy.imp_of_sound {S : Target → List Attribute → Prop}
    {d d' : Declaration} (h : d.DiffersBy R d') (hd : d.Sound)
    (himp : ∀ {t : Target} {attributes' : List Attribute}, t.Sound → R t attributes' →
      S t attributes') : d.DiffersBy S d' := by
  have hinner : ∀ {members members' : List StoredMember}, (∀ m ∈ members, m.target.Sound) →
      List.Forall₂ (StoredMember.DiffersBy R) members members' →
      List.Forall₂ (StoredMember.DiffersBy S) members members' := by
    intro members members' hsound hmembers
    refine ((List.forall₂_and_left _ _).mpr ⟨hsound, hmembers⟩).imp ?_
    rintro m m' ⟨hm, hdiffers⟩
    cases hdiffers with
    | intro h => exact .intro (himp hm h)
  cases h with
  | intro h hmembers hvariants =>
      refine .intro (himp (hd _ List.mem_cons_self) h) (hinner (fun _ => hd.member) hmembers) ?_
      refine ((List.forall₂_and_left _ _).mpr ⟨fun _ => hd.variant, hvariants⟩).imp ?_
      rintro v v' ⟨hv, hdiffers⟩
      rw [DeclaredVariant.targets, List.forall_mem_cons] at hv
      cases hdiffers with
      | intro h hmembers =>
          refine .intro (himp hv.1 h) (hinner (fun m hm => ?_) hmembers)
          exact hv.2 m.target (List.mem_map_of_mem hm)

end Targets

/-! ## Attributes that ask for the same -/

/-- The attributes come to the same options as those of the target, whatever it is a target of. -/
structure Target.KeepsOptions (t : Target) (attributes' : List Attribute) : Prop where
  container : ContainerOptions.ofAttributes attributes' = ContainerOptions.ofAttributes t.attributes
  member : MemberOptions.ofAttributes attributes' = MemberOptions.ofAttributes t.attributes
  variant : VariantOptions.ofAttributes attributes' = VariantOptions.ofAttributes t.attributes

section Views

variable {ε α β γ δ : Type}

/-- Results that look alike are the same failure or two successes that look alike. -/
theorem map_eq_map_cases {x x' : Except ε α} {view : α → β} (h : x'.map view = x.map view) :
    (∃ e, x' = .error e ∧ x = .error e) ∨
      ∃ a' a, x' = .ok a' ∧ x = .ok a ∧ view a' = view a := by
  cases x with
  | error e =>
      cases x' with
      | error e' => exact .inl ⟨e, congrArg Except.error (Except.error.inj h), rfl⟩
      | ok a' => cases h
  | ok a =>
      cases x' with
      | error e' => cases h
      | ok a' => exact .inr ⟨a', a, rfl, rfl, Except.ok.inj h⟩

/-- What is made of results that look alike looks alike, if it shows only what is seen of them. -/
theorem map_bind_eq {x x' : Except ε α} {view : α → β} {next next' : α → Except ε γ}
    {seen : γ → δ} (h : x'.map view = x.map view)
    (hnext : ∀ a' a, view a' = view a → (next' a').map seen = (next a).map seen) :
    (x' >>= next').map seen = (x >>= next).map seen := by
  rcases map_eq_map_cases h with ⟨e, rfl, rfl⟩ | ⟨a', a, rfl, rfl, hview⟩
  · rfl
  · exact hnext a' a hview

/-- Looking at the results of a list is looking at each of them. -/
theorem map_mapM (f : α → Except ε β) (view : β → γ) (as : List α) :
    (as.mapM f).map (List.map view) = as.mapM fun a => (f a).map view := by
  induction as with
  | nil => rfl
  | cons a rest ih =>
      rw [List.mapM_cons, List.mapM_cons, ← ih]
      cases f a with
      | error e => rfl
      | ok b => cases rest.mapM f <;> rfl

/-- Lists of which every two results look alike come to results that look alike. -/
theorem map_mapM_eq {f : α → Except ε β} {view : β → γ} {as as' : List α}
    (h : List.Forall₂ (fun a a' => (f a').map view = (f a).map view) as as') :
    (as'.mapM f).map (List.map view) = (as.mapM f).map (List.map view) := by
  rw [map_mapM, map_mapM]
  induction h with
  | nil => rfl
  | cons ha _ ih => rw [List.mapM_cons, List.mapM_cons, ha, ih]

end Views

theorem CodedMember.ofStored_bare {m m' : StoredMember} (h : m.DiffersBy Target.KeepsOptions m')
    (keyVariant : String) (s : KeyStrategy) :
    (ofStored m' keyVariant s).map bare = (ofStored m keyVariant s).map bare := by
  cases h with
  | @intro attributes' span' h =>
      refine map_bind_eq (congrArg (Except.map id) h.member) fun o' o hsame => ?_
      obtain rfl : o' = o := hsame
      obtain ⟨key⟩ := o'
      cases key <;> rfl

theorem CodedCase.ofVariant_bare {v v' : DeclaredVariant} (h : v.DiffersBy Target.KeepsOptions v')
    (s : KeyStrategy) : (ofVariant v' s).map bare = (ofVariant v s).map bare := by
  cases h with
  | @intro attributes' members' span' h hmembers =>
      -- the variants of the key enum are named after the members, whose names are kept
      have hcoded : (members'.mapM fun m => CodedMember.ofStored m
            (Identifier.unmarked v.ident ++ "__" ++ m.name) s).map (List.map CodedMember.bare) =
          (v.members.mapM fun m => CodedMember.ofStored m
            (Identifier.unmarked v.ident ++ "__" ++ m.name) s).map (List.map CodedMember.bare) := by
        refine map_mapM_eq (hmembers.imp fun m m' hm => ?_)
        have hname : m'.name = m.name := by cases hm; rfl
        rw [hname]
        exact CodedMember.ofStored_bare hm _ s
      refine map_bind_eq (congrArg (Except.map id) h.variant) fun o' o hsame => ?_
      obtain rfl : o' = o := hsame
      obtain ⟨key⟩ := o'
      cases key with
      | none =>
          refine map_bind_eq hcoded fun coded' coded hcoded => ?_
          simp [bare, Except.map, hcoded, KeyEntry.unplaced]
      | some given =>
          refine map_bind_eq hcoded fun coded' coded hcoded => ?_
          simp [bare, Except.map, hcoded]

theorem InitParameter.ofMember_bare {m m' : StoredMember}
    (h : m.DiffersBy Target.KeepsOptions m') :
    (ofMember m').map bare = (ofMember m).map bare := by
  cases h with
  | intro h =>
      refine map_bind_eq (congrArg (Except.map id) h.member) fun o' o hsame => ?_
      obtain rfl : o' = o := hsame
      rfl

namespace Declaration.DiffersBy

variable {d d' : Declaration}

/-- The initializers of two declarations whose attributes come to the same options. -/
theorem initializer_bare (h : d.DiffersBy Target.KeepsOptions d') :
    (Initializer.ofDeclaration d').map (Option.map Initializer.bare) =
      (Initializer.ofDeclaration d).map (Option.map Initializer.bare) := by
  cases h with
  | @intro attributes' members' variants' item' h hmembers hvariants =>
      unfold Initializer.ofDeclaration
      cases d.ident with
      | none => rfl
      | some ident =>
          have hparameters :=
            map_mapM_eq (hmembers.imp fun _ _ => InitParameter.ofMember_bare)
          refine map_bind_eq hparameters fun parameters' parameters hparameters => ?_
          simp [Initializer.bare, Except.map, hparameters]

/-- The coded types of two declarations whose attributes come to the same options. -/
theorem codedType_bare (h : d.DiffersBy Target.KeepsOptions d') (s : KeyStrategy) :
    (CodedType.ofDeclaration d' s).map (Option.map CodedType.bare) =
      (CodedType.ofDeclaration d s).map (Option.map CodedType.bare) := by
  obtain ⟨kind, ident, visibility, generics, attributes, style, members, variants, item⟩ := d
  cases h with
  | intro h hmembers hvariants =>
      cases ident with
      | none => rfl
      | some ident =>
          cases kind with
          | struct =>
              have hcoded := map_mapM_eq (f := fun m => CodedMember.ofStored m m.ident s)
                (hmembers.imp fun m m' hm => by
                  have hident : m'.ident = m.ident := by cases hm; rfl
                  simp only [hident]
                  exact CodedMember.ofStored_bare hm m.ident s)
              refine map_bind_eq hcoded fun coded' coded hcoded => ?_
              simp [CodedType.bare, CodedBody.bare, Except.map, hcoded]
          | enum =>
              have hcases := map_mapM_eq (hvariants.imp fun _ _ hv => CodedCase.ofVariant_bare hv s)
              refine map_bind_eq hcases fun cases' cases hcases => ?_
              simp [CodedType.bare, CodedBody.bare, Except.map, hcases]
          | _ => rfl

theorem alike_initializerCode (h : d.DiffersBy Target.KeepsOptions d') (o : ContainerOptions) :
    Alike (d'.initializerCode o) (d.initializerCode o) := by
  unfold initializerCode
  rcases map_eq_map_cases h.initializer_bare with ⟨f, hi', hi⟩ | ⟨i', i, hi', hi, hbare⟩
  · rw [hi', hi]
    split
    · exact (alike_report _ _).bind fun _ => alike_pure _
    · exact alike_pure _
  · rw [hi', hi]
    split
    · rcases i' with - | i' <;> rcases i with - | i
      · exact alike_pure _
      · cases hbare
      · cases hbare
      · have htokens : i'.tokens = i.tokens := by
          rw [← i'.tokens_bare, Option.some.inj hbare, i.tokens_bare]
        show Alike (pure [i'.tokens]) (pure [i.tokens])
        rw [htokens]
        exact alike_pure _
    · exact alike_pure _

/-- Attributes that come to the same options ask for the same code. -/
theorem alike_build (h : d.DiffersBy Target.KeepsOptions d') : Alike d'.build d.build := by
  have hcontainer : ContainerOptions.ofAttributes d'.attributes =
      ContainerOptions.ofAttributes d.attributes := by
    cases h with
    | intro h => exact h.container
  unfold build
  rw [hcontainer]
  cases ContainerOptions.ofAttributes d.attributes with
  | error f => exact (alike_report _ _).bind fun _ => alike_pure _
  | ok o =>
      refine (h.alike_initializerCode o).bind fun first => ?_
      cases o.protocols with
      | none => exact alike_pure _
      | some protocols =>
          rcases map_eq_map_cases (h.codedType_bare o.strategy) with
            ⟨f, ht', ht⟩ | ⟨t', t, ht', ht, hbare⟩
          · rw [ht', ht]
            exact (alike_report _ _).bind fun _ => alike_pure _
          · rw [ht', ht]
            rcases t' with - | t' <;> rcases t with - | t
            · exact alike_pure _
            · cases hbare
            · cases hbare
            · exact (alike_codingCode (Option.some.inj hbare) protocols).bind fun _ => alike_pure _

/-- What building sound declarations reports beside the findings of their rules are errors, the same
but for their spans. -/
theorem build_diagnostics (h : d.DiffersBy Target.KeepsOptions d') (hd : d.Sound)
    (hd' : d'.Sound) (c c' : Context) :
    ∃ found found' : List Diagnostic,
      (d.build c).2.diagnostics = c.diagnostics ++ found ∧
      (d'.build c').2.diagnostics = c'.diagnostics ++ found' ∧
      found'.map unplaced = found.map unplaced ∧ ∀ finding ∈ found, finding.isError = true := by
  obtain ⟨o, ho⟩ := hd.exists_containerOptions
  have ho' : ContainerOptions.ofAttributes d'.attributes = .ok o := by
    rw [← ho]
    cases h with
    | intro h => exact h.container
  have hoptions := ContainerOptions.ofAttributes_eq_ok ho
  rw [ContainerOptions.ofAttributes_eq_ok ho', ContainerOptions.mk.injEq] at hoptions
  -- the strategy and the protocols are options, so both ask for the same
  have hstrategy : d'.strategy = d.strategy := hoptions.2.2
  have hasks : d'.AsksForProtocol ↔ d.AsksForProtocol := by
    unfold AsksForProtocol
    rw [hoptions.1]
  by_cases hasking : d.AsksForProtocol
  · obtain ⟨made, hmade, hbuild⟩ := hd.build_diagnostics_of_asks hasking
    obtain ⟨made', hmade', hbuild'⟩ := hd'.build_diagnostics_of_asks (hasks.mpr hasking)
    have hbare := h.codedType_bare d.strategy
    rw [hstrategy] at hmade'
    rw [hmade, hmade'] at hbare
    have hbare : made'.map CodedType.bare = made.map CodedType.bare := Except.ok.inj hbare
    refine ⟨_, _, hbuild c, hbuild' c', ?_, fun finding hfinding => ?_⟩
    · rw [CodedType.map_unplaced_keyFindings, CodedType.map_unplaced_keyFindings, hbare]
    · cases made with
      | none => cases hfinding
      | some t => exact CodedType.isError_of_mem_keyFindings hfinding
  · refine ⟨[], [], ?_, ?_, rfl, fun _ hnone => nomatch hnone⟩
    · rw [hd.build_diagnostics_of_not_asks hasking, List.append_nil]
    · rw [hd'.build_diagnostics_of_not_asks (mt hasks.mp hasking), List.append_nil]

end Declaration.DiffersBy

/-- Two declarations come to the same outcome and code, and beside the findings of their rules the
same is reported about both but for spans, nothing if they are accepted. -/
structure Declaration.ExpandsAlike (d d' : Declaration) : Prop where
  outcome : d'.expand.outcome = d.expand.outcome
  generated : d'.expand.generated = d.expand.generated
  reported : ∃ found found' : List Diagnostic,
    d.expand.diagnostics = d.findings ++ found ∧
    d'.expand.diagnostics = d'.findings ++ found' ∧
    found'.map unplaced = found.map unplaced ∧ (d.expand.outcome = .accepted → found = [])

/-- Sound declarations whose attributes come to the same options expand alike. -/
theorem Declaration.DiffersBy.expandsAlike {d d' : Declaration}
    (h : d.DiffersBy Target.KeepsOptions d') (hd : d.Sound) (hd' : d'.Sound) :
    d.ExpandsAlike d' := by
  have hharmless := harmless_findings_iff.mpr hd
  have hharmless' := harmless_findings_iff.mpr hd'
  obtain ⟨found, found', hbuild, hbuild', hsame, herrors⟩ :=
    h.build_diagnostics hd hd' ⟨0, d.findings⟩ ⟨0, d'.findings⟩
  -- Building finds errors only, and as many for one as for the other: accepted are both or neither.
  cases found with
  | nil =>
      obtain rfl : found' = [] := List.map_eq_nil_iff.mp hsame
      rw [List.append_nil] at hbuild hbuild'
      have hexpand := expand_of_harmless hharmless (by rw [hbuild]; exact hharmless)
      have hexpand' := expand_of_harmless hharmless' (by rw [hbuild']; exact hharmless')
      have hcode := (h.alike_build ⟨0, d'.findings⟩ ⟨0, d.findings⟩ rfl).1
      refine ⟨by rw [hexpand, hexpand'], by rw [hexpand, hexpand', hcode], [], [], ?_, ?_, rfl,
        fun _ => rfl⟩
      · rw [hexpand, hbuild, List.append_nil]
      · rw [hexpand', hbuild', List.append_nil]
  | cons finding rest =>
      obtain ⟨finding', rest', rfl, hfinding, -⟩ := List.map_eq_cons_iff.mp hsame
      have herror : finding.isError = true := herrors finding List.mem_cons_self
      have herror' : finding'.isError = true :=
        calc finding'.isError
          _ = finding'.unplaced.isError := rfl
          _ = finding.unplaced.isError := by rw [hfinding]
          _ = true := herror
      have hexpand := expand_of_build_findings hharmless (by rw [hbuild]; simp [Harmless, herror])
      have hexpand' :=
        expand_of_build_findings hharmless' (by rw [hbuild']; simp [Harmless, herror'])
      refine ⟨by rw [hexpand, hexpand'], by rw [hexpand, hexpand'], _, _, ?_, ?_, hsame, ?_⟩
      · rw [hexpand, hbuild]
      · rw [hexpand', hbuild']
      · intro haccepted
        rw [hexpand] at haccepted
        cases haccepted

end KeyedCoding
