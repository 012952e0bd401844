import KeyedCoding.Proofs.Derivation.FreshNames
import KeyedCoding.Proofs.Derivation.GeneratedCode
import KeyedCoding.Proofs.Derivation.InitializerCode

/-!
# Generated code is closed and well scoped

Which keys are declared, which are read and which are written is decided in three places, each with
a condition of its own.  They line up: the code that is printed names declared keys only, a decoding
method binds every member before it puts the value together, and an arm that takes a variant apart
binds the members that it writes and no others.  `Siblings` is what is generated beside a
declaration, piece by piece, and `Siblings.WellScoped` judges the tokens of every piece.
-/

namespace KeyedCoding

open Attribute Expanding

/-! ## Values -/

theorem Expression.evaluates_assigned (e : Expression) : Code.Evaluates e e.assigned := by
  unfold assigned
  split
  · next hkind => exact .converted hkind
  · next hkind => exact .written hkind

/-! ## Members -/

namespace CodedMember

/-- A coded member is what the attributes of its stored member make of it, under a variant of the
key enum. -/
structure Codes (s : KeyStrategy) (variant : String) (m : StoredMember) (c : CodedMember) :
    Prop where
  stored : c.stored = m
  variant : c.key.variant = variant
  key : c.key.value = m.wireKey s
  decoded : c.decoded = m.isRead
  encoded : c.encoded = m.isWritten
  helper : c.options.helper = m.helperPath?
  default : c.options.default = m.default?
  preset : c.options.preset = m.preset?

theorem codes_of_ofStored {m : StoredMember} {variant : String} {s : KeyStrategy}
    {c : CodedMember} (h : ofStored m variant s = .ok c) : Codes s variant m c := by
  have hkey := (wireKey_of_ofStored h).1
  obtain ⟨o, ho, h⟩ := bind_eq_ok_iff.mp h
  cases h
  obtain rfl := MemberOptions.ofAttributes_eq_ok ho
  exact ⟨rfl, rfl, hkey, rfl, rfl, rfl, rfl, rfl⟩

/-- What is read or written has its key declared. -/
theorem coded_of_decoded_or_encoded {c : CodedMember}
    (h : c.decoded = true ∨ c.encoded = true) : c.coded = true := by
  simp only [decoded, encoded, Bool.not_eq_true'] at h
  rw [coded, MemberOptions.ignored]
  rcases h with h | h <;> simp [h]

/-- The keys of members that take part in coding are declared. -/
def KeysDeclared (keys : KeyEnum) (members : List CodedMember) : Prop :=
  ∀ c ∈ members, c.coded = true → c.key ∈ keys.entries

variable {keys : KeyEnum} {s : KeyStrategy} {variant : StoredMember → String} {m : StoredMember}
  {c : CodedMember}

theorem Codes.namesKey (h : Codes s (variant m) m c) (hkey : c.key ∈ keys.entries) :
    Code.NamesKey keys (variant m) (m.wireKey s) (c.keyRef keys.ident).tokens :=
  ⟨⟨c.key, hkey, h.variant, h.key⟩, by rw [← h.variant]; rfl⟩

theorem Codes.readsEntry (h : Codes s (variant m) m c) (hkey : c.key ∈ keys.entries)
    (container suffix : String) :
    Code.ReadsEntry keys s variant container suffix m
      (Reading.call container c.options.helper c.stored.type (c.keyRef keys.ident) suffix) := by
  rw [h.stored]
  cases hhelper : m.helperPath? with
  | none =>
      rw [h.helper, hhelper]
      exact .plain hhelper (h.namesKey hkey)
  | some path =>
      rw [h.helper, hhelper]
      exact .helped hhelper (h.namesKey hkey)

theorem Codes.standsIn (h : Codes s (variant m) m c) : Code.StandsIn m c.options.fallback := by
  unfold MemberOptions.fallback
  rw [h.preset]
  cases hpreset : m.preset? with
  | none => exact .default hpreset
  | some e => exact .preset hpreset e.evaluates_assigned

/-- A member is bound to what it is to be decoded from, and a default draws a name for it. -/
theorem Codes.binds_binding (h : Codes s (variant m) m c)
    (hkey : c.coded = true → c.key ∈ keys.entries) (container : String) (context : Context) :
    Code.Binds keys s variant container m (c.binding keys.ident container context).1.freshNames
      (c.binding keys.ident container context).1.tokens := by
  rw [← h.stored]
  unfold binding
  cases hread : c.decoded with
  | false =>
      have hunread : c.stored.isRead = false := by rw [h.stored, ← h.decoded, hread]
      exact .intro (.unread hunread (h.stored ▸ h.standsIn))
  | true =>
      have hcall := h.readsEntry (hkey (coded_of_decoded_or_encoded (.inl hread))) container
      have hread : c.stored.isRead = true := by rw [h.stored, ← h.decoded, hread]
      rw [← h.stored] at hcall
      cases hdefault : c.options.default with
      | none =>
          rw [h.default, ← h.stored] at hdefault
          exact .intro (.required hread hdefault (hcall ""))
      | some e =>
          rw [h.default, ← h.stored] at hdefault
          exact .intro (.defaulted _ hread hdefault (hcall "_if_present") e.evaluates_assigned)

variable {stored : List StoredMember} {members : List CodedMember}

/-- Members are bound once each, in order. -/
theorem forEach_bindings (h : List.Forall₂ (fun m c => Codes s (variant m) m c) stored members)
    (hkeys : KeysDeclared keys members) (container : String) (context : Context) :
    Code.ForEach (Code.Binds keys s variant container) stored
      ((bindings keys.ident container members context).1.flatMap Binding.freshNames)
      ((bindings keys.ident container members context).1.flatMap Binding.tokens) := by
  -- A default draws a name, so the state moves on and the induction is about every state.
  induction h generalizing context with
  | nil => exact .nil
  | @cons m c stored members hc _ ih =>
      have hrest : KeysDeclared keys members := fun c' hc' =>
        hkeys c' (List.mem_cons_of_mem _ hc')
      exact .cons (hc.binds_binding (hkeys c List.mem_cons_self) container context) (ih hrest _)

/-- A written member is written under its own key. -/
theorem Codes.writes (h : Codes s (variant m) m c) (hkey : c.key ∈ keys.entries)
    (container : String) (access : StoredMember → Tokens) :
    Code.Writes keys s variant container access m []
      (Writing.tokens ⟨container, c.options.helper, c.stored.ident, access c.stored,
        c.keyRef keys.ident⟩) := by
  rw [h.stored]
  cases hhelper : m.helperPath? with
  | none =>
      rw [h.helper, hhelper]
      exact .plain hhelper (h.namesKey hkey)
  | some path =>
      rw [h.helper, hhelper]
      exact .helped hhelper (h.namesKey hkey)

/-- The members that are written are written once each, in order. -/
theorem forEach_writings (h : List.Forall₂ (fun m c => Codes s (variant m) m c) stored members)
    (hkeys : KeysDeclared keys members) (container : String) (access : StoredMember → Tokens) :
    Code.ForEach (Code.Writes keys s variant container access)
      (stored.filter StoredMember.isWritten) []
      ((writings keys.ident container (fun c => access c.stored) members).flatMap
        Writing.tokens) := by
  induction h with
  | nil => exact .nil
  | @cons m c stored members hc _ ih =>
      have hrest := ih fun c' hc' => hkeys c' (List.mem_cons_of_mem _ hc')
      cases hwritten : m.isWritten with
      | false =>
          have hunwritten : c.encoded = false := by rw [hc.encoded, hwritten]
          simpa [writings, hunwritten, hwritten] using hrest
      | true =>
          have hencoded : c.encoded = true := by rw [hc.encoded, hwritten]
          have hkey := hkeys c List.mem_cons_self (coded_of_decoded_or_encoded (.inr hencoded))
          have hall := Code.ForEach.cons (hc.writes hkey container access) hrest
          simpa [writings, hencoded, hwritten] using hall

/-- A pattern binds what is written, and passes over what is not. -/
theorem takesApart_pattern (h : List.Forall₂ (fun m c => Codes s (variant m) m c) stored members)
    (path : Tokens) {style : FieldStyle} (hunit : style = .unit → stored = []) :
    Code.TakesApart path stored style (pattern path style members).tokens := by
  have hslots : (pattern path style members).slots =
      stored.map fun m => (m.ident, m.isWritten) := by
    refine map_eq_map_of_forall₂ (h.imp fun m c hc => ?_)
    rw [hc.stored, hc.encoded]
  have hbound : (pattern path style members).bound =
      (stored.filter StoredMember.isWritten).map StoredMember.ident := by
    rw [CasePattern.bound, hslots, List.filter_map, List.map_map]
    rfl
  cases style with
  | unit => exact .unit (hunit rfl)
  | unnamed =>
      show Code.TakesApart path stored .unnamed (path ++ [Make.parens (Make.commaSeparated
        ((pattern path .unnamed members).slots.map fun slot =>
          [Make.ident (if slot.2 then slot.1 else "_")]))])
      rw [hslots, List.map_map]
      exact .unnamed
  | named =>
      show Code.TakesApart path stored .named
        (if (pattern path .named members).slots.all Prod.snd then _ else _)
      rw [hbound, List.map_map]
      by_cases hall : ∀ m ∈ stored, m.isWritten = true
      · have hevery : (pattern path .named members).slots.all Prod.snd = true := by
          simpa [hslots] using hall
        rw [if_pos hevery, List.filter_eq_self.mpr hall]
        exact .named hall
      · have hsome : ¬ (pattern path .named members).slots.all Prod.snd = true := by
          simpa [hslots] using hall
        rw [if_neg hsome]
        obtain ⟨m, hm, hunwritten⟩ : ∃ m ∈ stored, m.isWritten = false := by simpa using hall
        exact .partly hm hunwritten

/-- A construction mentions every member, in order. -/
theorem constructs_construction
    (h : List.Forall₂ (fun m c => Codes s (variant m) m c) stored members) (path : Tokens)
    {style : FieldStyle} (hunit : style = .unit → stored = []) :
    Code.Constructs path stored style (construction path style members).tokens := by
  have hidents : (construction path style members).idents.map (fun i => [Make.ident i]) =
      stored.map fun m => [Make.ident m.ident] := by
    rw [construction, List.map_map]
    refine map_eq_map_of_forall₂ (h.imp fun m c hc => ?_)
    rw [Function.comp_apply, hc.stored]
  unfold Construction.tokens
  rw [hidents]
  cases style with
  | unit => exact .unit (hunit rfl)
  | named => exact .named
  | unnamed => exact .unnamed

end CodedMember

/-! ## Variants -/

namespace CodedCase

/-- A case is what the attributes of its variant and of the fields of that make of it. -/
structure Codes (s : KeyStrategy) (v : DeclaredVariant) (c : CodedCase) : Prop where
  ident : c.ident = v.ident
  variant : c.key.variant = v.ident
  style : c.style = v.style
  key : c.key.value = v.wireKey s
  members : List.Forall₂ (fun m cm => CodedMember.Codes s (Code.fieldKey v m) m cm) v.members
    c.members

theorem codes_of_ofVariant {v : DeclaredVariant} {s : KeyStrategy} {c : CodedCase}
    (h : ofVariant v s = .ok c) : c.Codes s v := by
  have hkey := (wireKey_of_ofVariant h).1
  obtain ⟨_, _, h⟩ := bind_eq_ok_iff.mp h
  obtain ⟨members, hmembers, h⟩ := bind_eq_ok_iff.mp h
  cases h
  exact ⟨rfl, rfl, rfl, hkey,
    (mapM_eq_ok_iff.mp hmembers).imp fun _ _ hm => CodedMember.codes_of_ofStored hm⟩

/-- The key of a case and those of its members are declared. -/
def KeysDeclared (keys : KeyEnum) (cases : List CodedCase) : Prop :=
  ∀ c ∈ cases, c.key ∈ keys.entries ∧ CodedMember.KeysDeclared keys c.members

variable {keys : KeyEnum} {s : KeyStrategy} {v : DeclaredVariant} {c : CodedCase}

theorem Codes.namesKey (h : c.Codes s v) (hkey : c.key ∈ keys.entries) :
    Code.NamesKey keys v.ident (v.wireKey s) (KeyRef.tokens ⟨keys.ident, c.key.variant⟩) :=
  ⟨⟨c.key, hkey, h.variant, h.key⟩, by rw [h.variant]; rfl⟩

theorem Codes.decodesVariant (h : c.Codes s v) (hkey : c.key ∈ keys.entries)
    (hkeys : CodedMember.KeysDeclared keys c.members) (hunit : v.style = .unit → v.members = [])
    (outer : String) (context : Context) :
    Code.DecodesVariant keys s outer v (c.decodeArm keys.ident context).1.freshNames
      ((c.decodeArm keys.ident context).1.tokens outer keys.ident) := by
  have hbinds := CodedMember.forEach_bindings h.members hkeys
    (Context.nameOf "container" (context.nextName + 1))
    { context with nextName := context.nextName + 2 }
  have hvalue : Code.Constructs (Make.path false ["Self", v.ident]) v.members v.style
      (CodedMember.construction c.path c.style c.members).tokens := by
    rw [path, h.ident, h.style]
    exact CodedMember.constructs_construction h.members _ hunit
  have harm : Code.DecodesVariant keys s outer v _ _ :=
    .intro (Context.nameOf "decoder" context.nextName) _ (h.namesKey hkey) hbinds hvalue
  rw [← h.key] at harm
  exact harm

theorem Codes.encodesVariant (h : c.Codes s v) (hkey : c.key ∈ keys.entries)
    (hkeys : CodedMember.KeysDeclared keys c.members) (hunit : v.style = .unit → v.members = [])
    (outer : String) (context : Context) :
    Code.EncodesVariant keys s outer v (c.encodeArm keys.ident context).1.freshNames
      ((c.encodeArm keys.ident context).1.tokens outer keys.ident) := by
  have hwrites := CodedMember.forEach_writings h.members hkeys
    (Context.nameOf "container" (context.nextName + 1)) fun m => [Make.ident m.ident]
  have hpattern : Code.TakesApart (Make.path false ["Self", v.ident]) v.members v.style
      (CodedMember.pattern c.path c.style c.members).tokens := by
    rw [path, h.ident, h.style]
    exact CodedMember.takesApart_pattern h.members _ hunit
  exact .intro _ _ hpattern (h.namesKey hkey) hwrites

variable {variants : List DeclaredVariant} {cases : List CodedCase}

/-- Every variant has an arm that decodes it, in order. -/
theorem forEach_decodeArms (h : List.Forall₂ (fun v c => Codes s v c) variants cases)
    (hkeys : KeysDeclared keys cases) (hunit : ∀ v ∈ variants, v.style = .unit → v.members = [])
    (outer : String) (context : Context) :
    Code.ForEach (Code.DecodesVariant keys s outer) variants
      ((decodeArms keys.ident cases context).1.flatMap DecodeArm.freshNames)
      ((decodeArms keys.ident cases context).1.flatMap (DecodeArm.tokens outer keys.ident)) := by
  induction h generalizing context with
  | nil => exact .nil
  | @cons v c variants cases hc _ ih =>
      obtain ⟨hkey, hmembers⟩ := hkeys c List.mem_cons_self
      have hfirst := hc.decodesVariant hkey hmembers (hunit v List.mem_cons_self) outer context
      exact .cons hfirst (ih (fun c' hc' => hkeys c' (List.mem_cons_of_mem _ hc'))
        (fun v' hv' => hunit v' (List.mem_cons_of_mem _ hv')) _)

/-- Every variant has an arm that encodes it, in order. -/
theorem forEach_encodeArms (h : List.Forall₂ (fun v c => Codes s v c) variants cases)
    (hkeys : KeysDeclared keys cases) (hunit : ∀ v ∈ variants, v.style = .unit → v.members = [])
    (outer : String) (context : Context) :
    Code.ForEach (Code.EncodesVariant keys s outer) variants
      ((encodeArms keys.ident cases context).1.flatMap EncodeArm.freshNames)
      ((encodeArms keys.ident cases context).1.flatMap (EncodeArm.tokens outer keys.ident)) := by
  induction h generalizing context with
  | nil => exact .nil
  | @cons v c variants cases hc _ ih =>
      obtain ⟨hkey, hmembers⟩ := hkeys c List.mem_cons_self
      have hfirst := hc.encodesVariant hkey hmembers (hunit v List.mem_cons_self) outer context
      exact .cons hfirst (ih (fun c' hc' => hkeys c' (List.mem_cons_of_mem _ hc'))
        (fun v' hv' => hunit v' (List.mem_cons_of_mem _ hv')) _)

/-- The arms are for the texts of the variants, in order. -/
theorem map_text_decodeArms (h : List.Forall₂ (fun v c => Codes s v c) variants cases)
    (keys : String) (context : Context) :
    (decodeArms keys cases context).1.map (fun a => [Make.string a.text]) =
      variants.map fun v => [Make.string (v.wireKey s)] := by
  induction h generalizing context with
  | nil => rfl
  | @cons v c variants cases hc _ ih =>
      have hrest := ih (c.decodeArm keys context).2
      rw [List.map_cons, ← hc.key, ← hrest]
      rfl

end CodedCase

/-! ## Declarations of items -/

namespace Declaration

/-- The declaration of an item, under whatever attributes. -/
def OfItem (d : Declaration) : Prop :=
  ∃ item attributes, d = { Declaration.ofItem item with attributes }

variable {d : Declaration}

theorem OfItem.isSome_ident (h : d.OfItem) (hkind : d.kind = .struct ∨ d.kind = .enum) :
    d.ident.isSome = true := by
  obtain ⟨item, attributes, rfl⟩ := h
  unfold ofItem at hkind ⊢
  split
  · rfl
  · rfl
  · rfl
  · next kind name _ _ hbody =>
    rw [hbody] at hkind
    cases kind <;> simp [PlainKind.declared] at hkind

/-- Only fields that are written out are stored. -/
theorem OfItem.members_of_unit (h : d.OfItem) (hstyle : d.style = .unit) : d.members = [] := by
  obtain ⟨item, attributes, rfl⟩ := h
  unfold ofItem at hstyle ⊢
  split
  · next fields _ hbody =>
    rw [hbody] at hstyle
    cases fields with
    | unit => rfl
    | named _ _ => cases hstyle
    | unnamed _ _ => cases hstyle
  · rfl
  · next hbody =>
    rw [hbody] at hstyle
    cases hstyle
  · rfl

theorem OfItem.payload_of_unit (h : d.OfItem) :
    ∀ v ∈ d.variants, v.style = .unit → v.members = [] := by
  obtain ⟨item, attributes, rfl⟩ := h
  intro v hv hstyle
  unfold ofItem at hv
  split at hv
  · cases hv
  · obtain ⟨variant, -, rfl⟩ := List.mem_map.mp hv
    obtain ⟨_, _, fields, _, _⟩ := variant
    cases fields with
    | unit => rfl
    | named _ _ => cases hstyle
    | unnamed _ _ => cases hstyle
  · cases hv
  · cases hv

end Declaration

/-! ## Methods -/

namespace CodedType

variable {d : Declaration} {t : CodedType}

theorem style_of_struct {s : KeyStrategy} (h : ofDeclaration d s = .ok (some t))
    {style : FieldStyle} {members : List CodedMember} (hbody : t.body = .struct style members) :
    style = d.style := by
  unfold ofDeclaration at h
  split at h
  · obtain ⟨_, _, h⟩ := bind_eq_ok_iff.mp h
    cases h
    cases hbody
    rfl
  · obtain ⟨_, _, h⟩ := bind_eq_ok_iff.mp h
    cases h
    cases hbody
  · cases h

theorem keysDeclared_of_struct {style : FieldStyle} {members : List CodedMember}
    (hbody : t.body = .struct style members) : CodedMember.KeysDeclared t.keys members := by
  intro c hc hcoded
  simp only [keys, hbody]
  exact List.mem_map_of_mem (List.mem_filter.mpr ⟨hc, hcoded⟩)

theorem keysDeclared_of_enum {cases : List CodedCase} (hbody : t.body = .enum cases) :
    CodedCase.KeysDeclared t.keys cases := by
  intro c hc
  simp only [CodedMember.KeysDeclared, keys, hbody, List.mem_flatMap]
  refine ⟨⟨c, hc, List.mem_cons_self⟩, fun m hm hcoded => ⟨c, hc, List.mem_cons_of_mem _ ?_⟩⟩
  exact List.mem_map_of_mem (List.mem_filter.mpr ⟨hm, hcoded⟩)

/-- The members of a coded struct are what the declaration says. -/
theorem codes_of_struct {s : KeyStrategy} (h : ofDeclaration d s = .ok (some t))
    {style : FieldStyle} {members : List CodedMember} (hbody : t.body = .struct style members) :
    List.Forall₂ (fun m c => CodedMember.Codes s m.ident m c) d.members members :=
  (forall₂_of_struct h hbody).imp fun _ _ hm => CodedMember.codes_of_ofStored hm

/-- The cases of a coded enum are what the declaration says. -/
theorem codes_of_enum {s : KeyStrategy} (h : ofDeclaration d s = .ok (some t))
    {cases : List CodedCase} (hbody : t.body = .enum cases) :
    List.Forall₂ (fun v c => CodedCase.Codes s v c) d.variants cases :=
  (forall₂_of_enum h hbody).imp fun _ _ hc => CodedCase.codes_of_ofVariant hc

theorem decodesBody (h : ofDeclaration d d.strategy = .ok (some t)) (hd : d.OfItem)
    (context : Context) :
    Code.DecodesBody t.keys d (t.decodeBody context).1.freshNames
      (t.decodeBody context).1.tokens := by
  unfold decodeBody
  cases hbody : t.body with
  | struct style members =>
      have hmembers := codes_of_struct h hbody
      have hbinds := CodedMember.forEach_bindings hmembers (keysDeclared_of_struct hbody)
        (Context.nameOf "container" context.nextName)
        { context with nextName := context.nextName + 1 }
      obtain rfl := style_of_struct h hbody
      have hvalue := CodedMember.constructs_construction hmembers [Make.ident "Self"]
        hd.members_of_unit
      exact .struct _ (kind_of_struct h hbody) hbinds hvalue
  | enum cases =>
      have hcases := codes_of_enum h hbody
      have harms := CodedCase.forEach_decodeArms hcases (keysDeclared_of_enum hbody)
        hd.payload_of_unit (Context.nameOf "container" context.nextName)
        { context with nextName := context.nextName + 2 }
      have hbody := Code.DecodesBody.enum _ (Context.nameOf "tag" (context.nextName + 1))
        (kind_of_enum h hbody) harms
      rw [Code.unknownArm, ← CodedCase.map_text_decodeArms hcases t.keys.ident
        { context with nextName := context.nextName + 2 }] at hbody
      exact hbody

theorem encodesBody (h : ofDeclaration d d.strategy = .ok (some t)) (hd : d.OfItem)
    (context : Context) :
    Code.EncodesBody t.keys d (t.encodeBody context).1.freshNames
      (t.encodeBody context).1.tokens := by
  unfold encodeBody
  cases hbody : t.body with
  | struct style members =>
      have hwrites := CodedMember.forEach_writings (codes_of_struct h hbody)
        (keysDeclared_of_struct hbody) (Context.nameOf "container" context.nextName)
        fun m => Make.op "&" ++ Make.ident "self" :: Make.op "." ++ m.accessor
      exact .struct _ (kind_of_struct h hbody) hwrites
  | enum cases =>
      have hkind := kind_of_enum h hbody
      have hcases := codes_of_enum h hbody
      cases cases with
      | nil => exact .never hkind (List.forall₂_nil_right_iff.mp hcases)
      | cons c rest =>
          have harms := CodedCase.forEach_encodeArms hcases (keysDeclared_of_enum hbody)
            hd.payload_of_unit (Context.nameOf "container" context.nextName)
            { context with nextName := context.nextName + 1 }
          exact .enum _ hkind harms

/-- The key enum declares its entries. -/
theorem declaresKeys (keys : KeyEnum) (visibility : Tokens) :
    Code.DeclaresKeys keys visibility (keys.declaration visibility) := by
  have hvariants : Make.commaTerminated (keys.entries.map fun e => [Make.ident e.variant]) =
      keys.entries.flatMap fun e => Make.ident e.variant :: Make.op "," := by
    rw [Make.commaTerminated, List.flatMap_map]
    rfl
  have harms : Make.commaTerminated (keys.entries.map fun e =>
        Make.path false ["Self", e.variant] ++ Make.op "=>" ++ [Make.string e.value]) =
      keys.entries.flatMap fun e => Make.ident "Self" :: Make.op "::"
        ++ Make.ident e.variant :: Make.op "=>" ++ Make.string e.value :: Make.op "," := by
    rw [Make.commaTerminated, List.flatMap_map]
    rfl
  unfold KeyEnum.declaration
  rw [hvariants, harms]
  rfl

end CodedType

/-! ## What is generated beside a declaration -/

/-- The implementation of a protocol, with the fresh names in it. -/
structure Conformance where
  freshNames : List String
  code : Tokens

namespace CodedType

variable (t : CodedType)

/-- The method of a protocol with a body. -/
def method (direction : Direction) (body : Tokens) : Generated :=
  ⟨direction, body, t.predicates direction, direction.protocolPath⟩

/-- The implementation of the protocol for decoding around a body. -/
def decodable (body : DecodeBody) : Conformance :=
  ⟨body.freshNames, t.conformance (t.method .decode body.tokens)⟩

/-- The implementation of the protocol for encoding around a body. -/
def encodable (body : EncodeBody) : Conformance :=
  ⟨body.freshNames, t.conformance (t.method .encode body.tokens)⟩

theorem implements_conformance (direction : Direction) (body : Tokens) :
    Code.Implements t direction body (t.conformance (t.method direction body)) := by
  cases direction <;> rfl

end CodedType

/-- What is generated beside a declaration. -/
structure Siblings where
  initializer : Option Tokens
  keys : Option Tokens
  decoding : Option Conformance
  encoding : Option Conformance

namespace Siblings

/-- The code of all of it, in order. -/
def code (g : Siblings) : List Tokens :=
  g.initializer.toList ++ g.keys.toList
    ++ (g.decoding.toList ++ g.encoding.toList).map Conformance.code

/-- The fresh names in all of it. -/
def freshNames (g : Siblings) : List String :=
  (g.decoding.toList ++ g.encoding.toList).flatMap Conformance.freshNames

/-- What is generated beside a declaration is what its attributes ask for, names only what it
declares and uses what it binds. -/
structure WellScoped (d : Declaration) (g : Siblings) : Prop where
  generated : d.expand.generated = g.code
  /-- There is an initializer exactly if one is asked for, and it is that of the declaration. -/
  asked : g.initializer.isSome = has .memberInit d.attributes
  initializer : ∀ code, g.initializer = some code →
    ∃ i, Initializer.ofDeclaration d = .ok (some i) ∧ i.Consists code
  /-- There are keys exactly if a protocol is asked for, and an implementation for each one. -/
  requested : g.keys.isSome = (d.conforms .decode || d.conforms .encode)
  decodable : g.decoding.isSome = d.conforms .decode
  encodable : g.encoding.isSome = d.conforms .encode
  /-- The keys are those of the coded type, each with its text. -/
  keys : ∀ code, g.keys = some code →
    ∃ t, d.codedType? = some t ∧ Code.DeclaresKeys t.keys t.visibility code
  decoding : ∀ c, g.decoding = some c → ∃ t body, d.codedType? = some t ∧
    Code.Implements t .decode body c.code ∧ Code.DecodesBody t.keys d c.freshNames body
  encoding : ∀ c, g.encoding = some c → ∃ t body, d.codedType? = some t ∧
    Code.Implements t .encode body c.code ∧ Code.EncodesBody t.keys d c.freshNames body
  /-- Every name that was drawn occurs once. -/
  drawn : (d.build ⟨0, d.findings⟩).2.nextName = g.freshNames.length
  fresh : g.freshNames.Nodup

end Siblings

namespace Expanding

variable {α β : Type} {step : Expanding α}

/-- A step that is made only if something is found. -/
def ifFound (found : Option Tokens) (step : Expanding α) : Expanding (Option α) :=
  match found with
  | none => pure none
  | some _ => do
      let a ← step
      pure (some a)

theorem isSome_ifFound (found : Option Tokens) (context : Context) :
    (ifFound found step context).1.isSome = found.isSome := by
  cases found <;> rfl

theorem of_ifFound {found : Option Tokens} {context : Context} {a : α}
    (ha : (ifFound found step context).1 = some a) : ∃ context, a = (step context).1 := by
  cases found with
  | none => cases ha
  | some _ =>
      cases ha
      exact ⟨context, rfl⟩

theorem draws_ifFound {names : α → List String} (h : Draws step names) (found : Option Tokens) :
    Draws (ifFound found step) fun made => made.toList.flatMap names := by
  intro context
  cases found with
  | none => exact .nil _
  | some _ =>
      show Drawn context.nextName (step context).2.nextName ([(step context).1].flatMap names)
      rw [List.flatMap_singleton]
      exact h context

end Expanding

namespace CodedType

variable (t : CodedType) (protocols : List Tokens) (context : Context)

theorem synthesize_decode :
    t.synthesize .decode protocols context =
      let run := ifFound (findProtocol Direction.decode.protocol protocols) t.decodeBody context
      (run.1.map fun body => t.method .decode body.tokens, run.2) := by
  unfold synthesize
  cases findProtocol Direction.decode.protocol protocols <;> rfl

theorem synthesize_encode :
    t.synthesize .encode protocols context =
      let run := ifFound (findProtocol Direction.encode.protocol protocols) t.encodeBody context
      (run.1.map fun body => t.method .encode body.tokens, run.2) := by
  unfold synthesize
  cases findProtocol Direction.encode.protocol protocols <;> rfl

end CodedType

namespace Declaration

variable {d : Declaration} {t : CodedType} {protocols : List Tokens}

/-- Methods in the order of their protocols become implementations in that order. -/
theorem map_conformance (decoding : Option DecodeBody) (encoding : Option EncodeBody) :
    ((decoding.map fun body => t.method .decode body.tokens).toList
        ++ (encoding.map fun body => t.method .encode body.tokens).toList).map t.conformance =
      ((decoding.map t.decodable).toList ++ (encoding.map t.encodable).toList).map
        Conformance.code := by
  cases decoding <;> cases encoding <;> rfl

theorem flatMap_freshNames (decoding : Option DecodeBody) (encoding : Option EncodeBody) :
    ((decoding.map t.decodable).toList ++ (encoding.map t.encodable).toList).flatMap
        Conformance.freshNames =
      decoding.toList.flatMap DecodeBody.freshNames
        ++ encoding.toList.flatMap EncodeBody.freshNames := by
  cases decoding <;> cases encoding <;> simp [CodedType.decodable, CodedType.encodable]

/-- Where a protocol is found, the keys and the methods are generated. -/
theorem exists_coding (hrequested : CodedType.requested protocols = true) (context : Context) :
    ∃ decoding encoding : Option Conformance,
      (codingCode t protocols context).1 = t.keys.declaration t.visibility
        :: (decoding.toList ++ encoding.toList).map Conformance.code ∧
      decoding.isSome = (findProtocol Direction.decode.protocol protocols).isSome ∧
      encoding.isSome = (findProtocol Direction.encode.protocol protocols).isSome ∧
      (∀ c, decoding = some c → ∃ context, c = t.decodable (t.decodeBody context).1) ∧
      (∀ c, encoding = some c → ∃ context, c = t.encodable (t.encodeBody context).1) ∧
      Drawn context.nextName (codingCode t protocols context).2.nextName
        ((decoding.toList ++ encoding.toList).flatMap Conformance.freshNames) := by
  let reported : Context := { context with diagnostics := context.diagnostics ++ t.keyFindings }
  let decoded := ifFound (findProtocol Direction.decode.protocol protocols) t.decodeBody reported
  let encoded := ifFound (findProtocol Direction.encode.protocol protocols) t.encodeBody decoded.2
  have hrun : codingCode t protocols context = (t.keys.declaration t.visibility
      :: ((decoded.1.map t.decodable).toList ++ (encoded.1.map t.encodable).toList).map
        Conformance.code, encoded.2) := by
    have hdecoded := t.synthesize_decode protocols reported
    have hencoded := t.synthesize_encode protocols decoded.2
    have hsteps : codingCode t protocols context =
        let first := t.synthesize .decode protocols reported
        let second := t.synthesize .encode protocols first.2
        (t.keys.declaration t.visibility
          :: (first.1.toList ++ second.1.toList).map t.conformance, second.2) := by
      simp only [codingCode, CodedType.keyDeclarations, hrequested, if_true]
      rfl
    simp only [hsteps, hdecoded]
    rw [hencoded, ← map_conformance]
  -- Reporting keys written alike draws no name, so the count starts where it stood.
  have hdrawn : Drawn context.nextName encoded.2.nextName
      (decoded.1.toList.flatMap DecodeBody.freshNames
        ++ encoded.1.toList.flatMap EncodeBody.freshNames) :=
    (draws_ifFound t.draws_decodeBody _ reported).append
      (draws_ifFound t.draws_encodeBody _ decoded.2)
  rw [hrun]
  refine ⟨decoded.1.map t.decodable, encoded.1.map t.encodable, rfl, ?_, ?_, ?_, ?_, ?_⟩
  · rw [Option.isSome_map]
    exact isSome_ifFound _ _
  · rw [Option.isSome_map]
    exact isSome_ifFound _ _
  · intro c hc
    obtain ⟨body, hbody, rfl⟩ := Option.map_eq_some_iff.mp hc
    obtain ⟨context', rfl⟩ := of_ifFound hbody
    exact ⟨context', rfl⟩
  · intro c hc
    obtain ⟨body, hbody, rfl⟩ := Option.map_eq_some_iff.mp hc
    obtain ⟨context', rfl⟩ := of_ifFound hbody
    exact ⟨context', rfl⟩
  · rw [flatMap_freshNames]
    exact hdrawn

/-- Where no protocol is found, nothing is generated for a coded type. -/
theorem codingCode_of_not_requested (h : CodedType.requested protocols = false)
    (context : Context) : codingCode t protocols context = ([], context) := by
  have hfound := h
  rw [CodedType.requested, Bool.or_eq_false_iff, Option.isSome_eq_false_iff,
    Option.isSome_eq_false_iff, Option.isNone_iff_eq_none, Option.isNone_iff_eq_none] at hfound
  simp only [codingCode, CodedType.keyDeclarations, CodedType.synthesize, h, hfound.1, hfound.2]
  rfl

/-- An attribute of a sound declaration stands where it may. -/
theorem Sound.suits (h : d.Sound) {k : Known} (hhas : has k d.attributes = true) :
    k.Suits d.kind := by
  obtain ⟨a, ha, hnamed⟩ := List.any_eq_true.mp hhas
  have htarget : (⟨d.kind, d.typeName, d.attributes⟩ : Target).Sound := h _ (by simp [targets])
  exact htarget.placed a ha k hnamed

/-- A sound declaration has an initializer if one is asked for, and making it changes nothing. -/
theorem Sound.exists_initializerCode (h : d.Sound) (hd : d.OfItem) {o : ContainerOptions}
    (ho : ContainerOptions.ofAttributes d.attributes = .ok o) (context : Context) :
    ∃ init : Option Initializer,
      d.initializerCode o context = (init.toList.map Initializer.tokens, context) ∧
      init.isSome = has .memberInit d.attributes ∧
      ∀ i, init = some i → Initializer.ofDeclaration d = .ok (some i) := by
  have hinit : o.memberInit = has .memberInit d.attributes := by
    rw [ContainerOptions.ofAttributes_eq_ok ho]
  unfold initializerCode
  rw [hinit]
  cases hhas : has .memberInit d.attributes with
  | false => exact ⟨none, rfl, rfl, nofun⟩
  | true =>
      obtain ⟨ident, hident⟩ :=
        Option.isSome_iff_exists.mp (hd.isSome_ident (.inl (h.suits hhas)))
      obtain ⟨made, hmade⟩ := h.exists_initializer
      obtain ⟨i, rfl⟩ : ∃ i, made = some i := by
        have hsome := hmade
        simp only [Initializer.ofDeclaration, hident] at hsome
        obtain ⟨_, _, hsome⟩ := bind_eq_ok_iff.mp hsome
        cases hsome
        exact ⟨_, rfl⟩
      refine ⟨some i, ?_, rfl, ?_⟩
      · rw [hmade]
        rfl
      · rintro _ ⟨⟩
        exact hmade

theorem has_of_asked {α : Type} {k : Known} {read : Attribute → Except Failure α}
    {attributes : List Attribute} {a : α} (h : asked k read attributes = some a) :
    has k attributes = true := by
  obtain ⟨x, hx, hasks⟩ := List.exists_of_findSome?_eq_some h
  refine List.any_eq_true.mpr ⟨x, List.mem_reverse.mp hx, ?_⟩
  unfold asks at hasks
  split at hasks
  · assumption
  · cases hasks

/-- The code of an accepted declaration is what was built. -/
theorem generated_eq_build (h : d.expand.outcome = .accepted) :
    d.expand.generated = (d.build ⟨0, d.findings⟩).1 := by
  rcases expand_cases d with ⟨-, hfindings, hbuild⟩ | ⟨hrejected, -⟩
  · rw [expand_of_harmless hfindings hbuild]
  · rw [h] at hrejected
    cases hrejected

/-- The initializer is made first, then the code of the coded type. -/
theorem build_eq {o : ContainerOptions} (ho : ContainerOptions.ofAttributes d.attributes = .ok o)
    (hprotocols : o.protocols = some protocols)
    (ht : CodedType.ofDeclaration d o.strategy = .ok (some t)) (context : Context) :
    d.build context = ((d.initializerCode o context).1
      ++ (codingCode t protocols (d.initializerCode o context).2).1,
      (codingCode t protocols (d.initializerCode o context).2).2) := by
  simp only [build, ho, hprotocols, ht]
  rfl

theorem consists_map {init : Option Initializer}
    (hmade : ∀ i, init = some i → Initializer.ofDeclaration d = .ok (some i)) (code : Tokens)
    (hcode : init.map Initializer.tokens = some code) :
    ∃ i, Initializer.ofDeclaration d = .ok (some i) ∧ i.Consists code := by
  obtain ⟨i, hi, rfl⟩ := Option.map_eq_some_iff.mp hcode
  exact ⟨i, hmade i hi, i.consists⟩

/-- An initializer alone is well scoped if no protocol is found. -/
theorem wellScoped_initializer (haccepted : d.expand.outcome = .accepted)
    {init : Option Initializer} (hasked : init.isSome = has .memberInit d.attributes)
    (hmade : ∀ i, init = some i → Initializer.ofDeclaration d = .ok (some i))
    (hdecode : d.conforms .decode = false) (hencode : d.conforms .encode = false)
    (hbuild : d.build ⟨0, d.findings⟩ = (init.toList.map Initializer.tokens, ⟨0, d.findings⟩)) :
    Siblings.WellScoped d ⟨init.map Initializer.tokens, none, none, none⟩ where
  generated := by
    rw [generated_eq_build haccepted, hbuild]
    cases init <;> rfl
  asked := by rw [Option.isSome_map, hasked]
  initializer := consists_map hmade
  requested := by
    rw [hdecode, hencode]
    rfl
  decodable := hdecode.symm
  encodable := hencode.symm
  keys := nofun
  decoding := nofun
  encoding := nofun
  drawn := by
    rw [hbuild]
    rfl
  fresh := List.nodup_nil

/-- If a protocol is found, the keys and the methods behind an initializer are well scoped. -/
theorem exists_wellScoped_coding (haccepted : d.expand.outcome = .accepted) (hd : d.OfItem)
    {init : Option Initializer} (hasked : init.isSome = has .memberInit d.attributes)
    (hmade : ∀ i, init = some i → Initializer.ofDeclaration d = .ok (some i))
    (hcoded : d.codedType? = some t)
    (hconforms : ∀ direction : Direction,
      d.conforms direction = (findProtocol direction.protocol protocols).isSome)
    (hrequested : CodedType.requested protocols = true)
    (hbuild : d.build ⟨0, d.findings⟩ = (init.toList.map Initializer.tokens
      ++ (codingCode t protocols ⟨0, d.findings⟩).1,
      (codingCode t protocols ⟨0, d.findings⟩).2)) :
    ∃ g : Siblings, g.WellScoped d := by
  obtain ⟨decoding, encoding, hcode, hdecodable, hencodable, hdecode, hencode, hdrawn⟩ :=
    exists_coding hrequested ⟨0, d.findings⟩
  have ht := ofDeclaration_of_codedType? hcoded
  refine ⟨⟨init.map Initializer.tokens, some (t.keys.declaration t.visibility), decoding,
    encoding⟩, ?_, ?_, consists_map hmade, ?_, ?_, ?_, ?_, ?_, ?_, ?_, ?_⟩
  · rw [generated_eq_build haccepted, hbuild, hcode]
    cases init <;> rfl
  · rw [Option.isSome_map, hasked]
  · rw [hconforms, hconforms]
    exact hrequested.symm
  · rw [hconforms, hdecodable]
  · rw [hconforms, hencodable]
  · rintro _ ⟨⟩
    exact ⟨t, hcoded, CodedType.declaresKeys t.keys t.visibility⟩
  · intro c hc
    obtain ⟨context, rfl⟩ := hdecode c hc
    exact ⟨t, _, hcoded, t.implements_conformance .decode _, CodedType.decodesBody ht hd context⟩
  · intro c hc
    obtain ⟨context, rfl⟩ := hencode c hc
    exact ⟨t, _, hcoded, t.implements_conformance .encode _, CodedType.encodesBody ht hd context⟩
  · rw [hbuild, hdrawn.length_eq, Nat.zero_add]
    rfl
  · exact hdrawn.nodup

/-- The code generated beside an accepted declaration is what the declaration asks for, in order.
The tokens of its methods name declared keys only, each with the text of its member or variant; they
bind every member before they use it; and no fresh name is made twice. -/
theorem generated_code_well_scoped (hd : d.OfItem) (haccepted : d.expand.outcome = .accepted) :
    ∃ g : Siblings, g.WellScoped d := by
  have hsound := (accepted_iff.mp haccepted).1
  obtain ⟨o, ho⟩ := hsound.exists_containerOptions
  have hoptions := ContainerOptions.ofAttributes_eq_ok ho
  obtain ⟨init, hinit, hasked, hmade⟩ := hsound.exists_initializerCode hd ho ⟨0, d.findings⟩
  cases hprotocols : o.protocols with
  | none =>
      refine ⟨_, wellScoped_initializer haccepted hasked hmade ?_ ?_ ?_⟩
      · simp [conforms, ho, hprotocols, findProtocol]
      · simp [conforms, ho, hprotocols, findProtocol]
      · simp only [build, ho, hprotocols]
        exact hinit
  | some protocols =>
      have hconforms : ∀ direction : Direction,
          d.conforms direction = (findProtocol direction.protocol protocols).isSome := by
        intro direction
        simp only [conforms, ho, hprotocols, Option.getD_some]
      have hcodable : Attribute.asked .codable Attribute.protocols d.attributes =
          some protocols := by
        rw [← hprotocols, hoptions]
      have hkind : d.kind = .struct ∨ d.kind = .enum := hsound.suits (has_of_asked hcodable)
      obtain ⟨t, ht⟩ :=
        exists_codedType_of_accepted haccepted ho hprotocols (hd.isSome_ident hkind) hkind
      have hbuild : d.build ⟨0, d.findings⟩ = (init.toList.map Initializer.tokens
          ++ (codingCode t protocols ⟨0, d.findings⟩).1,
          (codingCode t protocols ⟨0, d.findings⟩).2) := by
        rw [build_eq ho hprotocols ht, hinit]
      cases hrequested : CodedType.requested protocols with
      | false =>
          rw [codingCode_of_not_requested hrequested, List.append_nil] at hbuild
          rw [CodedType.requested, Bool.or_eq_false_iff] at hrequested
          have hdecode := (hconforms .decode).trans hrequested.1
          have hencode := (hconforms .encode).trans hrequested.2
          exact ⟨_, wellScoped_initializer haccepted hasked hmade hdecode hencode hbuild⟩
      | true =>
          have hcoded : d.codedType? = some t := by simp only [codedType?, ho, ht]
          exact exists_wellScoped_coding haccepted hd hasked hmade hcoded hconforms hrequested
            hbuild

end Declaration

/-- The code generated beside the entries of a journal is well scoped. -/
theorem Journal.entry_code_well_scoped :
    (Declaration.ofItem entry).expand.outcome = .accepted ∧
      ∃ g : Siblings, g.WellScoped (Declaration.ofItem entry) := by
  have haccepted : (Declaration.ofItem entry).expand.outcome = .accepted := by decide +kernel
  have hitem : (Declaration.ofItem entry).OfItem := ⟨entry, entry.attributes, rfl⟩
  exact ⟨haccepted, Declaration.generated_code_well_scoped hitem haccepted⟩

end KeyedCoding
