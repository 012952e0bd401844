import KeyedCoding.Proofs.Derivation.Rules

/-!
# Stripping

Scanning goes over the targets of a declaration, stripping over the parts of its item, and the two
know attributes by different means.  The targets are a view of the item: their attribute lists,
together with the item without these lists, determine it.  So it can be said without a second look
at the item what stripping does: it keeps what the targets do not show, and of what they show the
attributes that scanning does not know.  What is stripped asks for nothing, and expanding it again
gives it back as it is.
-/

namespace KeyedCoding

open Attribute

/-! ## Changing attribute lists -/

/-- The field with its attribute list changed. -/
def Field.changing (change : List Attribute → List Attribute) (f : Field) : Field :=
  { f with attributes := change f.attributes }

/-- The variant with its attribute list and those of its fields changed. -/
def Variant.changing (change : List Attribute → List Attribute) (v : Variant) : Variant :=
  { v with attributes := change v.attributes, fields := v.fields.map (Field.changing change) }

/-- The parts of an item with the attribute lists of fields and variants changed. -/
def ItemBody.changing (change : List Attribute → List Attribute) : ItemBody → ItemBody
  | .struct keyword name generics fields semicolon =>
      .struct keyword name generics (fields.map (Field.changing change)) semicolon
  | .enum keyword name generics variants span =>
      .enum keyword name generics (variants.map (Variant.changing change)) span
  | .union keyword name generics fields span =>
      .union keyword name generics (fields.map (Field.changing change)) span
  | .plain kind name lead body => .plain kind name lead body

namespace Item

/-- The item with all its attribute lists changed. -/
def changing (change : List Attribute → List Attribute) (item : Item) : Item :=
  { item with attributes := change item.attributes, body := item.body.changing change }

/-- The item without its attribute lists. -/
def bare (item : Item) : Item := item.changing fun _ => []

/-- The attribute lists of an item that scanning visits, in its order. -/
def scanned (item : Item) : List (List Attribute) :=
  (Declaration.ofItem item).targets.map Target.attributes

end Item

section Changing

variable {first second : List Attribute → List Attribute}

theorem Fields.map_changing (fields : Fields) :
    (fields.map (Field.changing first)).map (Field.changing second) =
      fields.map (Field.changing (second ∘ first)) := by
  cases fields <;> simp [Fields.map, Field.changing]

/-- Of two changes in a row only what becomes of the lists counts. -/
theorem Item.changing_changing (item : Item) :
    (item.changing first).changing second = item.changing (second ∘ first) := by
  obtain ⟨attributes, visibility, body⟩ := item
  cases body with
  | struct keyword name generics fields semicolon =>
      simp [changing, ItemBody.changing, Fields.map_changing]
  | enum keyword name generics variants span =>
      simp [changing, ItemBody.changing, Variant.changing, Fields.map_changing]
  | union keyword name generics fields span =>
      simp [changing, ItemBody.changing, Field.changing]
  | plain kind name lead body => simp [changing, ItemBody.changing]

end Changing

/-- Stripping changes every list to its foreign attributes. -/
theorem Item.stripped_eq_changing (item : Item) : item.stripped = item.changing foreign := by
  obtain ⟨attributes, visibility, body⟩ := item
  cases body <;> rfl

/-! ## The lists that scanning visits -/

theorem StoredMember.attributes_ofFields (index : Nat) (fields : List Field) :
    (ofFields index fields).map StoredMember.attributes = fields.map Field.attributes := by
  induction fields generalizing index with
  | nil => rfl
  | cons f rest ih => simp [ofFields, ofField, ih]

/-- The attribute lists of a variant and its fields. -/
def Variant.lists (v : Variant) : List (List Attribute) :=
  v.attributes :: v.fields.toList.map Field.attributes

/-- The attribute lists of the parts of an item. -/
def ItemBody.lists : ItemBody → List (List Attribute)
  | .struct _ _ _ fields _ => fields.toList.map Field.attributes
  | .enum _ _ _ variants _ => variants.flatMap Variant.lists
  | .union _ _ _ fields _ => fields.map Field.attributes
  | .plain _ _ _ _ => []

/-- Scanning visits the list of the item and those of its parts. -/
theorem Item.scanned_eq (item : Item) : item.scanned = item.attributes :: item.body.lists := by
  have hmember : Target.attributes ∘ StoredMember.target = StoredMember.attributes := rfl
  obtain ⟨attributes, visibility, body⟩ := item
  cases body with
  | enum keyword name generics variants span =>
      have hvariant : ∀ v : Variant,
          (DeclaredVariant.ofVariant v).targets.map Target.attributes = v.lists := by
        intro v
        simp [DeclaredVariant.ofVariant, DeclaredVariant.targets, Variant.lists, hmember,
          StoredMember.attributes_ofFields]
      simp [scanned, Declaration.ofItem, Declaration.targets, ItemBody.lists, List.map_flatMap,
        List.flatMap_map, hvariant]
  | _ =>
      simp [scanned, Declaration.ofItem, Declaration.targets, ItemBody.lists, hmember,
        StoredMember.attributes_ofFields]

theorem Fields.toList_map (change : Field → Field) (fields : Fields) :
    (fields.map change).toList = fields.toList.map change := by
  cases fields <;> rfl

theorem Variant.lists_changing (change : List Attribute → List Attribute) (v : Variant) :
    (v.changing change).lists = v.lists.map change := by
  simp [lists, changing, Fields.toList_map, Field.changing]

/-- Changing lists changes every list that scanning visits. -/
theorem Item.scanned_changing (change : List Attribute → List Attribute) (item : Item) :
    (item.changing change).scanned = item.scanned.map change := by
  rw [scanned_eq, scanned_eq, List.map_cons]
  refine congrArg (List.cons _) ?_
  cases hbody : item.body with
  | enum keyword name generics variants span =>
      simp [changing, hbody, ItemBody.changing, ItemBody.lists, List.map_flatMap, List.flatMap_map,
        Variant.lists_changing]
  | _ =>
      simp [changing, hbody, ItemBody.changing, ItemBody.lists, Fields.toList_map, Field.changing]

/-! ## The view determines the item -/

theorem Field.eq_of_bare {f g : Field} (hbare : f.changing (fun _ => []) = g.changing fun _ => [])
    (hlist : f.attributes = g.attributes) : f = g := by
  cases f
  cases g
  simp_all [changing]

theorem Field.eq_of_map_bare {fs gs : List Field}
    (hbare : fs.map (Field.changing fun _ => []) = gs.map (Field.changing fun _ => []))
    (hlists : fs.map Field.attributes = gs.map Field.attributes) : fs = gs := by
  induction fs generalizing gs with
  | nil =>
      cases gs with
      | nil => rfl
      | cons g rest => cases hbare
  | cons f fs ih =>
      cases gs with
      | nil => cases hbare
      | cons g gs =>
          rw [List.map_cons, List.map_cons, List.cons.injEq] at hbare hlists
          rw [Field.eq_of_bare hbare.1 hlists.1, ih hbare.2 hlists.2]

theorem Fields.eq_of_bare {fields others : Fields}
    (hbare : fields.map (Field.changing fun _ => []) = others.map (Field.changing fun _ => []))
    (hlists : fields.toList.map Field.attributes = others.toList.map Field.attributes) :
    fields = others := by
  cases fields <;> cases others <;> simp only [Fields.map, reduceCtorEq] at hbare
  case named.named =>
    simp only [Fields.named.injEq] at hbare
    rw [Field.eq_of_map_bare hbare.1 hlists, hbare.2]
  case unnamed.unnamed =>
    simp only [Fields.unnamed.injEq] at hbare
    rw [Field.eq_of_map_bare hbare.1 hlists, hbare.2]
  case unit.unit => rfl

theorem Variant.eq_of_bare {v w : Variant}
    (hbare : v.changing (fun _ => []) = w.changing fun _ => []) (hlists : v.lists = w.lists) :
    v = w := by
  obtain ⟨attributes, name, fields, discriminant, comma⟩ := v
  obtain ⟨attributes', name', fields', discriminant', comma'⟩ := w
  simp only [changing, Variant.mk.injEq, true_and] at hbare
  simp only [lists, List.cons.injEq] at hlists
  obtain ⟨rfl, hfields, rfl, rfl⟩ := hbare
  obtain ⟨rfl, hlists⟩ := hlists
  rw [Fields.eq_of_bare hfields hlists]

/-- Variants without their lists tell how many lists belong to each. -/
theorem Variant.length_lists {v w : Variant}
    (hbare : v.changing (fun _ => []) = w.changing fun _ => []) :
    v.lists.length = w.lists.length := by
  have hfields := congrArg (fun u : Variant => u.fields.toList.length) hbare
  simpa [changing, Fields.toList_map, lists] using hfields

theorem Variant.eq_of_map_bare {vs ws : List Variant}
    (hbare : vs.map (Variant.changing fun _ => []) = ws.map (Variant.changing fun _ => []))
    (hlists : vs.flatMap Variant.lists = ws.flatMap Variant.lists) : vs = ws := by
  induction vs generalizing ws with
  | nil =>
      cases ws with
      | nil => rfl
      | cons w rest => cases hbare
  | cons v vs ih =>
      cases ws with
      | nil => cases hbare
      | cons w ws =>
          rw [List.map_cons, List.map_cons, List.cons.injEq] at hbare
          rw [List.flatMap_cons, List.flatMap_cons] at hlists
          obtain ⟨hfirst, hrest⟩ := List.append_inj hlists (Variant.length_lists hbare.1)
          rw [Variant.eq_of_bare hbare.1 hfirst, ih hbare.2 hrest]

/-- An item is determined by the lists that scanning visits and what is left without them. -/
theorem Item.eq_of_bare_of_scanned {a b : Item} (hbare : a.bare = b.bare)
    (hscanned : a.scanned = b.scanned) : a = b := by
  rw [scanned_eq, scanned_eq, List.cons.injEq] at hscanned
  obtain ⟨attributes, visibility, body⟩ := a
  obtain ⟨attributes', visibility', body'⟩ := b
  simp only [bare, changing, Item.mk.injEq, true_and] at hbare hscanned
  obtain ⟨rfl, hbody⟩ := hbare
  obtain ⟨rfl, hlists⟩ := hscanned
  refine congrArg (Item.mk _ _) ?_
  cases body <;> cases body' <;>
    simp only [ItemBody.changing, reduceCtorEq, ItemBody.struct.injEq, ItemBody.enum.injEq,
      ItemBody.union.injEq, ItemBody.plain.injEq] at hbody
  case struct.struct =>
    obtain ⟨rfl, rfl, rfl, hfields, rfl⟩ := hbody
    rw [Fields.eq_of_bare hfields hlists]
  case enum.enum =>
    obtain ⟨rfl, rfl, rfl, hvariants, rfl⟩ := hbody
    rw [Variant.eq_of_map_bare hvariants hlists]
  case union.union =>
    obtain ⟨rfl, rfl, rfl, hfields, rfl⟩ := hbody
    rw [Field.eq_of_map_bare hfields hlists]
  case plain.plain =>
    obtain ⟨rfl, rfl, rfl, rfl⟩ := hbody
    rfl

/-! ## What is left by stripping -/

/-- Scanning and stripping know the same attributes. -/
theorem Attribute.foreign_eq_unscanned (attributes : List Attribute) :
    foreign attributes = attributes.filter fun a => (Known.of? a).isNone := by
  refine List.filter_congr fun a _ => ?_
  rw [Bool.eq_iff_iff, Option.isNone_iff_eq_none, Known.of?_eq_none_iff]
  simp [Known.isKnown, Known.mem_all]

theorem Known.of?_eq_none_of_mem_foreign {attributes : List Attribute} {a : Attribute}
    (h : a ∈ foreign attributes) : of? a = none := by
  rw [foreign_eq_unscanned] at h
  simpa using (List.mem_filter.mp h).2

/-- Targets on which scanning knows nothing have no findings. -/
theorem Declaration.findings_eq_nil {d : Declaration}
    (h : ∀ list ∈ d.targets.map Target.attributes, ∀ a ∈ list, Known.of? a = none) :
    d.findings = [] := by
  rw [findings, List.flatMap_eq_nil_iff]
  intro t ht
  rw [Known.findings, List.flatMap_eq_nil_iff]
  intro a ha
  rw [h t.attributes (List.mem_map_of_mem ht) a ha]

/-- Attributes that scanning does not know ask for nothing. -/
theorem ContainerOptions.ofAttributes_eq_initial {attributes : List Attribute}
    (h : ∀ a ∈ attributes, Known.of? a = none) : ofAttributes attributes = .ok initial := by
  unfold ofAttributes
  induction attributes with
  | nil => rfl
  | cons a rest ih =>
      rw [List.forall_mem_cons] at h
      have hstep : initial.adding a = .ok initial := by rw [adding, h.1]
      rw [List.foldlM_cons, hstep]
      exact ih h.2

/-- A declaration on which scanning knows nothing is accepted and given back. -/
theorem Declaration.expand_of_unscanned {d : Declaration}
    (h : ∀ list ∈ d.targets.map Target.attributes, ∀ a ∈ list, Known.of? a = none) :
    d.expand = ⟨d.item.stripped, [], [], .accepted⟩ := by
  have hown : ∀ a ∈ d.attributes, Known.of? a = none :=
    h d.attributes (by simp [targets])
  have hbuild : d.build ⟨0, []⟩ = ([], ⟨0, []⟩) := by
    unfold build
    rw [ContainerOptions.ofAttributes_eq_initial hown]
    rfl
  unfold expand
  rw [findings_eq_nil h]
  simp [Context.hasErrors, hbuild]

theorem Declaration.item_ofItem (item : Item) : (Declaration.ofItem item).item = item := by
  unfold ofItem
  cases item.body <;> rfl

/-- Stripping keeps of every list that scanning visits what scanning does not know, in its order,
and keeps everything else; what is left is accepted without findings and without code, and given
back as it is. -/
theorem Item.stripped_iff_and_expand_stripped (item : Item) :
    (∀ other : Item, other = item.stripped ↔
      other.bare = item.bare ∧
      (Declaration.ofItem other).targets.map Target.attributes =
        (Declaration.ofItem item).targets.map fun t =>
          t.attributes.filter fun a => (Known.of? a).isNone) ∧
    (Declaration.ofItem item).expand.item = item.stripped ∧
    (Declaration.ofItem item.stripped).expand = ⟨item.stripped, [], [], .accepted⟩ := by
  have hbare : item.stripped.bare = item.bare := by
    rw [stripped_eq_changing, bare, changing_changing]
    rfl
  have hlists : item.stripped.scanned = item.scanned.map foreign := by
    rw [stripped_eq_changing, scanned_changing]
  have hkept : item.scanned.map foreign =
      (Declaration.ofItem item).targets.map fun t =>
        t.attributes.filter fun a => (Known.of? a).isNone := by
    rw [scanned, List.map_map]
    exact List.map_congr_left fun t _ => foreign_eq_unscanned t.attributes
  refine ⟨fun other => ⟨?_, ?_⟩, ?_, ?_⟩
  · rintro rfl
    exact ⟨hbare, hlists.trans hkept⟩
  · rintro ⟨hother, hshown⟩
    exact eq_of_bare_of_scanned (hother.trans hbare.symm)
      (hshown.trans (hlists.trans hkept).symm)
  · rw [Declaration.expand]
    simp only [Declaration.item_ofItem]
  · have hunscanned : ∀ list ∈ (Declaration.ofItem item.stripped).targets.map Target.attributes,
        ∀ a ∈ list, Known.of? a = none := by
      intro list hlist a ha
      have hmem : list ∈ item.scanned.map foreign := hlists ▸ hlist
      obtain ⟨before, -, rfl⟩ := List.mem_map.mp hmem
      exact Known.of?_eq_none_of_mem_foreign ha
    have hagain : item.stripped.stripped = item.stripped := by
      have htwice : foreign ∘ foreign = foreign := by
        funext attributes
        simp [foreign]
      rw [stripped_eq_changing, stripped_eq_changing, changing_changing, htwice]
    rw [Declaration.expand_of_unscanned hunscanned, Declaration.item_ofItem, hagain]

end KeyedCoding
