import KeyedCoding.Derivation.Declaration
import KeyedCoding.Source.Language

/-!
# Fields as they are written

A field has a name exactly if it stands in braces.  No declaration says so, but every item that is
parsed keeps to it: `Yields` says what holds of whatever a parser gives back, and follows the parser
down to the two places where fields are made.
-/

namespace KeyedCoding

/-! ## What parsers give back -/

namespace Parser

variable {α β : Type} {P : α → Prop} {Q : β → Prop}

/-- Whatever the parser gives back has a property. -/
def Yields (P : α → Prop) (p : Parser α) : Prop :=
  ∀ input a rest, p input = .ok (a, rest) → P a

theorem yields_pure {a : α} (h : P a) : Yields P (pure a : Parser α) := by
  intro input b rest hb
  cases hb
  exact h

theorem yields_throw (r : Refusal) : Yields P (throw r : Parser α) := by
  intro input a rest ha
  cases ha

theorem Yields.bind {p : Parser α} {next : α → Parser β} (h : Yields P p)
    (hnext : ∀ a, P a → Yields Q (next a)) : Yields Q (p >>= next) := by
  intro input b rest hb
  have hb : (p input >>= fun r => next r.1 r.2) = .ok (b, rest) := hb
  cases hp : p input with
  | error r =>
      rw [hp] at hb
      cases hb
  | ok r =>
      rw [hp] at hb
      exact hnext r.1 (h input r.1 r.2 hp) r.2 b rest hb

/-- What is read first does not matter if the rest yields the property anyway. -/
theorem yields_bind {p : Parser α} {next : α → Parser β} (hnext : ∀ a, Yields Q (next a)) :
    Yields Q (p >>= next) := by
  have hany : Yields (fun _ => True) p := fun _ _ _ _ => trivial
  exact hany.bind fun a _ => hnext a

theorem yields_ite {c : Prop} [Decidable c] {p q : Parser α} (hp : Yields P p) (hq : Yields P q) :
    Yields P (if c then p else q) := by
  split
  · exact hp
  · exact hq

theorem yields_failHere (message : String) : Yields P (failHere message : Parser α) :=
  yields_bind fun _ => yields_bind fun _ => yields_throw _

theorem yields_expected (alternatives : List Peek) :
    Yields P (expected alternatives : Parser α) := by
  refine yields_bind fun _ => ?_
  dsimp only
  split
  · refine yields_bind fun _ => ?_
    split <;> exact yields_throw _
  · exact yields_failHere _

theorem Yields.within {p : Parser α} (h : Yields P p) (d : Delimiter) (body : Tokens)
    (span : Span) : Yields P (within d body span p) := by
  refine yields_bind fun input => ?_
  have hlift : Yields (fun r : α × Input => P r.1)
      (liftM ((p ⟨body, input.stray⟩).mapError (Refusal.settled span.closing)) :
        Parser (α × Input)) := by
    intro outer r rest hr
    cases hp : p ⟨body, input.stray⟩ with
    | error refusal =>
        rw [hp] at hr
        cases hr
    | ok made =>
        rw [hp] at hr
        cases hr
        exact h _ _ _ hp
  exact hlift.bind fun r hr => yields_bind fun _ => yields_pure hr

theorem Yields.group {p : Parser α} (h : Yields P p) (d : Delimiter) :
    Yields (fun r => P r.1) (group d p) := by
  refine yields_bind fun (body, span) => ?_
  exact (h.within d body span).bind fun a ha => yields_pure ha

theorem Yields.iterate {p : Parser (Option α)} (h : Yields (fun o => ∀ a ∈ o, P a) p)
    (bound : Nat) : Yields (fun as => ∀ a ∈ as, P a) (iterate p bound) := by
  induction bound with
  | zero => exact yields_pure (by simp)
  | succ bound ih =>
      refine h.bind fun o ho => ?_
      cases o with
      | none => exact yields_pure (by simp)
      | some a =>
          refine ih.bind fun rest hrest => yields_pure ?_
          exact List.forall_mem_cons.mpr ⟨ho a rfl, hrest⟩

/-- Items that are divided by commas are those that the parser of one item gives back. -/
theorem Yields.terminated {p : Parser α} (h : Yields P p) :
    Yields (fun parts => ∀ part ∈ parts, P part.1) (terminated p) := by
  have hround : Yields (fun o : Option (α × Tokens) => ∀ part ∈ o, P part.1) (do
      if ← atEnd then pure none
      else do
        let a ← p
        if ← atEnd then pure (some (a, []))
        else do
          let comma ← op ","
          pure (some (a, comma))) := by
    refine yields_bind fun _ => ?_
    split
    · exact yields_pure (by simp)
    · refine h.bind fun a ha => yields_bind fun _ => ?_
      split
      · exact yields_pure (by simpa using ha)
      · exact yields_bind fun _ => yields_pure (by simpa using ha)
  exact yields_bind fun _ => hround.iterate _

theorem run_eq_ok_iff {p : Parser α} {scope : Span} {tokens : Tokens} {a : α} :
    p.run scope tokens = .ok a ↔ p ⟨tokens, none⟩ = .ok (a, ⟨[], none⟩) := by
  unfold Parser.run
  cases hp : p ⟨tokens, none⟩ with
  | error r => exact ⟨nofun, nofun⟩
  | ok result =>
      obtain ⟨b, ⟨left, stray⟩⟩ := result
      cases stray with
      | some failure => exact ⟨nofun, nofun⟩
      | none =>
          cases left with
          | cons t rest => exact ⟨nofun, nofun⟩
          | nil => exact ⟨fun h => by cases h; rfl, fun h => by cases h; rfl⟩

end Parser

open KeyedCoding.Parser KeyedCoding.Grammar

/-! ## Fields -/

/-- Fields have names exactly in braces. -/
def Fields.Uniform : Fields → Prop
  | named fields _ => ∀ f ∈ fields, f.name.isSome = true
  | unnamed fields _ => ∀ f ∈ fields, f.name.isSome = false
  | unit => True

/-- The fields of a struct, a union or the variants of an enum are as they are written. -/
def ItemBody.Uniform : ItemBody → Prop
  | struct _ _ _ fields _ => fields.Uniform
  | union _ _ _ fields _ => ∀ f ∈ fields, f.name.isSome = true
  | enum _ _ _ variants _ => ∀ v ∈ variants, v.fields.Uniform
  | plain _ _ _ _ => True

namespace Grammar

variable (g : Grammar)

theorem yields_fieldList {p : Parser Field} {isNamed : Bool}
    (h : Yields (fun f => f.name.isSome = isNamed) p) :
    Yields (fun fields => ∀ f ∈ fields, f.name.isSome = isNamed) (fieldList p) := by
  refine h.terminated.bind fun parts hparts => yields_pure ?_
  rw [List.forall_mem_map]
  exact hparts

theorem yields_namedFields :
    Yields (fun r => ∀ f ∈ r.1, f.name.isSome = true) (namedFields g) := by
  refine (yields_fieldList ?_).group .brace
  exact yields_bind fun _ => yields_bind fun _ => yields_bind fun _ => yields_bind fun _ =>
    yields_bind fun _ => yields_bind fun _ => yields_pure rfl

theorem yields_unnamedFields :
    Yields (fun r => ∀ f ∈ r.1, f.name.isSome = false) (unnamedFields g) := by
  refine (yields_fieldList ?_).group .paren
  exact yields_bind fun _ => yields_bind fun _ => yields_bind fun _ => yields_pure rfl

theorem yields_structItem : Yields ItemBody.Uniform (structItem g) := by
  refine yields_bind fun keyword => yields_bind fun t => yields_bind fun generics =>
    yields_bind fun condition => yields_bind fun tokens => ?_
  -- in parentheses, in braces, or without either
  split
  · refine (yields_unnamedFields g).bind fun (fields, span) hfields => yields_bind fun _ =>
      yields_bind fun _ => ?_
    split
    · exact yields_bind fun _ => yields_pure hfields
    · split <;> exact yields_expected _
  · split
    · exact (yields_namedFields g).bind fun (fields, span) hfields => yields_pure hfields
    · split
      · exact yields_bind fun _ => yields_pure trivial
      · split <;> exact yields_expected _

theorem yields_unionItem : Yields ItemBody.Uniform (unionItem g) :=
  yields_bind fun _ => yields_bind fun _ => yields_bind fun _ => yields_bind fun _ =>
    (yields_namedFields g).bind fun _ hfields => yields_pure hfields

theorem yields_variant : Yields (fun v => v.fields.Uniform) (variant g) := by
  have hfields : Yields Fields.Uniform (do
      if ← peekGroup .brace then do
        let fields ← namedFields g
        pure (Fields.named fields.1 fields.2)
      else if ← peekGroup .paren then do
        let fields ← unnamedFields g
        pure (Fields.unnamed fields.1 fields.2)
      else pure Fields.unit) := by
    refine yields_bind fun _ => yields_ite ?_ (yields_bind fun _ => yields_ite ?_ ?_)
    · exact (yields_namedFields g).bind fun _ hfields => yields_pure hfields
    · exact (yields_unnamedFields g).bind fun _ hfields => yields_pure hfields
    · exact yields_pure trivial
  exact yields_bind fun _ => yields_bind fun _ => yields_bind fun _ =>
    hfields.bind fun _ huniform => yields_bind fun _ => yields_pure huniform

theorem yields_enumItem : Yields ItemBody.Uniform (enumItem g) := by
  refine yields_bind fun _ => yields_bind fun _ => yields_bind fun _ => yields_bind fun _ =>
    ((yields_variant g).terminated.group .brace).bind fun (variants, span) hvariants =>
      yields_pure ?_
  exact List.forall_mem_map.mpr hvariants

/-! ## Items -/

/-- What is not taken apart has no fields. -/
theorem uniform_plainItem (kind : PlainKind) (t : Option Token) (lead : Tokens)
    (body : Option ((List Attribute × Tokens) × Span)) :
    (plainItem kind t lead body).2.Uniform := by
  cases body <;> trivial

/-- The parts of an item, if it has any, have their fields as they are written. -/
def AllUniform (parts : Option (List Attribute × ItemBody)) : Prop := ∀ i ∈ parts, i.2.Uniform

theorem allUniform_none : AllUniform none := by simp [AllUniform]

theorem allUniform_some {i : List Attribute × ItemBody} (h : i.2.Uniform) :
    AllUniform (some i) := by
  simpa [AllUniform] using h

theorem yields_kept {p : Parser ItemBody} (h : Yields ItemBody.Uniform p) :
    Yields AllUniform (do
      let b ← p
      pure (some (([] : List Attribute), b))) :=
  h.bind fun _ hb => yields_pure (allUniform_some hb)

theorem yields_some {p : Parser (List Attribute × ItemBody)}
    (h : Yields (fun i => i.2.Uniform) p) : Yields AllUniform (do
      let i ← p
      pure (some i)) :=
  h.bind fun _ hi => yields_pure (allUniform_some hi)

theorem yields_functionItem : Yields AllUniform (functionItem g) := by
  refine yields_bind fun _ => yields_bind fun _ => ?_
  split
  · exact yields_bind fun _ => yields_pure allUniform_none
  · exact yields_bind fun _ => yields_pure (allUniform_some (uniform_plainItem _ _ _ _))

theorem yields_crateItem : Yields (fun i => i.2.Uniform) crateItem :=
  yields_bind fun _ => yields_bind fun _ => yields_bind fun _ => yields_bind fun _ =>
    yields_bind fun _ => yields_pure (uniform_plainItem _ _ _ _)

theorem yields_foreignItem : Yields (fun i => i.2.Uniform) (foreignItem g) :=
  yields_bind fun _ => yields_bind fun _ => yields_bind fun _ =>
    yields_pure (uniform_plainItem _ _ _ _)

theorem yields_moduleItem : Yields (fun i => i.2.Uniform) (moduleItem g) := by
  refine yields_bind fun _ => yields_bind fun _ => yields_bind fun _ => yields_bind fun _ => ?_
  split
  · exact yields_bind fun _ => yields_pure (uniform_plainItem _ _ _ _)
  · refine yields_bind fun _ => ?_
    split
    · exact yields_bind fun _ => yields_pure (uniform_plainItem _ _ _ _)
    · exact yields_expected _

theorem yields_useItem : Yields AllUniform (useItem g) := by
  refine yields_bind fun _ => yields_bind fun _ => yields_bind fun tree => yields_bind fun _ =>
    yields_pure ?_
  cases tree with
  | none => exact allUniform_none
  | some t => exact allUniform_some (uniform_plainItem _ _ _ _)

theorem yields_staticItem : Yields AllUniform (staticItem g) := by
  refine yields_bind fun _ => yields_bind fun _ => yields_bind fun _ => yields_bind fun _ => ?_
  split
  · exact yields_bind fun _ => yields_bind fun _ => yields_bind fun _ =>
      yields_pure allUniform_none
  · refine yields_bind fun _ => yields_bind fun _ => yields_bind fun _ => ?_
    split
    · exact yields_bind fun _ => yields_pure allUniform_none
    · exact yields_bind fun _ => yields_bind fun _ => yields_bind fun _ =>
        yields_pure (allUniform_some (uniform_plainItem _ _ _ _))

theorem yields_constItem : Yields AllUniform (do
    let t ← constParts g true
    pure (t.map fun t => plainItem .other none t none)) := by
  refine yields_bind fun t => yields_pure ?_
  cases t with
  | none => exact allUniform_none
  | some t => exact allUniform_some (uniform_plainItem _ _ _ _)

theorem yields_aliasItem : Yields AllUniform (aliasItem g) := by
  refine yields_bind fun _ => ?_
  split
  · exact yields_pure allUniform_none
  · exact yields_pure (allUniform_some (uniform_plainItem _ _ _ _))

theorem yields_traitItem : Yields (fun i => i.2.Uniform) (traitItem g) := by
  refine yields_bind fun _ => yields_bind fun _ => yields_bind fun _ => yields_bind fun _ =>
    yields_bind fun _ => yields_bind fun _ => yields_ite ?_ (yields_ite (yields_expected _) ?_)
  · exact yields_bind fun _ => yields_bind fun _ => yields_bind fun _ => yields_bind fun _ =>
      yields_pure (uniform_plainItem _ _ _ _)
  · exact yields_bind fun _ => yields_bind fun _ => yields_bind fun _ => yields_bind fun _ =>
      yields_pure (uniform_plainItem _ _ _ _)

theorem yields_implementationItem : Yields AllUniform (implementationItem g) := by
  unfold implementationItem
  refine yields_bind fun _ => yields_bind fun _ => yields_bind fun _ => yields_bind fun _ =>
    yields_bind fun _ => yields_bind fun _ => ?_
  dsimp only
  -- with or without the mark of a constant trait, the same is read behind it
  refine yields_ite (yields_bind fun _ => yields_bind fun _ => ?_) ?_
  all_goals
    refine yields_bind fun _ => yields_bind fun _ => yields_bind fun _ =>
      yields_bind fun (_, _) => yields_bind fun _ => yields_bind fun _ => ?_
    exact yields_ite (yields_pure allUniform_none)
      (yields_pure (allUniform_some (uniform_plainItem _ _ _ _)))

/-- Whatever words an item starts with, its fields are as they are written. -/
theorem yields_itemParts (before : Input) (visible : Tokens) :
    Yields AllUniform (itemParts g before visible) := by
  unfold itemParts
  refine yields_bind fun tokens => ?_
  dsimp only
  -- Some items are read again from their first word on; what is read twice changes nothing here.
  have hforeign : Yields AllUniform (do
      set before
      let i ← foreignItem g
      pure (some i)) := yields_bind fun _ => yields_some (yields_foreignItem g)
  have himplementation : Yields AllUniform (do
      set before
      implementationItem g) := yields_bind fun _ => yields_implementationItem g
  have htrait := yields_some (yields_traitItem g)
  have hmodule := yields_some (yields_moduleItem g)
  have houtside : Yields AllUniform (if tokens.behind.startsWord "crate" then do
        let i ← crateItem
        pure (some i)
      else if tokens.behind.startsGroup .brace then do
        set before
        let i ← foreignItem g
        pure (some i)
      else do
        let _ ← word "extern"
        let convention ← stringIf
        if convention.isEmpty then
          expected [.word "crate", .group .brace, ⟨"string literal", fun _ => false⟩]
        else if ← peekGroup .brace then do
          set before
          let i ← foreignItem g
          pure (some i)
        else expected [.group .brace]) :=
    yields_ite (yields_some yields_crateItem) (yields_ite hforeign (yields_bind fun _ =>
      yields_bind fun _ => yields_ite (yields_expected _) (yields_bind fun _ =>
        yields_ite hforeign (yields_expected _))))
  refine yields_bind fun _ => yields_ite (yields_functionItem g) ?_
  refine yields_ite houtside ?_
  refine yields_ite (yields_useItem g) ?_
  refine yields_ite (yields_staticItem g) ?_
  refine yields_ite (yields_constItem g) ?_
  refine yields_ite (yields_ite htrait (yields_ite himplementation (yields_ite hforeign
    (yields_ite hmodule (yields_bind fun _ => yields_expected _))))) ?_
  refine yields_ite hmodule ?_
  refine yields_ite (yields_aliasItem g) ?_
  refine yields_ite (yields_kept (yields_structItem g)) ?_
  refine yields_ite (yields_kept (yields_enumItem g)) ?_
  refine yields_ite (yields_kept (yields_unionItem g)) ?_
  refine yields_ite htrait ?_
  refine yields_ite himplementation ?_
  refine yields_ite (yields_bind fun _ => yields_pure allUniform_none) ?_
  refine yields_ite (yields_bind fun _ => ?_) (yields_expected _)
  exact yields_pure (allUniform_some (uniform_plainItem _ _ _ _))

theorem yields_fullItem : Yields (fun item => item.body.Uniform) (fullItem g) := by
  refine yields_bind fun _ => yields_bind fun _ => yields_bind fun before =>
    yields_bind fun visible => (yields_itemParts g before visible).bind fun parts hparts => ?_
  cases parts with
  | none => exact yields_bind fun _ => yields_pure trivial
  | some i => exact yields_pure (hparts i rfl)

end Grammar

/-- Every item that is parsed has its fields as they are written. -/
theorem Language.uniform_of_parse {scope : Span} {tokens : Tokens} {item : Item}
    (h : parse Language.item scope tokens = .ok item) : item.body.Uniform :=
  Grammar.yields_fullItem _ _ _ _ (Parser.run_eq_ok_iff.mp h)

/-! ## Members -/

theorem StoredMember.named_of_mem_ofFields {isNamed : Bool} {fields : List Field}
    (h : ∀ f ∈ fields, f.name.isSome = isNamed) {n : Nat} {m : StoredMember}
    (hm : m ∈ ofFields n fields) : m.named = isNamed := by
  induction fields generalizing n with
  | nil => cases hm
  | cons f rest ih =>
      rw [List.forall_mem_cons] at h
      rcases List.mem_cons.mp hm with rfl | hm
      · exact h.1
      · exact ih h.2 hm

/-- Members have names exactly where their fields are written with names. -/
theorem Fields.Uniform.named_iff {fields : Fields} (h : fields.Uniform) :
    ∀ m ∈ StoredMember.ofFields 0 fields.toList, m.named = true ↔ fields.style = .named := by
  intro m hm
  cases fields with
  | named fields span => exact iff_of_true (StoredMember.named_of_mem_ofFields h hm) rfl
  | unnamed fields span =>
      rw [StoredMember.named_of_mem_ofFields h hm]
      exact iff_of_false Bool.false_ne_true (by rintro ⟨⟩)
  | unit => cases hm

namespace Declaration

/-- Fields have names exactly in a struct that is written with names. -/
def NamedAsWritten (d : Declaration) : Prop :=
  ∀ m ∈ d.members, m.named = true ↔ d.style = .named

/-- The declaration of an item that is parsed has names exactly where they are written. -/
theorem namedAsWritten_of_parse {scope : Span} {tokens : Tokens} {item : Item}
    (h : Language.parse Language.item scope tokens = .ok item) :
    (ofItem item).NamedAsWritten := by
  have huniform := Language.uniform_of_parse h
  obtain ⟨attributes, visibility, body⟩ := item
  intro m hm
  cases body with
  | struct keyword name generics fields semicolon => exact huniform.named_iff m hm
  | union keyword name generics fields span =>
      exact iff_of_true (StoredMember.named_of_mem_ofFields huniform hm) rfl
  | enum keyword name generics variants span => cases hm
  | plain kind name lead body => cases hm

/-- So have the variants of an enum that is parsed. -/
theorem named_iff_of_variant {scope : Span} {tokens : Tokens} {item : Item}
    (h : Language.parse Language.item scope tokens = .ok item) :
    ∀ v ∈ (ofItem item).variants, ∀ m ∈ v.members, m.named = true ↔ v.style = .named := by
  have huniform := Language.uniform_of_parse h
  obtain ⟨attributes, visibility, body⟩ := item
  intro v hv m hm
  cases body with
  | enum keyword name generics variants span =>
      obtain ⟨variant, hvariant, rfl⟩ := List.mem_map.mp hv
      exact (huniform variant hvariant).named_iff m hm
  | struct keyword name generics fields semicolon => cases hv
  | union keyword name generics fields span => cases hv
  | plain kind name lead body => cases hv

end Declaration

end KeyedCoding
