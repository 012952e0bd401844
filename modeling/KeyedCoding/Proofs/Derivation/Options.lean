import KeyedCoding.Proofs.Coding.Reading
import KeyedCoding.Proofs.Derivation.Rules

/-!
# What attributes amount to

Options are collected attribute by attribute.  Each option shows what the last attribute of its name
asks for, whatever stands between, and collecting fails only on arguments that the rules refuse.
-/

namespace KeyedCoding

/-! ## The attribute of a name -/

namespace Attribute

variable {α : Type}

/-- What an attribute asks for if it has a name of the catalog. -/
def asks (k : Known) (read : Attribute → Except Failure α) (a : Attribute) : Option α :=
  if a.isNamed k.name then (read a).toOption else none

/-- What the attributes of a name ask for; of several, the last one counts. -/
def asked (k : Known) (read : Attribute → Except Failure α) (attributes : List Attribute) :
    Option α :=
  attributes.reverse.findSome? (asks k read)

/-- Whether an attribute of a name is there. -/
def has (k : Known) (attributes : List Attribute) : Bool := attributes.any fun a => a.isNamed k.name

/-- The key that an attribute gives, with the place where it does. -/
def givenKey (a : Attribute) : Except Failure GivenKey := a.keyArgument.map fun key => ⟨key, a.span⟩

theorem isNamed_eq (k : Known) (a : Attribute) :
    a.isNamed k.name = decide (Known.of? a = some k) := by
  rw [Bool.eq_iff_iff, ← Known.of?_eq_some_iff, decide_eq_true_iff]

theorem asks_of_read {k : Known} {read : Attribute → Except Failure α} {a : Attribute}
    (hnamed : a.isNamed k.name = true) {b : α} (hread : read a = .ok b) :
    asks k read a = some b := by
  simp [asks, hnamed, hread, Except.toOption]

/-- The key that is given does not depend on where it is. -/
theorem map_key_asked (k : Known) (attributes : List Attribute) :
    (asked k givenKey attributes).map GivenKey.key = asked k keyArgument attributes := by
  have hasks : Option.map GivenKey.key ∘ asks k givenKey = asks k keyArgument := by
    funext a
    simp only [Function.comp_apply, asks, givenKey]
    cases a.isNamed k.name with
    | false => rfl
    | true => cases a.keyArgument <;> rfl
  rw [asked, List.map_findSome?, hasks, asked]

theorem any_isNamed_or (j k : Known) (attributes : List Attribute) :
    attributes.any (fun a => a.isNamed j.name || a.isNamed k.name) =
      (has j attributes || has k attributes) := by
  induction attributes with
  | nil => rfl
  | cons a rest ih =>
      simp only [has, List.any_cons] at ih ⊢
      rw [ih]
      ac_rfl

end Attribute

open Attribute

/-! ## Collecting -/

section Collecting

variable {ω α : Type} {adding : ω → Attribute → Except Failure ω}

/-- If every step shows what its attribute asks for, or else what was shown before, then the end
shows what the last attribute asks for. -/
theorem view_foldlM (view : ω → Option α) {asking : Attribute → Option α}
    (hstep : ∀ {o a o'}, adding o a = .ok o' → view o' = (asking a).or (view o))
    {attributes : List Attribute} {o o' : ω} (h : attributes.foldlM adding o = .ok o') :
    view o' = (attributes.reverse.findSome? asking).or (view o) := by
  induction attributes generalizing o with
  | nil =>
      cases h
      rfl
  | cons a rest ih =>
      rw [List.foldlM_cons] at h
      obtain ⟨next, hnext, hrest⟩ := bind_eq_ok_iff.mp h
      rw [ih hrest, hstep hnext, List.reverse_cons, List.findSome?_append,
        List.findSome?_singleton, Option.or_assoc]

/-- If every step raises a flag at certain attributes, then the end shows whether there is one. -/
theorem flag_foldlM (flag : ω → Bool) {raising : Attribute → Bool}
    (hstep : ∀ {o a o'}, adding o a = .ok o' → flag o' = (flag o || raising a))
    {attributes : List Attribute} {o o' : ω} (h : attributes.foldlM adding o = .ok o') :
    flag o' = (flag o || attributes.any raising) := by
  induction attributes generalizing o with
  | nil =>
      cases h
      rw [List.any_nil, Bool.or_false]
  | cons a rest ih =>
      rw [List.foldlM_cons] at h
      obtain ⟨next, hnext, hrest⟩ := bind_eq_ok_iff.mp h
      rw [ih hrest, hstep hnext, List.any_cons, Bool.or_assoc]

/-- Collecting succeeds if every step does. -/
theorem exists_foldlM_ok {attributes : List Attribute}
    (hstep : ∀ a ∈ attributes, ∀ o, ∃ o', adding o a = .ok o') (o : ω) :
    ∃ o', attributes.foldlM adding o = .ok o' := by
  induction attributes generalizing o with
  | nil => exact ⟨o, rfl⟩
  | cons a rest ih =>
      rw [List.forall_mem_cons] at hstep
      obtain ⟨next, hnext⟩ := hstep.1 o
      obtain ⟨last, hlast⟩ := ih hstep.2 next
      exact ⟨last, by rw [List.foldlM_cons, hnext]; exact hlast⟩

end Collecting

/-- The arguments of an attribute are accepted, whatever it is. -/
def Attribute.Understood (a : Attribute) : Prop :=
  ∀ k : Known, a.isNamed k.name = true → k.check a = .ok ()

theorem Attribute.Understood.check {a : Attribute} {k : Known} (h : a.Understood)
    (hof : Known.of? a = some k) : k.check a = .ok () :=
  h k (Known.of?_eq_some_iff.mp hof)

/-- A check that only looks whether arguments can be read says that they can. -/
theorem exists_ok_of_map_ok {α : Type} {read : Except Failure α}
    (h : (read.map fun _ => ()) = .ok ()) : ∃ b, read = .ok b := by
  cases read with
  | ok b => exact ⟨b, rfl⟩
  | error f => cases h

/-! ## Options of a declaration -/

namespace ContainerOptions

/-- What one more attribute changes. -/
theorem adding_eq_ok {o o' : ContainerOptions} {a : Attribute} (h : o.adding a = .ok o') :
    o' = ⟨(asks .codable Attribute.protocols a).or o.protocols,
      o.memberInit || a.isNamed Known.memberInit.name,
      (asks .codingKeys Attribute.strategy a).getD o.strategy⟩ := by
  simp only [adding] at h
  simp only [asks, isNamed_eq]
  cases hof : Known.of? a with
  | none =>
      rw [hof] at h
      cases h
      simp
  | some k =>
      rw [hof] at h
      cases k with
      | codable | codingKeys =>
          obtain ⟨read, hread, h⟩ := bind_eq_ok_iff.mp h
          cases h
          simp [hread, Except.toOption]
      | _ =>
          cases h
          simp

/-- The options of a declaration, each by its own attribute. -/
theorem ofAttributes_eq_ok {attributes : List Attribute} {o : ContainerOptions}
    (h : ofAttributes attributes = .ok o) :
    o = ⟨asked .codable Attribute.protocols attributes, has .memberInit attributes,
      (asked .codingKeys Attribute.strategy attributes).getD .verbatim⟩ := by
  have hprotocols : o.protocols = (asked .codable Attribute.protocols attributes).or none :=
    view_foldlM protocols (fun hstep => by rw [adding_eq_ok hstep]) h
  have hinit : o.memberInit = has .memberInit attributes :=
    flag_foldlM memberInit (fun hstep => by rw [adding_eq_ok hstep]) h
  -- The strategy is never absent: the last one asked for replaces the one to start with.
  have hstrategy : some o.strategy =
      (asked .codingKeys Attribute.strategy attributes).or (some .verbatim) :=
    view_foldlM (fun o => some o.strategy)
      (fun hstep => by rw [adding_eq_ok hstep, Option.or_some]) h
  rw [Option.or_none] at hprotocols
  rw [Option.or_some, Option.some.injEq] at hstrategy
  rw [← hprotocols, ← hinit, ← hstrategy]

theorem exists_ofAttributes_ok {attributes : List Attribute}
    (h : ∀ a ∈ attributes, a.Understood) : ∃ o, ofAttributes attributes = .ok o := by
  refine exists_foldlM_ok (fun a ha o => ?_) _
  simp only [adding]
  cases hof : Known.of? a with
  | none => exact ⟨_, rfl⟩
  | some k =>
      have hcheck := (h a ha).check hof
      cases k with
      | codable | codingKeys =>
          obtain ⟨read, hread⟩ := exists_ok_of_map_ok hcheck
          exact ⟨_, by rw [hread]; rfl⟩
      | _ => exact ⟨_, rfl⟩

end ContainerOptions

/-! ## Options of a member -/

namespace MemberOptions

/-- What one more attribute changes. -/
theorem adding_eq_ok {o o' : MemberOptions} {a : Attribute} (h : o.adding a = .ok o') :
    o' = ⟨(asks .codedAt givenKey a).or o.key, (asks .codedBy pathArgument a).or o.helper,
      (asks .defaultValue expressionArgument a).or o.default,
      (asks .initial expressionArgument a).or o.initial,
      o.ignoreDecoding ||
        (a.isNamed Known.ignoreCoding.name || a.isNamed Known.ignoreDecoding.name),
      o.ignoreEncoding ||
        (a.isNamed Known.ignoreCoding.name || a.isNamed Known.ignoreEncoding.name)⟩ := by
  simp only [adding] at h
  simp only [asks, isNamed_eq]
  cases hof : Known.of? a with
  | none =>
      rw [hof] at h
      cases h
      simp
  | some k =>
      rw [hof] at h
      cases k with
      | codedAt | codedBy | defaultValue | initial =>
          obtain ⟨read, hread, h⟩ := bind_eq_ok_iff.mp h
          cases h
          simp [givenKey, hread, Except.map, Except.toOption]
      | _ =>
          cases h
          simp

/-- The options of a member, each by its own attribute. -/
theorem ofAttributes_eq_ok {attributes : List Attribute} {o : MemberOptions}
    (h : ofAttributes attributes = .ok o) :
    o = ⟨asked .codedAt givenKey attributes, asked .codedBy pathArgument attributes,
      asked .defaultValue expressionArgument attributes,
      asked .initial expressionArgument attributes,
      has .ignoreCoding attributes || has .ignoreDecoding attributes,
      has .ignoreCoding attributes || has .ignoreEncoding attributes⟩ := by
  have hkey : o.key = (asked .codedAt givenKey attributes).or Option.none :=
    view_foldlM key (fun hstep => by rw [adding_eq_ok hstep]) h
  have hhelper : o.helper = (asked .codedBy pathArgument attributes).or Option.none :=
    view_foldlM helper (fun hstep => by rw [adding_eq_ok hstep]) h
  have hdefault : o.default =
      (asked .defaultValue expressionArgument attributes).or Option.none :=
    view_foldlM default (fun hstep => by rw [adding_eq_ok hstep]) h
  have hinitial : o.initial = (asked .initial expressionArgument attributes).or Option.none :=
    view_foldlM initial (fun hstep => by rw [adding_eq_ok hstep]) h
  have hdecoding : o.ignoreDecoding =
      attributes.any fun a =>
        a.isNamed Known.ignoreCoding.name || a.isNamed Known.ignoreDecoding.name :=
    flag_foldlM ignoreDecoding (fun hstep => by rw [adding_eq_ok hstep]) h
  have hencoding : o.ignoreEncoding =
      attributes.any fun a =>
        a.isNamed Known.ignoreCoding.name || a.isNamed Known.ignoreEncoding.name :=
    flag_foldlM ignoreEncoding (fun hstep => by rw [adding_eq_ok hstep]) h
  rw [Option.or_none] at hkey hhelper hdefault hinitial
  rw [any_isNamed_or] at hdecoding hencoding
  rw [← hkey, ← hhelper, ← hdefault, ← hinitial, ← hdecoding, ← hencoding]

theorem exists_ofAttributes_ok {attributes : List Attribute}
    (h : ∀ a ∈ attributes, a.Understood) : ∃ o, ofAttributes attributes = .ok o := by
  refine exists_foldlM_ok (fun a ha o => ?_) _
  simp only [adding]
  cases hof : Known.of? a with
  | none => exact ⟨_, rfl⟩
  | some k =>
      have hcheck := (h a ha).check hof
      cases k with
      | codedAt | codedBy | defaultValue | initial =>
          obtain ⟨read, hread⟩ := exists_ok_of_map_ok hcheck
          exact ⟨_, by rw [hread]; rfl⟩
      | _ => exact ⟨_, rfl⟩

end MemberOptions

/-! ## Options of a variant -/

namespace VariantOptions

/-- What one more attribute changes. -/
theorem adding_eq_ok {o o' : VariantOptions} {a : Attribute} (h : o.adding a = .ok o') :
    o' = ⟨(asks .codedAs givenKey a).or o.key⟩ := by
  simp only [adding] at h
  simp only [asks, isNamed_eq]
  cases hof : Known.of? a with
  | none =>
      rw [hof] at h
      cases h
      simp
  | some k =>
      rw [hof] at h
      cases k with
      | codedAs =>
          obtain ⟨read, hread, h⟩ := bind_eq_ok_iff.mp h
          cases h
          simp [givenKey, hread, Except.map, Except.toOption]
      | _ =>
          cases h
          simp

/-- The options of a variant by its attribute. -/
theorem ofAttributes_eq_ok {attributes : List Attribute} {o : VariantOptions}
    (h : ofAttributes attributes = .ok o) :
    o = ⟨asked .codedAs givenKey attributes⟩ := by
  have hkey : o.key = (asked .codedAs givenKey attributes).or none :=
    view_foldlM key (fun hstep => by rw [adding_eq_ok hstep]) h
  rw [Option.or_none] at hkey
  rw [← hkey]

theorem exists_ofAttributes_ok {attributes : List Attribute}
    (h : ∀ a ∈ attributes, a.Understood) : ∃ o, ofAttributes attributes = .ok o := by
  refine exists_foldlM_ok (fun a ha o => ?_) _
  simp only [adding]
  cases hof : Known.of? a with
  | none => exact ⟨_, rfl⟩
  | some k =>
      have hcheck := (h a ha).check hof
      cases k with
      | codedAs =>
          obtain ⟨read, hread⟩ := exists_ok_of_map_ok hcheck
          exact ⟨_, by rw [hread]; rfl⟩
      | _ => exact ⟨_, rfl⟩

end VariantOptions

end KeyedCoding
