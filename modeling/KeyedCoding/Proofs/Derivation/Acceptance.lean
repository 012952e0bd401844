import KeyedCoding.Derivation.Expansion
import Mathlib.Data.List.Nodup

/-!
# What acceptance says about keys

Expansion reports every key that an earlier one of its scope already has, and nothing that comes
later takes a finding back.  So in a declaration that is accepted with a protocol asked for, the
keys of each scope differ.
-/

namespace KeyedCoding

/-! ## Collisions -/

theorem KeyEntry.collision_isError (typeName : String) (first entry : KeyEntry) :
    (KeyEntry.collision typeName first entry).isError = true := rfl

/-- Nothing collides exactly if the keys differ from each other and from those seen before. -/
theorem collisionsFrom_eq_nil_iff (typeName : String) (seen entries : List KeyEntry) :
    collisionsFrom typeName seen entries = [] ↔
      (entries.map KeyEntry.value).Nodup ∧
        ∀ e ∈ entries, ∀ s ∈ seen, s.value ≠ e.value := by
  induction entries generalizing seen with
  | nil => simp [collisionsFrom]
  | cons entry rest ih =>
      simp only [collisionsFrom]
      cases hfind : seen.find? fun e => e.value == entry.value with
      | some first =>
          have hmem := List.mem_of_find?_eq_some hfind
          have hvalue : first.value = entry.value := by simpa using List.find?_some hfind
          simp only [reduceCtorEq, false_iff, not_and]
          intro _ hseen
          exact hseen entry List.mem_cons_self first hmem hvalue
      | none =>
          have hfresh : ∀ s ∈ seen, s.value ≠ entry.value := by
            simpa using List.find?_eq_none.mp hfind
          rw [ih, List.map_cons, List.nodup_cons]
          constructor
          · rintro ⟨hnodup, hseen⟩
            refine ⟨⟨?_, hnodup⟩, ?_⟩
            · intro hmem
              obtain ⟨e, he, hvalue⟩ := List.mem_map.mp hmem
              exact hseen e he entry (by simp) hvalue.symm
            · intro e he s hs
              rcases List.mem_cons.mp he with rfl | he
              · exact hfresh s hs
              · exact hseen e he s (by simp [hs])
          · rintro ⟨⟨hentry, hnodup⟩, hseen⟩
            refine ⟨hnodup, fun e he s hs => ?_⟩
            rcases List.mem_append.mp hs with hs | hs
            · exact hseen e (List.mem_cons_of_mem _ he) s hs
            · obtain rfl := List.mem_singleton.mp hs
              exact fun hvalue => hentry (hvalue ▸ List.mem_map_of_mem he)

/-- A scope has no collision exactly if its keys differ. -/
theorem collisions_eq_nil_iff (typeName : String) (scope : List KeyEntry) :
    collisions typeName scope = [] ↔ (scope.map KeyEntry.value).Nodup := by
  rw [collisions, collisionsFrom_eq_nil_iff]
  simp

theorem isError_of_mem_collisionsFrom {typeName : String} {seen entries : List KeyEntry}
    {finding : Diagnostic} (h : finding ∈ collisionsFrom typeName seen entries) :
    finding.isError = true := by
  induction entries generalizing seen with
  | nil => simp [collisionsFrom] at h
  | cons entry rest ih =>
      simp only [collisionsFrom] at h
      cases hfind : seen.find? fun e => e.value == entry.value with
      | some first =>
          rw [hfind] at h
          rcases List.mem_cons.mp h with rfl | h
          · exact KeyEntry.collision_isError typeName first entry
          · exact ih h
      | none =>
          rw [hfind] at h
          exact ih h

namespace CodedType

theorem keyFindings_eq_nil_iff (t : CodedType) :
    t.keyFindings = [] ↔ ∀ scope ∈ t.scopes, (scope.map KeyEntry.value).Nodup := by
  simp only [keyFindings, List.flatMap_eq_nil_iff, collisions_eq_nil_iff]

theorem isError_of_mem_keyFindings {t : CodedType} {finding : Diagnostic}
    (h : finding ∈ t.keyFindings) : finding.isError = true := by
  obtain ⟨scope, _, h⟩ := List.mem_flatMap.mp h
  exact isError_of_mem_collisionsFrom h

end CodedType

/-! ## Steps that find nothing -/

namespace Expanding

variable {α β : Type}

/-- A step that leaves the findings as they are. -/
def Quiet (step : Expanding α) : Prop := ∀ c, (step c).2.diagnostics = c.diagnostics

theorem quiet_pure (a : α) : Quiet (pure a : Expanding α) := fun _ => rfl

theorem Quiet.bind {step : Expanding α} {next : α → Expanding β} (h : Quiet step)
    (hnext : ∀ a, Quiet (next a)) : Quiet (step >>= next) := by
  intro c
  show (next (step c).1 (step c).2).2.diagnostics = c.diagnostics
  rw [hnext, h]

/-- A step that neither looks at the findings nor changes them. -/
def Detached (step : Expanding α) : Prop := ∀ c found,
  step { c with diagnostics := found } = ((step c).1, { (step c).2 with diagnostics := found })

theorem Detached.quiet {step : Expanding α} (h : Detached step) : Quiet step := fun c =>
  congrArg (fun r => r.2.diagnostics) (h c c.diagnostics)

theorem detached_pure (a : α) : Detached (pure a : Expanding α) := fun _ _ => rfl

theorem Detached.bind {step : Expanding α} {next : α → Expanding β} (h : Detached step)
    (hnext : ∀ a, Detached (next a)) : Detached (step >>= next) := by
  intro c found
  show next (step { c with diagnostics := found }).1 (step { c with diagnostics := found }).2 =
    ((next (step c).1 (step c).2).1,
      { (next (step c).1 (step c).2).2 with diagnostics := found })
  rw [h c found, hnext]

theorem detached_freshName (use : String) : Detached (freshName use) := fun _ _ => rfl

end Expanding

open Expanding

namespace CodedMember

theorem detached_binding (keys container : String) (m : CodedMember) :
    Detached (m.binding keys container) := by
  unfold binding
  split
  · split
    · exact (detached_freshName _).bind fun _ => detached_pure _
    · exact detached_pure _
  · exact detached_pure _

theorem detached_bindings (keys container : String) (members : List CodedMember) :
    Detached (bindings keys container members) := by
  induction members with
  | nil => exact detached_pure _
  | cons m rest ih =>
      exact (detached_binding keys container m).bind fun _ => ih.bind fun _ => detached_pure _

end CodedMember

namespace CodedCase

theorem detached_decodeArms (keys : String) (cases : List CodedCase) :
    Detached (decodeArms keys cases) := by
  induction cases with
  | nil => exact detached_pure _
  | cons c rest ih =>
      have harm : Detached (c.decodeArm keys) :=
        (detached_freshName _).bind fun _ => (detached_freshName _).bind fun container =>
          (CodedMember.detached_bindings keys container c.members).bind fun _ => detached_pure _
      exact harm.bind fun _ => ih.bind fun _ => detached_pure _

theorem detached_encodeArms (keys : String) (cases : List CodedCase) :
    Detached (encodeArms keys cases) := by
  induction cases with
  | nil => exact detached_pure _
  | cons c rest ih =>
      have harm : Detached (c.encodeArm keys) :=
        (detached_freshName _).bind fun _ => (detached_freshName _).bind fun _ => detached_pure _
      exact harm.bind fun _ => ih.bind fun _ => detached_pure _

end CodedCase

namespace CodedType

theorem detached_decodeBody (t : CodedType) : Detached t.decodeBody := by
  refine (detached_freshName _).bind fun container => ?_
  split
  · exact (CodedMember.detached_bindings _ container _).bind fun _ => detached_pure _
  · exact (detached_freshName _).bind fun _ =>
      (CodedCase.detached_decodeArms _ _).bind fun _ => detached_pure _

theorem detached_encodeBody (t : CodedType) : Detached t.encodeBody := by
  unfold encodeBody
  split
  · exact (detached_freshName _).bind fun _ => detached_pure _
  · exact detached_pure _
  · exact (detached_freshName _).bind fun _ =>
      (CodedCase.detached_encodeArms _ _).bind fun _ => detached_pure _

theorem detached_synthesize (t : CodedType) (direction : Direction) (protocols : List Tokens) :
    Detached (t.synthesize direction protocols) := by
  unfold synthesize
  split
  · exact detached_pure _
  · cases direction with
    | decode =>
        exact ((detached_decodeBody t).bind fun _ => detached_pure _).bind fun _ => detached_pure _
    | encode =>
        exact ((detached_encodeBody t).bind fun _ => detached_pure _).bind fun _ => detached_pure _

end CodedType

/-! ## Accepted declarations -/

namespace Declaration

/-- Generating the code of a coded type reports exactly its key findings. -/
theorem codingCode_diagnostics {t : CodedType} {protocols : List Tokens}
    (h : CodedType.requested protocols = true) (c : Context) :
    (codingCode t protocols c).2.diagnostics = c.diagnostics ++ t.keyFindings := by
  have hrest : Quiet (do
      let decoding ← t.synthesize .decode protocols
      let encoding ← t.synthesize .encode protocols
      pure ([t.keys.declaration t.visibility]
        ++ (decoding.toList ++ encoding.toList).map t.conformance)) :=
    (t.detached_synthesize .decode protocols).quiet.bind fun _ =>
      (t.detached_synthesize .encode protocols).quiet.bind fun _ => quiet_pure _
  have hstart : codingCode t protocols c = (do
      let decoding ← t.synthesize .decode protocols
      let encoding ← t.synthesize .encode protocols
      pure ([t.keys.declaration t.visibility]
        ++ (decoding.toList ++ encoding.toList).map t.conformance) : Expanding (List Tokens))
      { c with diagnostics := c.diagnostics ++ t.keyFindings } := by
    simp only [codingCode, CodedType.keyDeclarations, h, if_true]
    rfl
  rw [hstart, hrest]

/-- An accepted declaration passed the rules of its attributes, and building its code reported no
error. -/
theorem build_of_accepted {d : Declaration} (h : d.expand.outcome = .accepted) :
    (d.build ⟨0, d.findings⟩).2.hasErrors = false := by
  unfold expand at h
  by_cases hchecked : (⟨0, d.findings⟩ : Context).hasErrors = true
  · simp [hchecked] at h
  · simp only [hchecked, if_false, Bool.false_eq_true] at h
    by_cases hfinal : (d.build ⟨0, d.findings⟩).2.hasErrors = true
    · simp [hfinal] at h
    · simpa using hfinal

/-- In an accepted declaration with a protocol asked for, the keys of every scope differ. -/
theorem nodup_scopes_of_accepted {d : Declaration} (haccepted : d.expand.outcome = .accepted)
    {o : ContainerOptions} (ho : ContainerOptions.ofAttributes d.attributes = .ok o)
    {protocols : List Tokens} (hprotocols : o.protocols = some protocols)
    (hrequested : CodedType.requested protocols = true) {t : CodedType}
    (ht : CodedType.ofDeclaration d o.strategy = .ok (some t)) :
    ∀ scope ∈ t.scopes, (scope.map KeyEntry.value).Nodup := by
  have hbuild := build_of_accepted haccepted
  have hfinal : (d.build ⟨0, d.findings⟩).2.diagnostics =
      (d.initializerCode o ⟨0, d.findings⟩).2.diagnostics ++ t.keyFindings := by
    rw [← codingCode_diagnostics hrequested]
    simp only [build, ho, hprotocols, ht]
    rfl
  rw [← t.keyFindings_eq_nil_iff]
  rw [Context.hasErrors, hfinal, List.any_append, Bool.or_eq_false_iff] at hbuild
  -- Every key finding is an error, so without errors there is no key finding.
  refine List.eq_nil_iff_forall_not_mem.mpr fun finding hfinding => ?_
  have hquiet := List.any_eq_false.mp hbuild.2 finding hfinding
  exact hquiet (CodedType.isError_of_mem_keyFindings hfinding)

end Declaration

end KeyedCoding
