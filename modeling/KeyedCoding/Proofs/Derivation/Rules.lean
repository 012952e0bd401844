import KeyedCoding.Derivation.Expansion
import Mathlib.Logic.Function.Basic

/-!
# What the rules of attributes require

The rules are run one attribute at a time and each reports in words of its own.  `Target.Sound`
says what they require of a target as a whole, without the order in which the attributes stand.  The
rules find an error exactly if the target is not sound, and on a sound target that is not a field
they find nothing at all.
-/

namespace KeyedCoding

/-! ## Findings without errors -/

namespace Diagnostic

/-- Findings that do not reject a declaration. -/
def Harmless (found : List Diagnostic) : Prop := found.any isError = false

@[simp]
theorem harmless_nil : Harmless [] := rfl

@[simp]
theorem harmless_append (first second : List Diagnostic) :
    Harmless (first ++ second) ↔ Harmless first ∧ Harmless second := by
  simp only [Harmless, List.any_append, Bool.or_eq_false_iff]

@[simp]
theorem harmless_singleton (d : Diagnostic) : Harmless [d] ↔ d.isError = false := by
  simp only [Harmless, List.any_cons, List.any_nil, Bool.or_false]

@[simp]
theorem harmless_flatMap {α : Type} (f : α → List Diagnostic) (as : List α) :
    Harmless (as.flatMap f) ↔ ∀ a ∈ as, Harmless (f a) := by
  induction as with
  | nil => simp
  | cons a rest ih => rw [List.flatMap_cons, harmless_append, ih, List.forall_mem_cons]

@[simp]
theorem isError_withFixIt (d : Diagnostic) (fixIt : FixIt) :
    (d.withFixIt fixIt).isError = d.isError := rfl

@[simp]
theorem isError_error (span : Span) (message : String) : (error span message).isError = true := rfl

@[simp]
theorem isError_warning (span : Span) (message : String) :
    (warning span message).isError = false := rfl

end Diagnostic

open Diagnostic

/-! ## The attribute that a name stands for -/

namespace Attribute

/-- An attribute has at most one name. -/
theorem isNamed_unique {a : Attribute} {first second : String} (hfirst : a.isNamed first = true)
    (hsecond : a.isNamed second = true) : first = second := by
  unfold isNamed at hfirst hsecond
  split at hfirst
  · next n _ heq =>
      rw [heq] at hsecond
      have hn : n = first := by simpa using hfirst
      have hm : n = second := by simpa using hsecond
      exact hn.symm.trans hm
  · cases hfirst

end Attribute

namespace Known

theorem mem_all (k : Known) : k ∈ all := by cases k <;> decide

theorem name_injective : Function.Injective name := by
  have hall : ∀ j ∈ all, ∀ k ∈ all, j.name = k.name → j = k := by decide
  exact fun j k heq => hall j (mem_all j) k (mem_all k) heq

/-- The names of the catalog differ, so an attribute is the known one whose name it has. -/
theorem of?_eq_some_iff {a : Attribute} {k : Known} :
    of? a = some k ↔ a.isNamed k.name = true := by
  constructor
  · intro hof
    exact List.find?_some (p := fun j : Known => a.isNamed j.name) hof
  · intro hnamed
    have hsome : (of? a).isSome = true := by
      rw [of?, List.find?_isSome]
      exact ⟨k, mem_all k, hnamed⟩
    obtain ⟨j, hj⟩ := Option.isSome_iff_exists.mp hsome
    have hjnamed := List.find?_some (p := fun j : Known => a.isNamed j.name) hj
    rw [hj, name_injective (Attribute.isNamed_unique hjnamed hnamed)]

theorem of?_eq_none_iff {a : Attribute} :
    of? a = none ↔ ∀ k : Known, a.isNamed k.name = false := by
  rw [of?, List.find?_eq_none]
  constructor
  · intro h k
    simpa using h k (mem_all k)
  · intro h k _
    simp [h k]

/-- Coding is asked for on types, an initializer on structs, a key or a helper where it is used. -/
def Suits : Known → DeclarationKind → Prop
  | codable, kind | codingKeys, kind => kind = .struct ∨ kind = .enum
  | memberInit, kind => kind = .struct
  | codedAs, kind => kind = .variant
  | codedAt, kind | codedBy, kind | defaultValue, kind | initial, kind | ignoreCoding, kind
  | ignoreDecoding, kind | ignoreEncoding, kind => kind = .field

theorem mem_kinds_iff {k : Known} {kind : DeclarationKind} : kind ∈ k.kinds ↔ k.Suits kind := by
  cases k <;> simp [kinds, Suits]

end Known

/-! ## Sound targets -/

namespace Target

/-- A name occurs on a target if some attribute has it. -/
theorem count_pos_iff {t : Target} {name : String} :
    0 < t.count name ↔ ∃ a ∈ t.attributes, a.isNamed name = true := by
  rw [count, List.length_pos_iff_exists_mem]
  simp only [List.mem_filter]

theorem count_eq_zero_iff {t : Target} {name : String} :
    t.count name = 0 ↔ ∀ a ∈ t.attributes, a.isNamed name = false := by
  rw [count, List.length_eq_zero_iff, List.filter_eq_nil_iff]
  simp only [Bool.not_eq_true]

/-- What the rules require of a target with its attributes. -/
structure Sound (t : Target) : Prop where
  /-- Every known attribute stands where it may. -/
  placed : ∀ a ∈ t.attributes, ∀ k : Known, a.isNamed k.name = true → k.Suits t.kind
  /-- No known attribute stands twice. -/
  once : ∀ k : Known, t.count k.name ≤ 1
  /-- What is ignored has neither a key nor a helper. -/
  exclusive : 0 < t.count Known.ignoreCoding.name →
    t.count Known.codedAt.name = 0 ∧ t.count Known.codedBy.name = 0
  /-- Keys are configured only where something is coded. -/
  paired : 0 < t.count Known.codingKeys.name → 0 < t.count Known.codable.name
  /-- The arguments of every known attribute are accepted. -/
  understood : ∀ a ∈ t.attributes, ∀ k : Known, a.isNamed k.name = true → k.check a = .ok ()

end Target

/-! ## Single rules -/

namespace Rule

variable {t : Target} {ref : AttributeRef}

theorem harmless_expects {kinds : List DeclarationKind} :
    Harmless ((expects ref kinds).findings t) ↔ t.kind ∈ kinds := by
  simp only [findings, List.contains_iff_mem]
  by_cases hkind : t.kind ∈ kinds <;> simp [hkind]

theorem harmless_once : Harmless ((once ref).findings t) ↔ t.count ref.name ≤ 1 := by
  simp only [findings]
  by_cases hcount : t.count ref.name ≤ 1 <;> simp [hcount]

/-- Only an exclusion that is an error can reject. -/
theorem harmless_excludes {other : String} {severity : Severity} :
    Harmless ((excludes ref other severity).findings t) ↔
      (severity = .error → t.count other = 0) := by
  simp only [findings]
  by_cases hcount : t.count other = 0
  · simp [hcount]
  · cases severity <;> simp [hcount]

theorem harmless_requires {other : String} :
    Harmless ((requires ref other).findings t) ↔ 0 < t.count other := by
  simp only [findings]
  by_cases hcount : 0 < t.count other <;> simp [hcount]

theorem harmless_arguments {k : Known} {a : Attribute} :
    Harmless ((arguments ref a k.checkAll).findings t) ↔ k.check a = .ok () := by
  simp only [findings, Known.checkAll]
  cases hcheck : k.check a with
  | ok u => simp
  | error f => simp

theorem findings_all (rules : List Rule) :
    (all rules).findings t = rules.flatMap (findings t) := by
  rw [findings]
  induction rules with
  | nil => rfl
  | cons r rest ih => rw [findingsAll, ih, List.flatMap_cons]

theorem harmless_all {rules : List Rule} :
    Harmless ((all rules).findings t) ↔ ∀ r ∈ rules, Harmless (r.findings t) := by
  rw [findings_all, harmless_flatMap]

end Rule

/-! ## The rules of the catalog -/

namespace Known

variable {t : Target}

/-- What the rule for one use of a known attribute requires. -/
theorem harmless_rule {k : Known} {a : Attribute} :
    Harmless ((k.rule a).findings t) ↔
      t.kind ∈ k.kinds ∧ t.count k.name ≤ 1 ∧
        (k.ignored? = some .error → t.count ignoreCoding.name = 0) ∧
        (k = codingKeys → 0 < t.count codable.name) ∧ k.check a = .ok () := by
  simp only [rule, Rule.harmless_all, List.forall_mem_append,
    List.forall_mem_cons, Rule.harmless_expects, Rule.harmless_once, Rule.harmless_arguments,
    List.not_mem_nil, false_implies, implies_true, and_true, and_assoc]
  refine and_congr_right fun _ => and_congr_right fun _ => and_congr ?_ (and_congr ?_ Iff.rfl)
  · cases k.ignored? with
    | none => simp
    | some severity => simp [Rule.harmless_excludes]
  · by_cases hk : k = codingKeys <;> simp [hk, Rule.harmless_requires]

theorem ignored?_eq_error_iff {k : Known} :
    k.ignored? = some .error ↔ k = codedAt ∨ k = codedBy := by
  cases k <;> decide

/-- The rules of a target find an error in one of its known attributes or nowhere. -/
theorem harmless_findings_iff_rules :
    Harmless (findings t) ↔
      ∀ a ∈ t.attributes, ∀ k : Known, a.isNamed k.name = true →
        Harmless ((k.rule a).findings t) := by
  rw [findings, harmless_flatMap]
  refine forall₂_congr fun a _ => ?_
  cases hof : of? a with
  | none =>
      have hunnamed := of?_eq_none_iff.mp hof
      simp [hunnamed]
  | some j =>
      constructor
      · intro hj k hk
        rw [← of?_eq_some_iff, hof, Option.some.injEq] at hk
        exact hk ▸ hj
      · intro hall
        exact hall j (of?_eq_some_iff.mp hof)

/-- The rules of a target find no error exactly if the target is sound. -/
theorem harmless_findings_iff_sound : Harmless (findings t) ↔ t.Sound := by
  rw [harmless_findings_iff_rules]
  simp only [harmless_rule, mem_kinds_iff, ignored?_eq_error_iff]
  constructor
  · intro hrules
    refine ⟨fun a ha k hk => (hrules a ha k hk).1, fun k => ?_, fun hignored => ?_,
      fun hkeys => ?_, fun a ha k hk => (hrules a ha k hk).2.2.2.2⟩
    · rcases Nat.eq_zero_or_pos (t.count k.name) with hzero | hpos
      · omega
      · obtain ⟨a, ha, hk⟩ := Target.count_pos_iff.mp hpos
        exact (hrules a ha k hk).2.1
    · -- a key or a helper beside would have been found by its own rule
      have hnone : ∀ k : Known, k = codedAt ∨ k = codedBy → t.count k.name = 0 := by
        intro k hk
        by_contra hne
        obtain ⟨a, ha, hnamed⟩ := Target.count_pos_iff.mp (Nat.pos_of_ne_zero hne)
        have hzero := (hrules a ha k hnamed).2.2.1 hk
        omega
      exact ⟨hnone codedAt (.inl rfl), hnone codedBy (.inr rfl)⟩
    · obtain ⟨a, ha, hnamed⟩ := Target.count_pos_iff.mp hkeys
      exact (hrules a ha codingKeys hnamed).2.2.2.1 rfl
  · intro hsound a ha k hk
    have hpos : 0 < t.count k.name := Target.count_pos_iff.mpr ⟨a, ha, hk⟩
    refine ⟨hsound.placed a ha k hk, hsound.once k, fun hkey => ?_, fun hkeys => ?_,
      hsound.understood a ha k hk⟩
    · by_contra hne
      have hnone := hsound.exclusive (Nat.pos_of_ne_zero hne)
      rcases hkey with rfl | rfl <;> omega
    · exact hsound.paired (hkeys ▸ hpos)

/-- On a sound target the rule of an attribute finds at most that it is redundant. -/
theorem rule_findings_of_sound (h : t.Sound) {a : Attribute} (ha : a ∈ t.attributes) {k : Known}
    (hnamed : a.isNamed k.name = true) :
    (k.rule a).findings t =
      if k.ignored? = some .warning then
        (Rule.excludes ⟨k.name, a.span⟩ ignoreCoding.name .warning).findings t
      else [] := by
  have hkind : t.kind ∈ k.kinds := mem_kinds_iff.mpr (h.placed a ha k hnamed)
  have honce : t.count k.name ≤ 1 := h.once k
  have hpos : 0 < t.count k.name := Target.count_pos_iff.mpr ⟨a, ha, hnamed⟩
  have hcheck : k.checkAll a = .ok () := by rw [checkAll, h.understood a ha k hnamed]
  have hrequired : (if k = codingKeys then [Rule.requires ⟨k.name, a.span⟩ codable.name]
      else []).flatMap (Rule.findings t) = [] := by
    split
    · next hk =>
      have hcodable : 0 < t.count codable.name := h.paired (hk ▸ hpos)
      simp [Rule.findings, hcodable]
    · rfl
  cases hignored : k.ignored? with
  | none =>
      simp [rule, hignored, Rule.findings_all, hrequired, Rule.findings, hkind, honce, hcheck]
  | some severity =>
      have hexcluded : severity = .error → t.count ignoreCoding.name = 0 := by
        rintro rfl
        -- beside what ignores the member, a key or a helper would be an error
        by_contra hne
        have hnone := h.exclusive (Nat.pos_of_ne_zero hne)
        rcases ignored?_eq_error_iff.mp hignored with rfl | rfl <;> omega
      simp only [rule, hignored, Rule.findings_all, List.flatMap_append, hrequired]
      cases severity with
      | warning => simp [Rule.findings, hkind, honce, hcheck]
      | error => simp [Rule.findings, hkind, honce, hcheck, hexcluded]

/-- Only what a field is ignored for can be redundant, so elsewhere nothing is left to find. -/
theorem findings_eq_nil_of_sound (h : t.Sound) (hkind : t.kind ≠ .field) : findings t = [] := by
  rw [findings, List.flatMap_eq_nil_iff]
  intro a ha
  cases hof : of? a with
  | none => rfl
  | some k =>
      have hnamed : a.isNamed k.name = true := of?_eq_some_iff.mp hof
      have hsuits : k.Suits t.kind := h.placed a ha k hnamed
      -- The only findings short of an error are about ignored members, which are fields.
      have hignored : k.ignored? = none := by
        cases k <;> first | rfl | exact absurd hsuits hkind
      show (k.rule a).findings t = []
      rw [rule_findings_of_sound h ha hnamed, hignored, if_neg (by decide)]

end Known

end KeyedCoding
