import KeyedCoding.Proofs.Derivation.AttributeChanges
import KeyedCoding.Proofs.Derivation.MarkerOrder
import Mathlib.Data.List.Perm.Subperm

/-!
# Attributes in any order

No name of the catalog stands twice on a sound target, so what is asked for does not depend on the
order of the attributes.  What a warning calls redundant asks for nothing that the attribute beside
it does not ask for, and a field that is ignored altogether is ignored in either direction.  Each of
these changes keeps sound targets sound and their options as they are (`Preserving`), so it leaves
the outcome and the code of a declaration alone.
-/

namespace KeyedCoding

open Attribute Diagnostic

/-! ## Attributes of each name -/

/-- Whether an attribute says that its member is left out, in whatever direction. -/
def Known.ignores : Known → Bool
  | ignoreCoding | ignoreDecoding | ignoreEncoding => true
  | _ => false

namespace Attribute

/-- The attributes of a name. -/
def named (k : Known) (attributes : List Attribute) : List Attribute :=
  attributes.filter fun a => a.isNamed k.name

theorem asked_named {α : Type} (k : Known) (read : Attribute → Except Failure α)
    (attributes : List Attribute) :
    asked k read (named k attributes) = asked k read attributes := by
  induction attributes with
  | nil => rfl
  | cons a rest ih =>
      rw [named] at ih
      rw [named, List.filter_cons, asked_cons]
      by_cases hnamed : a.isNamed k.name = true
      · rw [if_pos hnamed, asked_cons, ih]
      · have hasks : asks k read a = none := if_neg hnamed
        rw [if_neg hnamed, ih, hasks, Option.or_none]

theorem has_named (k : Known) (attributes : List Attribute) :
    has k (named k attributes) = has k attributes := by
  simp [has, named, List.any_filter]

theorem has_iff {k : Known} {attributes : List Attribute} :
    has k attributes = true ↔ ∃ a ∈ attributes, a.isNamed k.name = true := List.any_eq_true

/-- Attributes that ask for the same: those of each name are the same, and so are the directions in
which a member is left out, one by one or altogether. -/
structure AskAlike (attributes attributes' : List Attribute) : Prop where
  named : ∀ k : Known, k.ignores = false → named k attributes' = named k attributes
  direction : ∀ k : Known, k.ignored? = some .warning →
    (has .ignoreCoding attributes' || has k attributes') =
      (has .ignoreCoding attributes || has k attributes)

variable {attributes attributes' : List Attribute}

theorem AskAlike.asked (h : AskAlike attributes attributes') {k : Known}
    (hk : k.ignores = false) {α : Type} (read : Attribute → Except Failure α) :
    asked k read attributes' = Attribute.asked k read attributes := by
  rw [← asked_named, h.named k hk, asked_named]

theorem AskAlike.has (h : AskAlike attributes attributes') {k : Known}
    (hk : k.ignores = false) : has k attributes' = Attribute.has k attributes := by
  rw [← has_named, h.named k hk, has_named]

end Attribute

/-- Attributes that are understood and ask for the same come to the same options. -/
theorem Attribute.AskAlike.keepsOptions {t : Target} {attributes' : List Attribute}
    (h : AskAlike t.attributes attributes') (hold : ∀ a ∈ t.attributes, a.Understood)
    (hnew : ∀ a ∈ attributes', a.Understood) : t.KeepsOptions attributes' := by
  refine ⟨?_, ?_, ?_⟩
  · obtain ⟨o, ho⟩ := ContainerOptions.exists_ofAttributes_ok hold
    obtain ⟨o', ho'⟩ := ContainerOptions.exists_ofAttributes_ok hnew
    rw [ho, ho', ContainerOptions.ofAttributes_eq_ok ho, ContainerOptions.ofAttributes_eq_ok ho',
      h.asked rfl, h.asked rfl, h.has rfl]
  · obtain ⟨o, ho⟩ := MemberOptions.exists_ofAttributes_ok hold
    obtain ⟨o', ho'⟩ := MemberOptions.exists_ofAttributes_ok hnew
    rw [ho, ho', MemberOptions.ofAttributes_eq_ok ho, MemberOptions.ofAttributes_eq_ok ho',
      h.asked rfl, h.asked rfl, h.asked rfl, h.asked rfl, h.direction .ignoreDecoding rfl,
      h.direction .ignoreEncoding rfl]
  · obtain ⟨o, ho⟩ := VariantOptions.exists_ofAttributes_ok hold
    obtain ⟨o', ho'⟩ := VariantOptions.exists_ofAttributes_ok hnew
    rw [ho, ho', VariantOptions.ofAttributes_eq_ok ho, VariantOptions.ofAttributes_eq_ok ho',
      h.asked rfl]

/-! ## Changes that keep what is asked for -/

/-- A change of attributes that keeps sound targets sound and what they ask for. -/
structure Preserving (R : Target → List Attribute → Prop) : Prop where
  sound : ∀ {t : Target} {attributes' : List Attribute}, t.Sound → R t attributes' →
    (⟨t.kind, t.name, attributes'⟩ : Target).Sound
  alike : ∀ {t : Target} {attributes' : List Attribute}, t.Sound → R t attributes' →
    AskAlike t.attributes attributes'

/-- Such a change of a sound declaration leaves its outcome and its code alone. -/
theorem Preserving.expandsAlike {R : Target → List Attribute → Prop} (hR : Preserving R)
    {d d' : Declaration} (h : d.DiffersBy R d') (hd : d.Sound) : d.ExpandsAlike d' := by
  have hkeeps : d.DiffersBy Target.KeepsOptions d' := h.imp_of_sound hd fun ht hchange =>
    (hR.alike ht hchange).keepsOptions ht.all_understood (hR.sound ht hchange).all_understood
  exact hkeeps.expandsAlike hd (h.sound hR.sound hd)

namespace Target

variable {t : Target} {attributes' : List Attribute}

/-- A target stays sound with some of its attributes, in any order, if what asks for coding is among
them. -/
theorem Sound.subperm (h : t.Sound) (hsub : List.Subperm attributes' t.attributes)
    (hcodable : ∀ a ∈ t.attributes, a.isNamed Known.codable.name = true → a ∈ attributes') :
    (⟨t.kind, t.name, attributes'⟩ : Target).Sound := by
  have hcount : ∀ name, (⟨t.kind, t.name, attributes'⟩ : Target).count name ≤ t.count name :=
    fun name => (hsub.filter _).length_le
  refine ⟨fun a ha => h.placed a (hsub.subset ha), fun k => (hcount k.name).trans (h.once k),
    fun hignored => ?_, fun hkeys => ?_, fun a ha => h.understood a (hsub.subset ha)⟩
  · obtain ⟨hkey, hhelper⟩ := h.exclusive (hignored.trans_le (hcount _))
    exact ⟨Nat.eq_zero_of_le_zero (hkey ▸ hcount _), Nat.eq_zero_of_le_zero (hhelper ▸ hcount _)⟩
  · obtain ⟨a, ha, hnamed⟩ := count_pos_iff.mp (h.paired (hkeys.trans_le (hcount _)))
    exact count_pos_iff.mpr ⟨a, hcodable a ha hnamed, hnamed⟩

end Target

/-! ## Another order -/

/-- The attributes of the target in another order. -/
def Permuted (t : Target) (attributes' : List Attribute) : Prop := t.attributes.Perm attributes'

theorem preserving_permuted : Preserving Permuted where
  sound h hperm := h.subperm hperm.symm.subperm fun _ ha _ => hperm.subset ha
  alike {t attributes'} h hperm := by
    have hhas : ∀ k, has k attributes' = has k t.attributes := fun k => hperm.symm.any_eq
    refine ⟨fun k _ => ?_, fun k _ => by rw [hhas, hhas]⟩
    have hnamed : (named k attributes').Perm (named k t.attributes) := hperm.symm.filter _
    have honce : (named k t.attributes).length ≤ 1 := h.once k
    -- a list of at most one attribute has one order
    rcases hlist : named k t.attributes with - | ⟨a, - | ⟨b, rest⟩⟩
    · exact (hlist ▸ hnamed).eq_nil
    · exact List.perm_singleton.mp (hlist ▸ hnamed)
    · rw [hlist] at honce
      simp at honce

section Counts

variable {t t' : Target}

mutual

/-- What a rule finds about a target depends on how often names occur, not on where. -/
theorem Rule.findings_eq_of_count (hkind : t'.kind = t.kind) (hname : t'.name = t.name)
    (hcount : ∀ name, t'.count name = t.count name) : (r : Rule) → r.findings t' = r.findings t
  | .expects _ _ => by simp only [Rule.findings, hkind, hname]
  | .once _ => by simp only [Rule.findings, hname, hcount]
  | .excludes _ _ _ => by simp only [Rule.findings, hcount]
  | .requires _ _ => by simp only [Rule.findings, hname, hcount]
  | .arguments _ _ _ => by simp only [Rule.findings]
  | .all rules => by
      rw [Rule.findings, Rule.findings, Rule.findingsAll_eq_of_count hkind hname hcount rules]

theorem Rule.findingsAll_eq_of_count (hkind : t'.kind = t.kind) (hname : t'.name = t.name)
    (hcount : ∀ name, t'.count name = t.count name) :
    (rules : List Rule) → Rule.findingsAll t' rules = Rule.findingsAll t rules
  | [] => by rw [Rule.findingsAll, Rule.findingsAll]
  | r :: rest => by
      rw [Rule.findingsAll, Rule.findingsAll, Rule.findings_eq_of_count hkind hname hcount r,
        Rule.findingsAll_eq_of_count hkind hname hcount rest]

end

end Counts

/-- In another order the rules of a target find the same in another order. -/
theorem Known.findings_perm {t : Target} {attributes' : List Attribute}
    (h : Permuted t attributes') :
    (Known.findings ⟨t.kind, t.name, attributes'⟩).Perm (Known.findings t) := by
  have hcount : ∀ name, (⟨t.kind, t.name, attributes'⟩ : Target).count name = t.count name :=
    fun name => (h.symm.filter _).length_eq
  have hrule : ∀ r : Rule, r.findings ⟨t.kind, t.name, attributes'⟩ = r.findings t :=
    Rule.findings_eq_of_count rfl rfl hcount
  unfold Known.findings
  simp only [hrule]
  exact h.symm.flatMap_right _

theorem perm_flatMap_of_forall₂ {α β : Type} {f : α → List β} {as as' : List α}
    (h : List.Forall₂ (fun a a' => (f a').Perm (f a)) as as') :
    (as'.flatMap f).Perm (as.flatMap f) := by
  induction h with
  | nil => exact .nil
  | cons ha _ ih =>
      rw [List.flatMap_cons, List.flatMap_cons]
      exact ha.append ih

theorem Declaration.DiffersBy.findings_perm {d d' : Declaration} (h : d.DiffersBy Permuted d') :
    d'.findings.Perm d.findings := by
  refine perm_flatMap_of_forall₂ (h.targets.imp fun t t' ht => ?_)
  cases ht with
  | intro hperm => exact Known.findings_perm hperm

/-! ## Without what is redundant -/

/-- Whether some rule for the attribute warns of it on the target. -/
def Target.warnsOf (t : Target) (a : Attribute) : Bool :=
  match Known.of? a with
  | some k => ((k.rule a).findings t).any fun finding => !finding.isError
  | none => false

/-- The attributes of the target without those that are warned of. -/
def Unwarned (t : Target) (attributes' : List Attribute) : Prop :=
  attributes' = t.attributes.filter fun a => !t.warnsOf a

namespace Target

variable {t : Target} {a : Attribute} {k : Known}

/-- A sound target is warned of what says once more that its member is left out in a direction. -/
theorem Sound.warnsOf_eq (h : t.Sound) (ha : a ∈ t.attributes)
    (hnamed : a.isNamed k.name = true) :
    t.warnsOf a = decide (k.ignored? = some .warning ∧ 0 < t.count Known.ignoreCoding.name) := by
  rw [warnsOf, Known.of?_eq_some_iff.mpr hnamed]
  simp only [Known.rule_findings_of_sound h ha hnamed]
  by_cases hignored : k.ignored? = some .warning
  · rcases Nat.eq_zero_or_pos (t.count Known.ignoreCoding.name) with hzero | hpos
    · simp [hignored, Rule.findings, hzero]
    · simp [hignored, Rule.findings, hpos, hpos.ne']
  · simp [hignored]

theorem Sound.not_warnsOf (h : t.Sound) (ha : a ∈ t.attributes) (hnamed : a.isNamed k.name = true)
    (hk : k.ignored? ≠ some .warning) : t.warnsOf a = false := by
  rw [h.warnsOf_eq ha hnamed]
  simp [hk]

theorem Sound.warnsOf_eq_false (h : t.Sound) (ha : a ∈ t.attributes)
    (hnone : t.count Known.ignoreCoding.name = 0) : t.warnsOf a = false := by
  cases hof : Known.of? a with
  | none => rw [warnsOf, hof]
  | some k =>
      rw [h.warnsOf_eq ha (Known.of?_eq_some_iff.mp hof)]
      simp [hnone]

end Target

theorem preserving_unwarned : Preserving Unwarned where
  sound {t attributes'} h hunwarned := by
    subst hunwarned
    refine h.subperm List.filter_sublist.subperm fun a ha hnamed => ?_
    have hkept : t.warnsOf a = false := h.not_warnsOf ha hnamed (by decide)
    rw [List.mem_filter, hkept]
    exact ⟨ha, rfl⟩
  alike {t attributes'} h hunwarned := by
    subst hunwarned
    have hnamed : ∀ k : Known, k.ignored? ≠ some .warning →
        named k (t.attributes.filter fun a => !t.warnsOf a) = named k t.attributes := by
      intro k hk
      rw [named, named, List.filter_filter]
      refine List.filter_congr fun a ha => ?_
      by_cases hnamed : a.isNamed k.name = true
      · rw [hnamed, h.not_warnsOf ha hnamed hk, Bool.not_false, Bool.and_self]
      · rw [Bool.not_eq_true] at hnamed
        rw [hnamed, Bool.false_and]
    have hcoding : has .ignoreCoding (t.attributes.filter fun a => !t.warnsOf a) =
        has .ignoreCoding t.attributes := by
      rw [← has_named, hnamed .ignoreCoding (by decide), has_named]
    -- without an attribute that ignores a member altogether nothing is redundant
    have hkept : has .ignoreCoding t.attributes = false →
        (t.attributes.filter fun a => !t.warnsOf a) = t.attributes := by
      intro hnone
      have hzero : t.count Known.ignoreCoding.name = 0 :=
        Target.count_eq_zero_iff.mpr fun a ha => by simpa using List.any_eq_false.mp hnone a ha
      rw [List.filter_eq_self]
      intro a ha
      rw [h.warnsOf_eq_false ha hzero, Bool.not_false]
    refine ⟨fun k hk => hnamed k (by cases k <;> first | decide | cases hk), fun k _ => ?_⟩
    rw [hcoding]
    cases hhas : has .ignoreCoding t.attributes with
    | true => rfl
    | false => rw [hkept hhas]

/-- Without what is redundant the rules of a sound target find nothing. -/
theorem Known.findings_unwarned {t : Target} (h : t.Sound) {attributes' : List Attribute}
    (hunwarned : Unwarned t attributes') :
    Known.findings ⟨t.kind, t.name, attributes'⟩ = [] := by
  have hsound := preserving_unwarned.sound h hunwarned
  subst hunwarned
  rw [findings, List.flatMap_eq_nil_iff]
  intro a ha
  obtain ⟨hold, hkept⟩ := List.mem_filter.mp ha
  cases hof : of? a with
  | none => rfl
  | some k =>
      have hnamed : a.isNamed k.name = true := of?_eq_some_iff.mp hof
      show (k.rule a).findings _ = []
      rw [rule_findings_of_sound hsound ha hnamed]
      split
      · next hignored =>
        rw [Rule.findings, if_pos]
        -- what ignores the member altogether was there before, so `a` would have been left out
        by_contra hne
        have hpos : 0 < t.count ignoreCoding.name :=
          (Nat.pos_of_ne_zero hne).trans_le (List.filter_sublist.filter _).length_le
        rw [h.warnsOf_eq hold hnamed] at hkept
        simp [hignored, hpos] at hkept
      · rfl

theorem Declaration.DiffersBy.findings_unwarned {d d' : Declaration}
    (h : d.DiffersBy Unwarned d') (hd : d.Sound) : d'.findings = [] := by
  rw [findings, List.flatMap_eq_nil_iff]
  intro t' ht'
  obtain ⟨t, ht, hdiffers⟩ := exists_of_forall₂_right h.targets ht'
  cases hdiffers with
  | intro hunwarned => exact Known.findings_unwarned (hd t ht) hunwarned

/-! ## Both directions one by one -/

/-- The attributes of the target, or two of them for the two directions in place of one that leaves
out its member altogether, if no other leaves it out. -/
inductive Divided (t : Target) : List Attribute → Prop
  | same : Divided t t.attributes
  | pair {before after : List Attribute} {a b c : Attribute}
      (hattributes : t.attributes = before ++ a :: after)
      (ha : a.isNamed Known.ignoreCoding.name = true)
      (halone : ∀ k : Known, k.ignores = true → ∀ x ∈ before ++ after, x.isNamed k.name = false)
      (hb : b.Uses .ignoreDecoding) (hc : c.Uses .ignoreEncoding) :
      Divided t (before ++ b :: c :: after)

/-- A field that nothing leaves out in a direction may have an attribute that does. -/
theorem Target.Sound.cons {name : String} {a : Attribute} {k : Known} {rest : List Attribute}
    (h : (⟨.field, name, rest⟩ : Target).Sound) (ha : a.Uses k)
    (hk : k.ignored? = some .warning)
    (hnone : (⟨.field, name, rest⟩ : Target).count k.name = 0) :
    (⟨.field, name, a :: rest⟩ : Target).Sound := by
  have hcount : ∀ j : Known, (⟨.field, name, a :: rest⟩ : Target).count j.name =
      (if k = j then 1 else 0) + (⟨.field, name, rest⟩ : Target).count j.name := by
    intro j
    rw [count_cons, ha.isNamed_eq]
    simp
  have hother : ∀ j : Known, j.ignored? ≠ some .warning →
      (⟨.field, name, a :: rest⟩ : Target).count j.name =
        (⟨.field, name, rest⟩ : Target).count j.name := by
    intro j hj
    have hne : k ≠ j := fun heq => hj (heq ▸ hk)
    rw [hcount, if_neg hne, Nat.zero_add]
  refine ⟨?_, fun j => ?_, fun hignored => ?_, fun hkeys => ?_, ?_⟩
  · rw [List.forall_mem_cons]
    refine ⟨fun j hj => ?_, h.placed⟩
    rw [ha.isNamed_eq, decide_eq_true_iff] at hj
    subst hj
    cases k <;> first | rfl | cases hk
  · rw [hcount]
    split
    · next heq =>
      subst heq
      omega
    · have honce := h.once j
      omega
  · rw [hother _ (by decide)] at hignored
    rw [hother _ (by decide), hother _ (by decide)]
    exact h.exclusive hignored
  · rw [hother _ (by decide)] at hkeys
    rw [hother _ (by decide)]
    exact h.paired hkeys
  · rw [List.forall_mem_cons]
    exact ⟨ha.understood, h.understood⟩

theorem Target.Sound.divided {t : Target} (h : t.Sound) {attributes' : List Attribute}
    (hdivided : Divided t attributes') : (⟨t.kind, t.name, attributes'⟩ : Target).Sound := by
  cases hdivided with
  | same => exact h
  | @pair before after a b c hattributes ha halone hb hc =>
      obtain ⟨kind, name, attributes⟩ := t
      subst hattributes
      obtain rfl : kind = .field := h.placed a (by simp) .ignoreCoding ha
      have hrest : (⟨.field, name, before ++ after⟩ : Target).Sound := by
        refine h.subperm ((List.sublist_cons_self a after).append_left before).subperm ?_
        intro x hx hnamed
        have hne : x ≠ a := by
          rintro rfl
          exact absurd (isNamed_unique ha hnamed) (by decide)
        simpa [hne] using hx
      have hencoding : (⟨.field, name, c :: (before ++ after)⟩ : Target).Sound :=
        hrest.cons hc rfl (count_eq_zero_iff.mpr (halone .ignoreEncoding rfl))
      have hboth : (⟨.field, name, b :: c :: (before ++ after)⟩ : Target).Sound := by
        refine hencoding.cons hb rfl ?_
        rw [count_cons, hc.isNamed_eq, count_eq_zero_iff.mpr (halone .ignoreDecoding rfl)]
        rfl
      -- the two stand where the one did
      have hplaced : (before ++ b :: c :: after).Perm (b :: c :: (before ++ after)) :=
        List.perm_middle.trans (List.perm_middle.cons b)
      exact hboth.subperm hplaced.subperm fun x hx _ => hplaced.symm.subset hx

theorem preserving_divided : Preserving Divided where
  sound h hdivided := h.divided hdivided
  alike {t attributes'} h hdivided := by
    cases hdivided with
    | same => exact ⟨fun _ _ => rfl, fun _ _ => rfl⟩
    | @pair before after a b c hattributes ha halone hb hc =>
        have hcoding : has .ignoreCoding t.attributes = true :=
          has_iff.mpr ⟨a, by simp [hattributes], ha⟩
        refine ⟨fun k hk => ?_, fun k hk => ?_⟩
        · have hfree : ∀ {x : Attribute} {j : Known}, j.ignores = true → x.isNamed j.name = true →
              x.isNamed k.name = false := by
            intro x j hj hx
            rw [Attribute.isNamed_eq, Known.of?_eq_some_iff.mpr hx, decide_eq_false_iff_not]
            rintro heq
            rw [Option.some.inj heq, hk] at hj
            cases hj
          simp [named, hattributes, hfree rfl ha, hfree rfl hb.named, hfree rfl hc.named]
        · have hk : k = .ignoreDecoding ∨ k = .ignoreEncoding := by revert hk; cases k <;> decide
          have hhas : has k (before ++ b :: c :: after) = true := by
            rcases hk with rfl | rfl
            · exact has_iff.mpr ⟨b, by simp, hb.named⟩
            · exact has_iff.mpr ⟨c, by simp, hc.named⟩
          rw [hcoding, hhas, Bool.or_true, Bool.true_or]

/-! ## Declarations -/

namespace Declaration

/-- The order of attributes makes no difference but to the order of the findings and to where they
point.  In an accepted declaration what is warned of can be left out, and then nothing is reported;
and an attribute that leaves out its member altogether does the same as one for each direction. -/
theorem attributes_rearranged (d : Declaration) :
    (∀ d', d.DiffersBy Permuted d' →
      d'.expand.outcome = d.expand.outcome ∧ d'.expand.generated = d.expand.generated ∧
      (d'.expand.diagnostics.map unplaced).Perm (d.expand.diagnostics.map unplaced)) ∧
    (d.expand.outcome = .accepted → ∀ d', d.DiffersBy Unwarned d' →
      d'.expand.outcome = .accepted ∧ d'.expand.generated = d.expand.generated ∧
      d'.expand.diagnostics = []) ∧
    (d.expand.outcome = .accepted → ∀ d', d.DiffersBy Divided d' →
      d'.expand.outcome = .accepted ∧ d'.expand.generated = d.expand.generated) := by
  refine ⟨fun d' h => ?_, fun haccepted d' h => ?_, fun haccepted d' h => ?_⟩
  -- What is not sound is rejected for its findings alone, and these are the same in another order.
  · by_cases hsound : d.Sound
    · obtain ⟨houtcome, hgenerated, found, found', hfirst, hsecond, hsame, -⟩ :=
        preserving_permuted.expandsAlike h hsound
      refine ⟨houtcome, hgenerated, ?_⟩
      rw [hfirst, hsecond, List.map_append, List.map_append, hsame]
      exact (h.findings_perm.map unplaced).append_right _
    · have hharmful : ¬ Harmless d.findings := mt harmless_findings_iff.mp hsound
      have hharmful' : ¬ Harmless d'.findings := by
        rw [Harmless, h.findings_perm.any_eq]
        exact hharmful
      rw [expand_of_findings hharmful, expand_of_findings hharmful']
      exact ⟨rfl, rfl, h.findings_perm.map unplaced⟩
  · have hsound := (accepted_iff.mp haccepted).1
    obtain ⟨houtcome, hgenerated, found, found', -, hsecond, hsame, hnone⟩ :=
      preserving_unwarned.expandsAlike h hsound
    rw [hnone haccepted, List.map_nil, List.map_eq_nil_iff] at hsame
    refine ⟨houtcome.trans haccepted, hgenerated, ?_⟩
    rw [hsecond, h.findings_unwarned hsound, hsame, List.append_nil]
  · have hsound := (accepted_iff.mp haccepted).1
    obtain ⟨houtcome, hgenerated, -⟩ := preserving_divided.expandsAlike h hsound
    exact ⟨houtcome.trans haccepted, hgenerated⟩

end Declaration

/-! ## A cache -/

namespace Cache

/-- The name of a cache. -/
def name : Field := Journal.field [] "name" [Make.ident "String"]

/-- The size of a cache with attributes. -/
def size (attributes : List Attribute) : Field := Journal.field attributes "size" [Make.ident "u64"]

/-- A struct of a name and a size, the size with attributes. -/
def cache (attributes : List Attribute) : Declaration :=
  Declaration.ofItem ⟨[.marker "codable" []], [], .struct [Make.ident "struct"] (Make.ident "Cache")
    .none (.named [name, size attributes] .made) []⟩

/-- The attribute of a size that starts at nothing. -/
def zero : Attribute := .marker "initial" [Make.literal "0"]

/-- An attribute without arguments. -/
def plain (k : Known) : Attribute := .marker k.name []

theorem uses_plain {k : Known} (hk : k.ignores = true) : (plain k).Uses k := by
  cases k <;> first | exact ⟨rfl, rfl⟩ | cases hk

theorem differsBy {R : Target → List Attribute → Prop} {attributes attributes' : List Attribute}
    (hown : R ⟨.struct, "Cache", [.marker "codable" []]⟩ [.marker "codable" []])
    (hname : R (StoredMember.ofField 0 name).target [])
    (h : R (StoredMember.ofField 1 (size attributes)).target attributes') :
    (cache attributes).DiffersBy R (cache attributes') :=
  .intro hown (.cons (.intro hname) (.cons (.intro h) .nil)) .nil

/-- A size that is ignored twice over: in another order, without the second time, and with one
attribute for each direction. -/
theorem cache_rearranged :
    (cache [zero, plain .ignoreCoding, plain .ignoreDecoding]).expand.diagnostics.length = 1 ∧
    (cache [plain .ignoreDecoding, zero, plain .ignoreCoding]).expand.generated =
      (cache [zero, plain .ignoreCoding, plain .ignoreDecoding]).expand.generated ∧
    (cache [zero, plain .ignoreCoding]).expand.diagnostics = [] ∧
    (cache [zero, plain .ignoreDecoding, plain .ignoreEncoding]).expand.generated =
      (cache [zero, plain .ignoreCoding]).expand.generated := by
  have haccepted : (cache [zero, plain .ignoreCoding, plain .ignoreDecoding]).expand.outcome =
      .accepted := by decide +kernel
  have hmoved : Permuted (StoredMember.ofField 1
      (size [zero, plain .ignoreCoding, plain .ignoreDecoding])).target
      [plain .ignoreDecoding, zero, plain .ignoreCoding] :=
    List.perm_append_singleton (plain .ignoreDecoding) [zero, plain .ignoreCoding]
  have halone : ∀ k : Known, k.ignores = true → ∀ x ∈ [zero] ++ [], x.isNamed k.name = false := by
    intro k hk x hx
    obtain rfl := List.mem_singleton.mp hx
    cases k <;> first | rfl | cases hk
  have hpair : Divided (StoredMember.ofField 1 (size [zero, plain .ignoreCoding])).target
      [zero, plain .ignoreDecoding, plain .ignoreEncoding] :=
    .pair rfl rfl halone (uses_plain rfl) (uses_plain rfl)
  obtain ⟨hpermuted, hunwarned, -⟩ := Declaration.attributes_rearranged
    (cache [zero, plain .ignoreCoding, plain .ignoreDecoding])
  obtain ⟨hfewer, -, hnone⟩ := hunwarned haccepted (cache [zero, plain .ignoreCoding])
    (differsBy rfl rfl rfl)
  obtain ⟨-, -, hdivided⟩ := Declaration.attributes_rearranged (cache [zero, plain .ignoreCoding])
  exact ⟨by decide +kernel, (hpermuted _ (differsBy (.refl _) (.refl _) hmoved)).2.1, hnone,
    (hdivided hfewer _ (differsBy .same .same hpair)).2⟩

end Cache

end KeyedCoding
