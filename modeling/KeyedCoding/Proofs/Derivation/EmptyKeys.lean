import KeyedCoding.Proofs.Derivation.KeyNames
import KeyedCoding.Proofs.Derivation.WireKeys
import Mathlib.Data.List.TakeWhile

/-!
# Names that leave no key

A key that is given must not be empty.  A key that is made from a name is not checked, and the
strategies that run words together drop every underscore: of a name that consists of underscores
nothing is left.  The other strategies keep at least one character of every name.  So the texts of
the key enum of an accepted declaration are not empty exactly if no such name meets such a
strategy.
-/

namespace KeyedCoding

open Attribute

/-! ## Case mapping keeps a character -/

namespace CaseMapping

/-- No character maps to nothing if no entry of the table does. -/
theorem mapChar_ne_nil {special : Array (Nat × List Nat)}
    (h : ∀ entry ∈ special, entry.2 ≠ []) (runs : Array Run) (c : Char) :
    mapChar special runs c ≠ [] := by
  unfold mapChar
  cases hspecial : special.find? fun entry => entry.1 == c.toNat with
  | some entry =>
      have hentry := h entry (Array.mem_of_find?_eq_some hspecial)
      simpa using hentry
  | none => cases runs.find? fun run => run.covers c.toNat <;> simp

theorem upperChar_ne_nil (c : Char) : upperChar c ≠ [] := by
  unfold upperChar
  split
  · simp
  · exact mapChar_ne_nil (by decide) upperRuns c

theorem lowerFrom_eq_nil_iff (before cs : List Char) : lowerFrom before cs = [] ↔ cs = [] := by
  cases cs with
  | nil => simp [lowerFrom]
  | cons c rest =>
      have hmapped : lowerChar c ≠ [] := by
        unfold lowerChar
        split
        · simp
        · exact mapChar_ne_nil (by decide) lowerRuns c
      simp only [lowerFrom, reduceCtorEq, iff_false, List.append_eq_nil_iff, not_and]
      intro hnil
      -- a sigma has a small letter wherever it stands
      split at hnil
      · split at hnil <;> cases hnil
      · exact absurd hnil hmapped

end CaseMapping

/-! ## What a strategy leaves of a name -/

namespace KeyStrategy

/-- The strategies that run words together. -/
def RunsTogether (s : KeyStrategy) : Prop := s = camelCase ∨ s = pascalCase

theorem divideWords_eq_nil_iff (other mark : Char) (ended : Bool) (cs : List Char) :
    divideWords other mark ended cs = [] ↔ cs = [] := by
  cases cs with
  | nil => simp [divideWords]
  | cons c rest =>
      simp only [divideWords]
      split
      · simp
      · split <;> simp

theorem camel_eq_nil_iff (change : Char → Char) (cs : List Char) :
    camel change cs = [] ↔ ∀ c ∈ cs, isSeparator c = true := by
  rw [← List.dropWhile_eq_nil_iff]
  unfold camel
  cases cs.dropWhile isSeparator <;> simp

/-- Nothing is left of an empty name, and of a name without anything but separators where words are
run together. -/
theorem apply_eq_empty_iff (s : KeyStrategy) (name : String) :
    s.apply name = "" ↔
      name = "" ∨ s.RunsTogether ∧ ∀ c ∈ name.toList, isSeparator c = true := by
  have hlist : ∀ cs : List Char, String.ofList cs = "" ↔ cs = [] := fun cs => by
    rw [← String.toList_inj, String.toList_ofList]
    rfl
  have hname : name.toList = [] ↔ name = "" := String.toList_eq_nil_iff
  cases s with
  | verbatim => simp [apply, RunsTogether]
  | camelCase | pascalCase =>
      rw [apply, hlist, camel_eq_nil_iff, ← hname]
      constructor
      · exact fun h => .inr ⟨by simp [RunsTogether], h⟩
      · rintro (hnil | ⟨-, h⟩)
        · simp [hnil]
        · exact h
  | snakeCase => simp [apply, RunsTogether, hlist, snake, divideWords_eq_nil_iff, hname]
  | screamingSnakeCase => simp [apply, RunsTogether, hlist, snake, divideWords_eq_nil_iff, hname]
  | kebabCase => simp [apply, RunsTogether, hlist, kebab, divideWords_eq_nil_iff, hname]
  | lowercase =>
      simp [apply, RunsTogether, CaseMapping.lower, hlist, CaseMapping.lowerFrom_eq_nil_iff, hname]
  | uppercase =>
      have hupper : name.toList.flatMap CaseMapping.upperChar = [] ↔ name.toList = [] := by
        rw [List.flatMap_eq_nil_iff, List.eq_nil_iff_forall_not_mem]
        exact forall₂_congr fun c _ => iff_of_false (CaseMapping.upperChar_ne_nil c) id
      simp [apply, RunsTogether, CaseMapping.upper, hlist, hupper, hname]

end KeyStrategy

/-! ## Names and given keys -/

/-- A name as source text has it, marks aside. -/
def Identifier.Plain (name : String) : Prop :=
  ∃ c rest, name.toList = c :: rest ∧ isStart c = true ∧ ∀ d ∈ rest, isContinue d = true

/-- The names of fields and variants are names of source text. -/
structure Declaration.NamesPlain (d : Declaration) : Prop where
  fields : ∀ m ∈ d.members, Identifier.Plain m.name
  variants : ∀ v ∈ d.variants, Identifier.Plain v.name
  payloads : ∀ v ∈ d.variants, ∀ m ∈ v.members, Identifier.Plain m.name

/-- A name of source text is not empty, and an underscore is the only separator in it. -/
theorem Identifier.Plain.eq_underscore {name : String} (h : Identifier.Plain name) :
    name ≠ "" ∧ ∀ c ∈ name.toList, KeyStrategy.isSeparator c = true ↔ c = '_' := by
  obtain ⟨first, rest, hname, hfirst, hrest⟩ := h
  have hhyphen : ∀ c ∈ name.toList, c ≠ '-' := by
    rw [hname, List.forall_mem_cons]
    constructor
    · rintro rfl
      revert hfirst
      decide
    · rintro c hc rfl
      have hcontinue := hrest _ hc
      revert hcontinue
      decide
  constructor
  · rintro rfl
    cases hname
  · intro c hc
    simp [KeyStrategy.isSeparator, hhyphen c hc]

theorem Attribute.asked_keyArgument_ne_empty {k : Known} {attributes : List Attribute}
    {key : String} (h : asked k keyArgument attributes = some key) : key ≠ "" := by
  obtain ⟨a, -, ha⟩ := List.exists_of_findSome?_eq_some h
  unfold asks at ha
  split at ha
  · rw [toOption_keyArgument] at ha
    obtain ⟨_, _, _, _, _, -, -, -, hne⟩ := Meta.key?_eq_some_iff.mp ha
    exact hne
  · cases ha

/-! ## Keys that are empty -/

/-- The name of a member leaves no key. -/
def StoredMember.Vanishes (s : KeyStrategy) (m : StoredMember) : Prop :=
  m.named = true ∧ m.given = none ∧ s.RunsTogether ∧ ∀ c ∈ m.name.toList, c = '_'

/-- The name of a variant leaves no key. -/
def DeclaredVariant.Vanishes (s : KeyStrategy) (v : DeclaredVariant) : Prop :=
  v.given = none ∧ s.RunsTogether ∧ ∀ c ∈ v.ident.toList, c = '_'

/-- A member or variant that has a key in the key enum has a name that leaves none. -/
def Declaration.NameVanishes (s : KeyStrategy) (d : Declaration) : Prop :=
  match d.kind with
  | .struct => ∃ m ∈ d.members, m.unused = false ∧ m.Vanishes s
  | .enum =>
      ∃ v ∈ d.variants, v.Vanishes s ∨ ∃ m ∈ v.members, m.unused = false ∧ m.Vanishes s
  | _ => False

theorem StoredMember.wireKey_eq_empty_iff {m : StoredMember} (h : Identifier.Plain m.name)
    (s : KeyStrategy) : m.wireKey s = "" ↔ m.Vanishes s := by
  obtain ⟨hne, hunderscore⟩ := h.eq_underscore
  unfold wireKey Vanishes
  cases hgiven : m.given with
  | some key =>
      have hkey := asked_keyArgument_ne_empty hgiven
      rw [given] at hgiven
      simp [hgiven, hkey]
  | none =>
      rw [given] at hgiven
      cases m.named with
      | false => simp [hgiven, hne]
      | true =>
          simp only [hgiven, Option.getD_none, if_true, KeyStrategy.apply_eq_empty_iff, hne,
            false_or, true_and]
          exact and_congr_right fun _ => forall₂_congr hunderscore

theorem DeclaredVariant.wireKey_eq_empty_iff {v : DeclaredVariant} (h : Identifier.Plain v.name)
    (s : KeyStrategy) : v.wireKey s = "" ↔ v.Vanishes s := by
  obtain ⟨hne, hunderscore⟩ := h.eq_underscore
  -- a mark is not empty and no separator, so only a name without one can vanish
  have hident : v.ident ≠ "" ∧ ((∀ c ∈ v.ident.toList, KeyStrategy.isSeparator c = true) ↔
      ∀ c ∈ v.ident.toList, c = '_') := by
    obtain hplain | hmarked := Identifier.eq_unmarked_or_marked v.ident
    · have hname : v.ident = v.name := hplain
      rw [hname]
      exact ⟨hne, forall₂_congr hunderscore⟩
    · have hr : 'r' ∈ v.ident.toList := by
        rw [hmarked, String.toList_append]
        simp
      refine ⟨fun hempty => by simp [hempty] at hr, ?_⟩
      exact iff_of_false (fun h => absurd (h _ hr) (by decide))
        (fun h => absurd (h _ hr) (by decide))
  unfold wireKey Vanishes
  cases hgiven : v.given with
  | some key =>
      have hkey := asked_keyArgument_ne_empty hgiven
      rw [given] at hgiven
      simp [hgiven, hkey]
  | none =>
      rw [given] at hgiven
      simp only [hgiven, Option.getD_none, KeyStrategy.apply_eq_empty_iff, hident.1, false_or,
        true_and, hident.2]

theorem StoredMember.exists_empty_keyEntries_iff {s : KeyStrategy}
    {keyVariant : StoredMember → String} {members : List StoredMember}
    (h : ∀ m ∈ members, Identifier.Plain m.name) :
    (∃ e ∈ keyEntries s keyVariant members, e.value = "") ↔
      ∃ m ∈ members, m.unused = false ∧ m.Vanishes s := by
  constructor
  · rintro ⟨e, he, hvalue⟩
    obtain ⟨m, hm, rfl⟩ := List.mem_map.mp he
    obtain ⟨hm, hused⟩ := List.mem_filter.mp hm
    exact ⟨m, hm, by simpa using hused, (wireKey_eq_empty_iff (h m hm) s).mp hvalue⟩
  · rintro ⟨m, hm, hused, hvanishes⟩
    refine ⟨m.keyEntry s (keyVariant m), ?_, (wireKey_eq_empty_iff (h m hm) s).mpr hvanishes⟩
    exact List.mem_map.mpr ⟨m, List.mem_filter.mpr ⟨hm, by simpa using hused⟩, rfl⟩

namespace Declaration

/-- Some key of a declaration is empty exactly if some name leaves none. -/
theorem exists_empty_keyEntries_iff {d : Declaration} {s : KeyStrategy}
    (hident : d.ident.isSome = true) (hnames : d.NamesPlain) :
    (∃ e ∈ d.keyEntries s, e.value = "") ↔ d.NameVanishes s := by
  obtain ⟨ident, hident⟩ := Option.isSome_iff_exists.mp hident
  unfold keyEntries NameVanishes
  rw [hident]
  cases d.kind with
  | struct => exact StoredMember.exists_empty_keyEntries_iff hnames.fields
  | enum =>
      simp only [List.mem_flatMap, List.mem_cons]
      constructor
      · rintro ⟨e, ⟨v, hv, rfl | he⟩, hvalue⟩
        · exact ⟨v, hv, .inl ((v.wireKey_eq_empty_iff (hnames.variants v hv) s).mp hvalue)⟩
        · exact ⟨v, hv, .inr ((StoredMember.exists_empty_keyEntries_iff
            (hnames.payloads v hv)).mp ⟨e, he, hvalue⟩)⟩
      · rintro ⟨v, hv, hvanishes | hmember⟩
        · exact ⟨v.keyEntry s, ⟨v, hv, .inl rfl⟩,
            (v.wireKey_eq_empty_iff (hnames.variants v hv) s).mpr hvanishes⟩
        · obtain ⟨e, he, hvalue⟩ := (StoredMember.exists_empty_keyEntries_iff
            (hnames.payloads v hv)).mpr hmember
          exact ⟨e, ⟨v, hv, .inr he⟩, hvalue⟩
  | _ => simp

/-- In the key enum of an accepted struct or enum no text is empty, unless a name that consists of
underscores is left to a strategy that runs words together. -/
theorem keyTexts_nonempty_iff_no_name_vanishes {d : Declaration} {direction : Direction}
    (haccepted : d.expand.outcome = .accepted) (hconforms : d.conforms direction = true)
    (hident : d.ident.isSome = true) (hkind : d.kind = .struct ∨ d.kind = .enum)
    (hnames : d.NamesPlain) :
    ∃ t, d.codedType? = some t ∧ t.keys.declaration t.visibility ∈ d.expand.generated ∧
      ((∀ e ∈ t.keys.entries, e.value ≠ "") ↔ ¬ d.NameVanishes d.strategy) := by
  obtain ⟨t, hcoded, hgenerated⟩ := exists_keys_of_accepted haccepted hconforms hident hkind
  have hkeys := (CodedType.keys_of_ofDeclaration (ofDeclaration_of_codedType? hcoded)).2
  refine ⟨t, hcoded, hgenerated, ?_⟩
  rw [hkeys, ← exists_empty_keyEntries_iff hident hnames]
  push Not
  exact Iff.rfl

end Declaration

/-! ## A gap -/

namespace Gap

/-- A struct with a field of underscores, whose keys are made by a strategy. -/
def gap (strategy : String) : Item :=
  ⟨[.marker "codable" [],
      .marker "coding_keys" (Make.ident "rename_all" :: Make.op "=" ++ [Make.string strategy])],
    [], .struct [Make.ident "struct"] (Make.ident "Gap") .none
      (.named [Journal.field [] "__" [Make.ident "u8"], Journal.field [] "_x" [Make.ident "u8"]]
        .made) []⟩

theorem namesPlain_gap (strategy : String) : (Declaration.ofItem (gap strategy)).NamesPlain := by
  refine ⟨?_, by simp [Declaration.ofItem, gap], by simp [Declaration.ofItem, gap]⟩
  intro m hm
  simp only [Declaration.ofItem, gap, Fields.toList, StoredMember.ofFields, List.mem_cons,
    List.not_mem_nil, or_false] at hm
  rcases hm with rfl | rfl
  · exact ⟨'_', ['_'], rfl, by decide, List.forall_mem_singleton.mpr (by decide)⟩
  · exact ⟨'_', ['x'], rfl, by decide, List.forall_mem_singleton.mpr (by decide)⟩

/-- Hyphens take the place of underscores, and the key is not empty. -/
theorem keyTexts_gap_nonempty :
    ∃ t, (Declaration.ofItem (gap "kebab-case")).codedType? = some t ∧
      t.keys.declaration t.visibility ∈
        (Declaration.ofItem (gap "kebab-case")).expand.generated ∧
      ∀ e ∈ t.keys.entries, e.value ≠ "" := by
  have hconforms : (Declaration.ofItem (gap "kebab-case")).conforms .decode = true := by
    decide +kernel
  obtain ⟨t, hcoded, hgenerated, hiff⟩ := Declaration.keyTexts_nonempty_iff_no_name_vanishes
    (by decide +kernel) hconforms rfl (.inl rfl) (namesPlain_gap "kebab-case")
  refine ⟨t, hcoded, hgenerated, hiff.mpr ?_⟩
  have hstrategy : (Declaration.ofItem (gap "kebab-case")).strategy = .kebabCase := by
    decide +kernel
  rintro ⟨m, -, -, -, -, hjoins, -⟩
  rw [hstrategy] at hjoins
  rcases hjoins with h | h <;> cases h

/-- Where words are run together, the declaration is accepted although a key is empty. -/
theorem keyText_gap_empty :
    (Declaration.ofItem (gap "camelCase")).expand.outcome = .accepted ∧
    (Declaration.ofItem (gap "camelCase")).conforms .decode = true ∧
    (Declaration.ofItem (gap "camelCase")).conforms .encode = true ∧
    (Declaration.ofItem (gap "camelCase")).NamesPlain ∧
    ∃ t, (Declaration.ofItem (gap "camelCase")).codedType? = some t ∧
      t.keys.declaration t.visibility ∈
        (Declaration.ofItem (gap "camelCase")).expand.generated ∧
      ∃ e ∈ t.keys.entries, e.value = "" := by
  have haccepted : (Declaration.ofItem (gap "camelCase")).expand.outcome = .accepted := by
    decide +kernel
  have hconforms : (Declaration.ofItem (gap "camelCase")).conforms .decode = true := by
    decide +kernel
  refine ⟨haccepted, hconforms, by decide +kernel, namesPlain_gap "camelCase", ?_⟩
  obtain ⟨t, hcoded, hgenerated⟩ :=
    Declaration.exists_keys_of_accepted haccepted hconforms rfl (.inl rfl)
  have hvalues : (Declaration.ofItem (gap "camelCase")).codedType?.map
      (fun t => t.keys.entries.map KeyEntry.value) = some ["", "x"] := by decide +kernel
  rw [hcoded, Option.map_some, Option.some.injEq] at hvalues
  refine ⟨t, hcoded, hgenerated, ?_⟩
  have hmem : "" ∈ t.keys.entries.map KeyEntry.value := by simp [hvalues]
  obtain ⟨e, he, hvalue⟩ := List.mem_map.mp hmem
  exact ⟨e, he, hvalue⟩

end Gap

end KeyedCoding
