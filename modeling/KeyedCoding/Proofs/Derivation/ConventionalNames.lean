import KeyedCoding.Proofs.Derivation.Collisions
import KeyedCoding.Proofs.Derivation.Words

/-!
# Conventional names

Fields are named by words of small letters and digits with single underscores between them.  On such
names every strategy can be undone: `KeyStrategy.undo` reads the name back from the key alone.  Most
strategies keep the underscores or put hyphens in their place.  Two of them drop the underscores,
and the capitals that stand behind them show where they were, also where a word is one letter.  So
different fields have different keys, and a struct of such fields is not reported for a collision.
-/

namespace KeyedCoding

open KeyStrategy Diagnostic

/-! ## Names by words -/

/-- Whether the characters are a small letter with small letters and digits behind it. -/
def IsWord : List Char → Prop
  | [] => False
  | c :: rest => c.isLower = true ∧ ∀ c ∈ rest, endsWord c = true

/-- Whether a name is one word, or several with single underscores between them. -/
def Conventional (name : String) : Prop :=
  ∃ (first : List Char) (later : List (List Char)), IsWord first ∧
    (∀ word ∈ later, IsWord word) ∧ name.toList = first ++ later.flatMap fun word => '_' :: word

/-- Whether the characters go on with words and underscores as a conventional name does; `start`
tells whether a word has to start. -/
def conventionalFrom : Bool → List Char → Bool
  | start, [] => !start
  | true, c :: rest => c.isLower && conventionalFrom false rest
  | false, c :: rest =>
      if c == '_' then conventionalFrom true rest else endsWord c && conventionalFrom false rest

theorem endsWord_of_isLower {c : Char} (hc : c.isLower = true) : endsWord c = true := by
  rw [endsWord, hc, Bool.true_or]

theorem ne_underscore_of_endsWord {c : Char} (hc : endsWord c = true) : c ≠ '_' := by
  rintro rfl
  revert hc
  decide

/-- Inside of a word its other characters may stand before the words that follow. -/
theorem conventionalFrom_append {cs : List Char} (hcs : ∀ c ∈ cs, endsWord c = true)
    (rest : List Char) : conventionalFrom false (cs ++ rest) = conventionalFrom false rest := by
  induction cs with
  | nil => rfl
  | cons c cs ih =>
      rw [List.forall_mem_cons] at hcs
      have hne := ne_underscore_of_endsWord hcs.1
      simp [conventionalFrom, hne, hcs.1, ih hcs.2]

theorem conventionalFrom_word {word : List Char} (hword : IsWord word) (rest : List Char) :
    conventionalFrom true (word ++ rest) = conventionalFrom false rest := by
  cases word with
  | nil => exact hword.elim
  | cons c cs => simp [conventionalFrom, hword.1, conventionalFrom_append hword.2]

theorem conventionalFrom_words {later : List (List Char)} (hlater : ∀ word ∈ later, IsWord word) :
    conventionalFrom false (later.flatMap fun word => '_' :: word) = true := by
  induction later with
  | nil => rfl
  | cons word later ih =>
      rw [List.forall_mem_cons] at hlater
      rw [List.flatMap_cons, List.cons_append]
      simp [conventionalFrom, conventionalFrom_word hlater.1, ih hlater.2]

/-- What follows a character of a word is the rest of that word and further words. -/
theorem exists_words {start : Bool} {cs : List Char} (h : conventionalFrom start cs = true) :
    ∃ (first : List Char) (later : List (List Char)),
      (if start then IsWord first else ∀ c ∈ first, endsWord c = true) ∧
      (∀ word ∈ later, IsWord word) ∧ cs = first ++ later.flatMap fun word => '_' :: word := by
  induction cs generalizing start with
  | nil =>
      cases start with
      | true => cases h
      | false => exact ⟨[], [], by simp, by simp, rfl⟩
  | cons c rest ih =>
      cases start with
      | true =>
          obtain ⟨hc, hrest⟩ := Bool.and_eq_true_iff.mp h
          obtain ⟨first, later, hfirst, hlater, rfl⟩ := ih hrest
          exact ⟨c :: first, later, ⟨hc, hfirst⟩, hlater, rfl⟩
      | false =>
          by_cases hmark : c = '_'
          · subst hmark
            obtain ⟨first, later, hfirst, hlater, rfl⟩ := ih h
            exact ⟨[], first :: later, by simp, List.forall_mem_cons.mpr ⟨hfirst, hlater⟩, rfl⟩
          · simp only [conventionalFrom, beq_iff_eq, hmark, if_false, Bool.and_eq_true] at h
            obtain ⟨first, later, hfirst, hlater, rfl⟩ := ih h.2
            exact ⟨c :: first, later, List.forall_mem_cons.mpr ⟨h.1, hfirst⟩, hlater, rfl⟩

theorem conventional_iff (name : String) :
    Conventional name ↔ conventionalFrom true name.toList = true := by
  constructor
  · rintro ⟨first, later, hfirst, hlater, hname⟩
    rw [hname, conventionalFrom_word hfirst, conventionalFrom_words hlater]
  · intro h
    obtain ⟨first, later, hfirst, hlater, hname⟩ := exists_words h
    exact ⟨first, later, hfirst, hlater, hname⟩

instance (name : String) : Decidable (Conventional name) :=
  decidable_of_iff _ (conventional_iff name).symm

/-- A conventional name has small letters, digits and underscores. -/
theorem endsWord_or_underscore {start : Bool} {cs : List Char}
    (h : conventionalFrom start cs = true) : ∀ c ∈ cs, endsWord c = true ∨ c = '_' := by
  induction cs generalizing start with
  | nil => simp
  | cons c rest ih =>
      rw [List.forall_mem_cons]
      cases start with
      | true =>
          obtain ⟨hc, hrest⟩ := Bool.and_eq_true_iff.mp h
          exact ⟨.inl (endsWord_of_isLower hc), ih hrest⟩
      | false =>
          by_cases hmark : c = '_'
          · subst hmark
            exact ⟨.inr rfl, ih h⟩
          · simp only [conventionalFrom, beq_iff_eq, hmark, if_false, Bool.and_eq_true] at h
            exact ⟨.inl h.1, ih h.2⟩

/-! ## What the strategies do to small characters -/

section Small

variable {c : Char} (hc : endsWord c = true ∨ c = '_')

include hc

theorem not_isUpper_of_small : c.isUpper = false := by
  rcases hc with hc | rfl
  · exact (isSeparator_of_endsWord hc).2
  · rfl

theorem ne_hyphen_of_small : c ≠ '-' := by
  rcases hc with hc | rfl
  · rintro rfl
    revert hc
    decide
  · decide

theorem toLower_of_small : c.toLower = c :=
  toLower_of_not_isUpper (not_isUpper_of_small hc)

theorem toLower_toUpper_of_small : c.toUpper.toLower = c := by
  rw [toLower_toUpper_eq, toLower_of_small hc]

theorem toNat_lt_of_small : c.toNat < 128 := by
  rcases hc with hc | rfl
  · rcases Bool.or_eq_true_iff.mp hc with hlower | hdigit
    · have hrange := isLower_iff.mp hlower
      omega
    · have hrange : 48 ≤ c.toNat ∧ c.toNat ≤ 57 := Char.isDigit_iff_toNat.mp hdigit
      omega
  · decide

end Small

section SmallText

variable {cs : List Char} (hcs : ∀ c ∈ cs, endsWord c = true ∨ c = '_')

include hcs

/-- Without capitals words are divided where they were: only the separator may change. -/
theorem divideWords_of_small (other mark : Char) (ended : Bool) :
    divideWords other mark ended cs = cs.map fun c => if c = other then mark else c := by
  induction cs generalizing ended with
  | nil => rfl
  | cons c rest ih =>
      rw [List.forall_mem_cons] at hcs
      have hupper := not_isUpper_of_small hcs.1
      by_cases hother : c = other
      · simp [divideWords, hother, ih hcs.2]
      · simp [divideWords, hother, hupper, ih hcs.2]

theorem snake_of_small : snake cs = cs := by
  rw [snake, divideWords_of_small hcs]
  refine (List.map_congr_left fun c hc => ?_).trans (List.map_id cs)
  rw [if_neg (ne_hyphen_of_small (hcs c hc)), id]

theorem lowerFrom_of_small (before : List Char) : CaseMapping.lowerFrom before cs = cs := by
  induction cs generalizing before with
  | nil => rfl
  | cons c rest ih =>
      rw [List.forall_mem_cons] at hcs
      have hascii := toNat_lt_of_small hcs.1
      have hsigma : c ≠ 'Σ' := by
        rintro rfl
        revert hascii
        decide
      simp [CaseMapping.lowerFrom, CaseMapping.lowerChar, hsigma, hascii,
        toLower_of_small hcs.1, ih hcs.2]

theorem upper_of_small : cs.flatMap CaseMapping.upperChar = cs.map Char.toUpper := by
  rw [← List.flatMap_singleton' (cs.map Char.toUpper), List.flatMap_map]
  refine List.flatMap_congr fun c hc => ?_
  rw [CaseMapping.upperChar, if_pos (toNat_lt_of_small (hcs c hc))]

theorem map_toLower_map_toUpper : (cs.map Char.toUpper).map Char.toLower = cs := by
  rw [List.map_map]
  refine (List.map_congr_left fun c hc => ?_).trans (List.map_id cs)
  exact toLower_toUpper_of_small (hcs c hc)

end SmallText

/-! ## Reading names back -/

/-- Words divided again: an underscore and a small letter for every capital. -/
def unjoin : List Char → List Char
  | [] => []
  | c :: rest => if c.isUpper then '_' :: c.toLower :: unjoin rest else c :: unjoin rest

/-- A word that starts has its letter raised, so the underscore before it is read back; this carries
the flag of the loop through the name. -/
theorem unjoin_joinWords {start : Bool} {cs : List Char} (h : conventionalFrom start cs = true) :
    unjoin (joinWords start cs) = if start then '_' :: cs else cs := by
  induction cs generalizing start with
  | nil =>
      cases start with
      | true => cases h
      | false => rfl
  | cons c rest ih =>
      cases start with
      | true =>
          obtain ⟨hc, hrest⟩ := Bool.and_eq_true_iff.mp h
          have hword := (isSeparator_of_endsWord (endsWord_of_isLower hc)).1
          have hread := ih hrest
          simp [joinWords, hword, unjoin, isUpper_toUpper hc, toLower_toUpper hc, hread]
      | false =>
          by_cases hmark : c = '_'
          · subst hmark
            have hread : unjoin (joinWords true rest) = '_' :: rest := ih h
            simpa [joinWords, isSeparator] using hread
          · simp only [conventionalFrom, beq_iff_eq, hmark, if_false, Bool.and_eq_true] at h
            obtain ⟨hword, hupper⟩ := isSeparator_of_endsWord h.1
            have hread := ih h.2
            simp [joinWords, hword, unjoin, hupper, hread]

namespace KeyStrategy

/-- The characters of a conventional name, from those of its key. -/
def undo : KeyStrategy → List Char → List Char
  | verbatim, key | snakeCase, key | lowercase, key => key
  | camelCase, key => unjoin key
  | pascalCase, key => (unjoin key).tail
  | screamingSnakeCase, key | uppercase, key => key.map Char.toLower
  | kebabCase, key => key.map fun c => if c = '-' then '_' else c

/-- Run together, a name that starts with a word keeps its first letter but for its case. -/
theorem camel_of_conventional (change : Char → Char) {c : Char} {rest : List Char}
    (hc : c.isLower = true) : camel change (c :: rest) = change c :: joinWords false rest := by
  have hword := (isSeparator_of_endsWord (endsWord_of_isLower hc)).1
  simp [camel, hword]

theorem unjoin_camel {c : Char} {rest : List Char}
    (h : conventionalFrom true (c :: rest) = true) :
    unjoin (camel Char.toLower (c :: rest)) = c :: rest ∧
      unjoin (camel Char.toUpper (c :: rest)) = '_' :: c :: rest := by
  obtain ⟨hc, hrest⟩ := Bool.and_eq_true_iff.mp h
  obtain ⟨-, hupper⟩ := isSeparator_of_endsWord (endsWord_of_isLower hc)
  have hread := unjoin_joinWords hrest
  rw [camel_of_conventional _ hc, camel_of_conventional _ hc]
  constructor
  · simp [unjoin, toLower_of_isLower hc, hupper, hread]
  · simp [unjoin, isUpper_toUpper hc, toLower_toUpper hc, hread]

/-- A conventional name is read back from its key, whatever the strategy. -/
theorem undo_apply (s : KeyStrategy) {name : String} (hname : Conventional name) :
    s.undo (s.apply name).toList = name.toList := by
  have hfrom := (conventional_iff name).mp hname
  have hsmall := endsWord_or_underscore hfrom
  cases s with
  | verbatim => rfl
  | snakeCase => rw [undo, apply, String.toList_ofList, snake_of_small hsmall]
  | lowercase =>
      rw [undo, apply, CaseMapping.lower, String.toList_ofList, lowerFrom_of_small hsmall]
  | camelCase =>
      cases hlist : name.toList with
      | nil => rw [hlist] at hfrom; cases hfrom
      | cons c rest =>
          rw [hlist] at hfrom
          rw [undo, apply, String.toList_ofList, hlist, (unjoin_camel hfrom).1]
  | pascalCase =>
      cases hlist : name.toList with
      | nil => rw [hlist] at hfrom; cases hfrom
      | cons c rest =>
          rw [hlist] at hfrom
          rw [undo, apply, String.toList_ofList, hlist, (unjoin_camel hfrom).2, List.tail_cons]
  | screamingSnakeCase =>
      rw [undo, apply, String.toList_ofList, snake_of_small hsmall, map_toLower_map_toUpper hsmall]
  | uppercase =>
      rw [undo, apply, CaseMapping.upper, String.toList_ofList, upper_of_small hsmall,
        map_toLower_map_toUpper hsmall]
  | kebabCase =>
      rw [undo, apply, String.toList_ofList, kebab, divideWords_of_small hsmall, List.map_map]
      refine (List.map_congr_left fun c hc => ?_).trans (List.map_id name.toList)
      have hhyphen := ne_hyphen_of_small (hsmall c hc)
      by_cases hmark : c = '_'
      · simp [hmark]
      · simp [hmark, hhyphen]

/-- No strategy gives two conventional names the same key. -/
theorem injOn_apply (s : KeyStrategy) : Set.InjOn s.apply {name | Conventional name} := by
  intro first hfirst second hsecond hkeys
  apply String.toList_inj.mp
  calc first.toList = s.undo (s.apply first).toList := (s.undo_apply hfirst).symm
    _ = s.undo (s.apply second).toList := by rw [hkeys]
    _ = second.toList := s.undo_apply hsecond

end KeyStrategy

/-! ## Structs of conventional fields -/

/-- A field that is called conventionally and is given no key. -/
structure StoredMember.IsConventional (m : StoredMember) : Prop where
  named : m.named = true
  conventional : Conventional m.name
  given : m.given = none

namespace StoredMember.IsConventional

variable {m : StoredMember}

theorem wireKey_eq (h : m.IsConventional) (s : KeyStrategy) : m.wireKey s = s.apply m.name := by
  have hgiven : Attribute.asked .codedAt Attribute.keyArgument m.attributes = none := h.given
  simp [wireKey, hgiven, h.named]

/-- Fields of different conventional names have different keys. -/
theorem nodup_wireKeys {members : List StoredMember} (h : ∀ m ∈ members, m.IsConventional)
    (hdistinct : (members.map name).Nodup) (s : KeyStrategy) : (wireKeys s members).Nodup := by
  have hused : ((members.filter fun m => !m.unused).map name).Nodup :=
    hdistinct.sublist (List.filter_sublist.map name)
  have hkeys : wireKeys s members =
      ((members.filter fun m => !m.unused).map name).map s.apply := by
    rw [wireKeys, List.map_map]
    exact List.map_congr_left fun m hm => (h m (List.mem_of_mem_filter hm)).wireKey_eq s
  rw [hkeys]
  refine hused.map_on fun first hfirst second hsecond => ?_
  have hname : ∀ n ∈ (members.filter fun m => !m.unused).map name, Conventional n := by
    intro n hn
    obtain ⟨m, hm, rfl⟩ := List.mem_map.mp hn
    exact (h m (List.mem_of_mem_filter hm)).conventional
  exact s.injOn_apply (hname first hfirst) (hname second hsecond)

end StoredMember.IsConventional

namespace Declaration

variable {d : Declaration}

/-- No scope of a struct of conventional fields has a collision. -/
theorem collisions_eq_nil_of_conventional (hkind : d.kind = .struct)
    (hfields : ∀ m ∈ d.members, m.IsConventional)
    (hdistinct : (d.members.map StoredMember.name).Nodup) (s : KeyStrategy) :
    ∀ scope ∈ d.entryScopes s, collisions d.typeName scope = [] := by
  intro scope hscope
  have hnodup := StoredMember.IsConventional.nodup_wireKeys hfields hdistinct s
  rw [collisions_eq_nil_iff]
  unfold entryScopes at hscope
  rw [hkind] at hscope
  split at hscope
  · obtain rfl := List.mem_singleton.mp hscope
    rw [StoredMember.map_value_keyEntries]
    exact hnodup
  · next heq => cases heq
  · cases hscope

/-- Where nothing collides, what the rules find is reported and decides about acceptance. -/
theorem expand_eq_of_no_collision
    (h : ∀ scope ∈ d.entryScopes d.strategy, collisions d.typeName scope = []) :
    d.expand.diagnostics = d.findings ∧ (d.expand.outcome = .accepted ↔ Harmless d.findings) := by
  by_cases hfindings : Harmless d.findings
  · have hsound := harmless_findings_iff.mp hfindings
    have hbuild : (d.build ⟨0, d.findings⟩).2.diagnostics = d.findings := by
      by_cases hasks : d.AsksForProtocol
      · rw [hsound.build_diagnostics hasks, List.flatMap_eq_nil_iff.mpr h, List.append_nil]
      · rw [hsound.build_diagnostics_of_not_asks hasks]
    have hharmless : Harmless (d.build ⟨0, d.findings⟩).2.diagnostics := by
      rw [hbuild]
      exact hfindings
    rw [expand_of_harmless hfindings hharmless]
    exact ⟨hbuild, iff_of_true rfl hfindings⟩
  · rw [expand_of_findings hfindings]
    simp [hfindings]

/-- Conventional names have different keys under every strategy.  So a struct of conventional fields
is reported for what its rules find and for nothing else, and is accepted exactly if they find no
error. -/
theorem conventional_names_never_collide :
    (∀ (s : KeyStrategy) (first second : String), Conventional first → Conventional second →
      first ≠ second → s.apply first ≠ s.apply second) ∧
    ∀ d : Declaration, d.kind = .struct → (∀ m ∈ d.members, m.IsConventional) →
      (d.members.map StoredMember.name).Nodup →
      (∀ s, ∀ scope ∈ d.entryScopes s, collisions d.typeName scope = []) ∧
      d.expand.diagnostics = d.findings ∧
      (d.expand.outcome = .accepted ↔ Harmless d.findings) := by
  constructor
  · intro s first second hfirst hsecond hne hkeys
    exact hne (s.injOn_apply hfirst hsecond hkeys)
  · intro d hkind hfields hdistinct
    have hscopes := collisions_eq_nil_of_conventional hkind hfields hdistinct
    have hfound := expand_eq_of_no_collision (hscopes d.strategy)
    exact ⟨hscopes, hfound⟩

end Declaration

/-! ## A plane -/

namespace Plane

/-- A struct of conventional fields, whose keys are made by a strategy. -/
def plane (strategy : String) : Item :=
  ⟨[.marker "codable" [],
      .marker "coding_keys" (Make.ident "rename_all" :: Make.op "=" ++ [Make.string strategy])],
    [], .struct [Make.ident "struct"] (Make.ident "Plane") .none
      (.named (["x", "y", "x_y", "xy", "x_y1", "xy_y"].map
        fun name => Journal.field [] name [Make.ident "u8"]) .made) []⟩

/-- Where words are run together, the places of the underscores still tell the fields apart. -/
theorem plane_accepted :
    (∀ m ∈ (Declaration.ofItem (plane "camelCase")).members, m.IsConventional) ∧
    ((Declaration.ofItem (plane "camelCase")).members.map StoredMember.name).Nodup ∧
    camelCase.apply "x_y" ≠ camelCase.apply "xy" ∧
    (Declaration.ofItem (plane "camelCase")).expand.diagnostics = [] ∧
    (Declaration.ofItem (plane "camelCase")).expand.outcome = .accepted := by
  have hfields : ∀ m ∈ (Declaration.ofItem (plane "camelCase")).members, m.IsConventional := by
    have hnamed : (Declaration.ofItem (plane "camelCase")).members.all StoredMember.named = true :=
      rfl
    have hnames : ∀ m ∈ (Declaration.ofItem (plane "camelCase")).members,
        Conventional m.name ∧ m.given = none := by decide +kernel
    intro m hm
    exact ⟨List.all_eq_true.mp hnamed m hm, (hnames m hm).1, (hnames m hm).2⟩
  have hdistinct :
      ((Declaration.ofItem (plane "camelCase")).members.map StoredMember.name).Nodup := by
    decide +kernel
  obtain ⟨hkeys, hstruct⟩ := Declaration.conventional_names_never_collide
  obtain ⟨-, hreported, haccepted⟩ := hstruct _ rfl hfields hdistinct
  have hfindings : (Declaration.ofItem (plane "camelCase")).findings = [] := by decide +kernel
  refine ⟨hfields, hdistinct, ?_, hreported.trans hfindings, haccepted.mpr ?_⟩
  · exact hkeys camelCase "x_y" "xy" (by decide) (by decide) (by decide)
  · rw [hfindings]
    exact harmless_nil

end Plane

end KeyedCoding
