import KeyedCoding.Proofs.Derivation.Collisions
import KeyedCoding.Proofs.Derivation.Words

/-!
# Keys with hyphens and keys with underscores

Two strategies divide words, one with hyphens and one with underscores.  Both run along the
characters with a flag; `KeyStrategy.pieces` says without one what becomes of every character, from
the character itself and the one before it.  So the two keys of a name differ in nothing but the
separator: `KeyStrategy.Counterparts` relates their characters, one to one, whatever the name is.

Two names therefore have the same key under the one strategy exactly if they have the same key under
the other.  The same members and variants of a declaration repeat a key, as long as no key that is
given brings in a separator of its own.
-/

namespace KeyedCoding

open KeyStrategy

/-! ## Ends of words -/

/-- A separator or a capital ends no word. -/
theorem endsWord_eq_false {c : Char} (hc : isSeparator c = true ∨ c.isUpper = true) :
    endsWord c = false := by
  rw [← Bool.not_eq_true]
  intro hends
  obtain ⟨hseparator, hupper⟩ := isSeparator_of_endsWord hends
  simp [hseparator, hupper] at hc

theorem endsWord_toLower {c : Char} (hc : c.isUpper = true) : endsWord c.toLower = true := by
  rw [endsWord, isLower_toLower hc, Bool.true_or]

namespace KeyStrategy

/-! ## Words divided by a mark -/

/-- What becomes of a character behind another one, or at the start: a separator gives way to the
mark, and a capital becomes small, with the mark before it if it starts a word. -/
def piece (mark : Char) (before : Option Char) (c : Char) : List Char :=
  if isSeparator c then [mark]
  else if c.isUpper then (if before.any endsWord then [mark] else []) ++ [c.toLower]
  else [c]

/-- What becomes of characters behind another one, or at the start. -/
def pieces (mark : Char) (before : Option Char) (cs : List Char) : List Char :=
  ((before :: cs.map some).zip cs).flatMap fun (before, c) => piece mark before c

theorem pieces_cons (mark : Char) (before : Option Char) (c : Char) (rest : List Char) :
    pieces mark before (c :: rest) = piece mark before c ++ pieces mark (some c) rest := rfl

/-- The flag that runs along the characters tells whether the last one ends a word. -/
theorem divideWords_eq_pieces {other mark : Char} (hother : isSeparator other = true)
    (hmark : isSeparator mark = true) (hne : other ≠ mark) (before : Option Char)
    (cs : List Char) :
    divideWords other mark (before.any endsWord) cs = pieces mark before cs := by
  induction cs generalizing before with
  | nil => rfl
  | cons c rest ih =>
      have hrest := ih (some c)
      rw [Option.any_some] at hrest
      rw [pieces_cons, ← hrest, piece]
      cases hseparator : isSeparator c with
      | true =>
          -- only one of the separators is looked for, but the other one lowers the flag as well
          rw [divideWords_separator hother hmark hne hseparator,
            endsWord_eq_false (.inl hseparator)]
          rfl
      | false =>
          have hkept : c ≠ other := by
            rintro rfl
            rw [hother] at hseparator
            cases hseparator
          cases hupper : c.isUpper with
          | true => simp [divideWords, hkept, hupper, endsWord_eq_false (.inr hupper)]
          | false => simp [divideWords, hkept, hupper]

theorem kebab_eq_pieces (name : List Char) : kebab name = pieces '-' none name :=
  divideWords_eq_pieces rfl rfl (by decide) none name

theorem snake_eq_pieces (name : List Char) : snake name = pieces '_' none name :=
  divideWords_eq_pieces rfl rfl (by decide) none name

/-! ## One separator for the other -/

/-- A hyphen beside an underscore, or a character that is neither beside itself. -/
def Counterparts (c c' : Char) : Prop := c = '-' ∧ c' = '_' ∨ c = c' ∧ isSeparator c = false

/-- Characters are equal exactly if their counterparts are. -/
theorem Counterparts.eq_iff {c c' d d' : Char} (h : Counterparts c c') (h' : Counterparts d d') :
    c = d ↔ c' = d' := by
  obtain ⟨rfl, rfl⟩ | ⟨rfl, hc⟩ := h <;> obtain ⟨rfl, rfl⟩ | ⟨rfl, hd⟩ := h'
  · exact iff_of_true rfl rfl
  -- where one character is a separator and the other is not, they differ on both sides
  · exact iff_of_false (by rintro rfl; cases hd) (by rintro rfl; cases hd)
  · exact iff_of_false (by rintro rfl; cases hc) (by rintro rfl; cases hc)
  · exact Iff.rfl

theorem biUnique_counterparts : Relator.BiUnique Counterparts :=
  ⟨fun _ _ _ h h' => (h.eq_iff h').mpr rfl, fun _ _ _ h h' => (h.eq_iff h').mp rfl⟩

/-- With another mark a character becomes the same but for the mark. -/
theorem forall₂_piece (before : Option Char) (c : Char) :
    List.Forall₂ Counterparts (piece '-' before c) (piece '_' before c) := by
  have hmark : Counterparts '-' '_' := .inl ⟨rfl, rfl⟩
  unfold piece
  cases hseparator : isSeparator c with
  | true => exact .cons hmark .nil
  | false =>
      cases hupper : c.isUpper with
      | true =>
          have hsmall : Counterparts c.toLower c.toLower :=
            .inr ⟨rfl, (isSeparator_of_endsWord (endsWord_toLower hupper)).1⟩
          cases before.any endsWord with
          | true => exact .cons hmark (.cons hsmall .nil)
          | false => exact .cons hsmall .nil
      | false => exact .cons (.inr ⟨rfl, hseparator⟩) .nil

/-- The two strategies write the same but for their separators. -/
theorem forall₂_kebab_snake (name : List Char) :
    List.Forall₂ Counterparts (kebab name) (snake name) := by
  rw [kebab_eq_pieces, snake_eq_pieces]
  have hsame : List.Forall₂ Eq ((none :: name.map some).zip name)
      ((none :: name.map some).zip name) := List.forall₂_refl _
  refine List.rel_flatMap hsame ?_
  rintro ⟨before, c⟩ _ rfl
  exact forall₂_piece before c

/-! ## Keys that differ in separators -/

/-- A key and the one that has underscores for its hyphens and is the same otherwise. -/
def KeysBeside (key key' : String) : Prop := List.Forall₂ Counterparts key.toList key'.toList

theorem keysBeside_apply (name : String) :
    KeysBeside (kebabCase.apply name) (snakeCase.apply name) := by
  rw [KeysBeside, apply, apply, String.toList_ofList, String.toList_ofList]
  exact forall₂_kebab_snake name.toList

theorem biUnique_keysBeside : Relator.BiUnique KeysBeside := by
  obtain ⟨hleft, hright⟩ := biUnique_counterparts.forall₂
  exact ⟨fun _ _ _ h h' => String.toList_inj.mp (hleft h h'),
    fun _ _ _ h h' => String.toList_inj.mp (hright h h')⟩

/-- Keys are equal exactly if the keys beside them are. -/
theorem KeysBeside.eq_iff {first first' second second' : String} (h : KeysBeside first first')
    (h' : KeysBeside second second') : first = second ↔ first' = second' :=
  Relator.rel_eq biUnique_keysBeside h h'

/-- Underscores in the places of the hyphens give the key beside. -/
theorem KeysBeside.map_eq {key key' : String} (h : KeysBeside key key') :
    key.map (fun c => if c = '-' then '_' else c) = key' := by
  apply String.toList_inj.mp
  rw [String.toList_map, ← List.map_id key'.toList]
  refine (map_eq_map_of_forall₂ (h.imp fun c c' hc => ?_)).symm
  obtain ⟨rfl, rfl⟩ | ⟨rfl, hkept⟩ := hc
  · rfl
  · have hne : c ≠ '-' := by
      rintro rfl
      cases hkept
    rw [if_neg hne, id]

/-- A text without a separator. -/
def Undivided (text : String) : Prop := ∀ c ∈ text.toList, isSeparator c = false

instance (text : String) : Decidable (Undivided text) :=
  List.decidableBAll (fun c => isSeparator c = false) text.toList

theorem Undivided.keysBeside {text : String} (h : Undivided text) : KeysBeside text text :=
  List.forall₂_same.mpr fun c hc => .inr ⟨rfl, h c hc⟩

/-- A given key without a separator is the same beside itself, and takes the place of the key of any
name. -/
theorem keysBeside_getD {given : Option String} (h : ∀ key ∈ given, Undivided key)
    (name : String) :
    KeysBeside (given.getD (kebabCase.apply name)) (given.getD (snakeCase.apply name)) := by
  cases given with
  | some key => exact (h key rfl).keysBeside
  | none => exact keysBeside_apply name

end KeyStrategy

/-! ## Scopes -/

namespace StoredMember

/-- Members of one scope, all of them with names or none, whose given keys have no separators. -/
structure GivenUndivided (members : List StoredMember) : Prop where
  uniform : ∀ m ∈ members, ∀ m' ∈ members, m.named = m'.named
  given : ∀ m ∈ members, ∀ key ∈ m.given, Undivided key

/-- No strategy sees a position. -/
theorem wireKey_of_positional {m : StoredMember} (h : m.named = false) (s s' : KeyStrategy) :
    m.wireKey s = m.wireKey s' := by
  simp [wireKey_eq_getD, h]

theorem keysBeside_wireKey {m : StoredMember} (hnamed : m.named = true)
    (hgiven : ∀ key ∈ m.given, Undivided key) :
    KeysBeside (m.wireKey kebabCase) (m.wireKey snakeCase) := by
  rw [wireKey_eq_getD, wireKey_eq_getD, if_pos hnamed, if_pos hnamed]
  exact keysBeside_getD hgiven m.name

namespace GivenUndivided

variable {members : List StoredMember} (h : GivenUndivided members)

include h

theorem wireKey_eq_iff {m m' : StoredMember} (hm : m ∈ members) (hm' : m' ∈ members) :
    m.wireKey kebabCase = m'.wireKey kebabCase ↔ m.wireKey snakeCase = m'.wireKey snakeCase := by
  have hsame := h.uniform m' hm' m hm
  cases hnamed : m.named with
  | true =>
      have hbeside := keysBeside_wireKey hnamed (h.given m hm)
      exact hbeside.eq_iff (keysBeside_wireKey (hsame.trans hnamed) (h.given m' hm'))
  | false =>
      rw [wireKey_of_positional hnamed kebabCase snakeCase,
        wireKey_of_positional (hsame.trans hnamed) kebabCase snakeCase]

theorem repeats_keyEntries_eq (keyVariant : StoredMember → String) :
    repeats ((keyEntries kebabCase keyVariant members).map KeyEntry.value) =
      repeats ((keyEntries snakeCase keyVariant members).map KeyEntry.value) := by
  rw [map_value_keyEntries, map_value_keyEntries, wireKeys, wireKeys]
  exact repeats_map_eq fun m hm m' hm' =>
    h.wireKey_eq_iff (List.mem_of_mem_filter hm) (List.mem_of_mem_filter hm')

end GivenUndivided

end StoredMember

theorem DeclaredVariant.keysBeside_wireKey {v : DeclaredVariant}
    (hgiven : ∀ key ∈ v.given, Undivided key) :
    KeysBeside (v.wireKey kebabCase) (v.wireKey snakeCase) := by
  rw [wireKey_eq_getD, wireKey_eq_getD]
  exact keysBeside_getD hgiven v.ident

theorem DeclaredVariant.repeats_keyEntry_eq {variants : List DeclaredVariant}
    (hgiven : ∀ v ∈ variants, ∀ key ∈ v.given, Undivided key) :
    repeats ((variants.map (keyEntry kebabCase)).map KeyEntry.value) =
      repeats ((variants.map (keyEntry snakeCase)).map KeyEntry.value) := by
  rw [List.map_map, List.map_map]
  exact repeats_map_eq fun v hv v' hv' =>
    (keysBeside_wireKey (hgiven v hv)).eq_iff (keysBeside_wireKey (hgiven v' hv'))

/-! ## Declarations -/

namespace Declaration

/-- No key that is given in a declaration has a separator, and fields that stand beside each other
all have names or none does. -/
structure GivenUndivided (d : Declaration) : Prop where
  fields : StoredMember.GivenUndivided d.members
  variants : ∀ v ∈ d.variants, ∀ key ∈ v.given, Undivided key
  payloads : ∀ v ∈ d.variants, StoredMember.GivenUndivided v.members

/-- The places that hold a key again under a strategy, scope by scope. -/
def repetitions (s : KeyStrategy) (d : Declaration) : List (List (Nat × Nat)) :=
  (d.entryScopes s).map fun scope => repeats (scope.map KeyEntry.value)

theorem GivenUndivided.repetitions_eq {d : Declaration} (h : d.GivenUndivided) :
    d.repetitions kebabCase = d.repetitions snakeCase := by
  unfold repetitions entryScopes
  split
  · rw [List.map_singleton, List.map_singleton, h.fields.repeats_keyEntries_eq]
  · refine congrArg₂ List.cons (DeclaredVariant.repeats_keyEntry_eq h.variants) ?_
    rw [List.map_map, List.map_map]
    exact List.map_congr_left fun v hv => (h.payloads v hv).repeats_keyEntries_eq _
  · rfl

/-- A name is divided in the same places by hyphens and by underscores: either key is made of the
same pieces, and underscores for the hyphens turn the one into the other.  So the same names have
the same key, and where given keys have no separators, the same keys of a declaration repeat. -/
theorem keys_differ_in_separators_alone :
    (∀ name : String,
      (kebabCase.apply name).toList = pieces '-' none name.toList ∧
      (snakeCase.apply name).toList = pieces '_' none name.toList ∧
      (kebabCase.apply name).map (fun c => if c = '-' then '_' else c) = snakeCase.apply name ∧
      List.Forall₂ Counterparts (kebabCase.apply name).toList (snakeCase.apply name).toList) ∧
    (∀ first second : String, kebabCase.apply first = kebabCase.apply second ↔
      snakeCase.apply first = snakeCase.apply second) ∧
    ∀ d : Declaration, d.GivenUndivided → d.repetitions kebabCase = d.repetitions snakeCase := by
  refine ⟨fun name => ?_, fun first second => ?_, fun d h => h.repetitions_eq⟩
  · have hbeside := keysBeside_apply name
    refine ⟨?_, ?_, hbeside.map_eq, hbeside⟩
    · rw [apply, String.toList_ofList, kebab_eq_pieces]
    · rw [apply, String.toList_ofList, snake_eq_pieces]
  · exact (keysBeside_apply first).eq_iff (keysBeside_apply second)

end Declaration

/-! ## A chart -/

namespace Chart

/-- An enum of variants and fields that are spelled in several ways, one of them under a key. -/
def chart (key : String) : Declaration :=
  .ofItem ⟨[.marker "codable" []], [], .enum [Make.ident "enum"] (Make.ident "Chart") .none
    [⟨[], Make.ident "LineChart", .named
        [Journal.field [] "xAxis" [Make.ident "u8"], Journal.field [] "x_axis" [Make.ident "u8"],
          Journal.field (Drawer.keyed .codedAt key) "width" [Make.ident "u8"]] .made,
        [], Make.op ","⟩,
      ⟨[], Make.ident "Line_Chart", .unit, [], Make.op ","⟩,
      ⟨[], Make.ident "PieChart", .unit, [], Make.op ","⟩] .made⟩

/-- Both spellings of a variant and of a field repeat under either strategy.  A given key with a
hyphen repeats under the one alone that writes hyphens. -/
theorem chart_repetitions_alike : (chart "w").GivenUndivided ∧
    (chart "w").repetitions kebabCase = (chart "w").repetitions snakeCase ∧
    (chart "w").repetitions kebabCase = [[(0, 1)], [(0, 1)], [], []] ∧
    (chart "x-axis").repetitions kebabCase = [[(0, 1)], [(0, 1), (0, 2)], [], []] ∧
    (chart "x-axis").repetitions snakeCase = [[(0, 1)], [(0, 1)], [], []] := by
  have huniform : ∀ v ∈ (chart "w").variants, ∀ m ∈ v.members, ∀ m' ∈ v.members,
      m.named = m'.named := by decide +kernel
  have hgiven : ∀ v ∈ (chart "w").variants, v.given = none ∧
      ∀ m ∈ v.members, ∀ key ∈ m.given, key = "w" := by decide +kernel
  have hletter : Undivided "w" := by decide
  have hundivided : (chart "w").GivenUndivided := by
    refine ⟨⟨nofun, nofun⟩, fun v hv key hkey => ?_, fun v hv => ⟨huniform v hv, ?_⟩⟩
    · rw [(hgiven v hv).1] at hkey
      cases hkey
    · intro m hm key hkey
      rw [(hgiven v hv).2 m hm key hkey]
      exact hletter
  obtain ⟨-, -, hrepetitions⟩ := Declaration.keys_differ_in_separators_alone
  exact ⟨hundivided, hrepetitions _ hundivided, by decide +kernel, by decide +kernel,
    by decide +kernel⟩

end Chart

end KeyedCoding
