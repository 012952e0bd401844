import KeyedCoding.Proofs.Derivation.Collisions
import KeyedCoding.Proofs.Derivation.KeyNames

/-!
# Marks of raw identifiers on the wire

A name may be written with the mark of a raw identifier or without it.  Fields lose the mark before
a strategy sees their names, on structs and on variants alike; the name of a variant goes to the
strategy with its mark.  Every strategy lets the two characters of the mark through, so the mark of
a variant without a given key shows on the wire, and no other mark does: declarations that differ in
marks alone have the same keys exactly if such variants are marked alike.

`Declaration.SameUpToMarks` says when declarations differ in marks alone.  A mark moves whatever
stands behind it, so attributes are compared without the places of their tokens.
-/

namespace KeyedCoding

open Attribute

/-! ## Attributes without places -/

namespace Token

mutual

/-- The token without the places it comes from. -/
def unplaced : Token → Token
  | ident name _ => .ident name .made
  | punct c joint _ => .punct c joint .made
  | literal text _ => .literal text .made
  | group d body _ => .group d (unplacedAll body) .made

/-- The tokens without the places they come from. -/
def unplacedAll : List Token → List Token
  | [] => []
  | t :: rest => unplaced t :: unplacedAll rest

end

end Token

/-- The content of an attribute without places. -/
def Meta.unplaced : Meta → Meta
  | .path p => .path (Token.unplacedAll p)
  | .list p d body _ => .list (Token.unplacedAll p) d (Token.unplacedAll body) .made
  | .nameValue p equals value =>
      .nameValue (Token.unplacedAll p) (Token.unplacedAll equals)
        { value with tokens := Token.unplacedAll value.tokens }

theorem Meta.key?_unplaced (content : Meta) : content.unplaced.key? = content.key? := by
  match content with
  | .path _ | .nameValue _ _ _ => rfl
  | .list _ _ [] _ | .list _ _ [.ident _ _] _ | .list _ _ [.punct _ _ _] _
  | .list _ _ [.literal _ _] _ | .list _ _ [.group _ _ _] _ => rfl
  | .list _ _ (t :: _ :: _) _ => cases t <;> rfl

namespace Attribute

/-- An attribute without places. -/
def unplaced (a : Attribute) : Attribute :=
  ⟨a.inner, Token.unplacedAll a.marks, a.content.unplaced, .made⟩

/-- Attributes that differ in their places alone. -/
def SameUpToPlaces (attributes attributes' : List Attribute) : Prop :=
  attributes.map unplaced = attributes'.map unplaced

theorem isNamed_unplaced (a : Attribute) (name : String) :
    a.unplaced.isNamed name = a.isNamed name := by
  have hpath : a.unplaced.path = Token.unplacedAll a.path := by
    unfold unplaced path
    cases a.content <;> rfl
  unfold isNamed
  rw [hpath]
  match a.path with
  | [] | [.ident _ _] | [.punct _ _ _] | [.literal _ _] | [.group _ _ _] => rfl
  | t :: _ :: _ => cases t <;> rfl

theorem asks_unplaced (k : Known) (a : Attribute) :
    asks k keyArgument a.unplaced = asks k keyArgument a := by
  unfold asks
  rw [isNamed_unplaced, toOption_keyArgument, toOption_keyArgument, unplaced, Meta.key?_unplaced]

theorem asked_eq_of_sameUpToPlaces {attributes attributes' : List Attribute}
    (h : SameUpToPlaces attributes attributes') (k : Known) :
    asked k keyArgument attributes = asked k keyArgument attributes' := by
  have hasked : ∀ as : List Attribute, asked k keyArgument (as.map unplaced) =
      asked k keyArgument as := by
    intro as
    have hcomp : asks k keyArgument ∘ unplaced = asks k keyArgument := funext (asks_unplaced k)
    rw [asked, ← List.map_reverse, List.findSome?_map, hcomp, asked]
  rw [← hasked attributes, h, hasked]

theorem has_eq_of_sameUpToPlaces {attributes attributes' : List Attribute}
    (h : SameUpToPlaces attributes attributes') (k : Known) :
    has k attributes = has k attributes' := by
  have hhas : ∀ as : List Attribute, has k (as.map unplaced) = has k as := by
    intro as
    simp only [has, List.any_map, Function.comp_def, isNamed_unplaced]
  rw [← hhas attributes, h, hhas]

end Attribute

/-! ## Marks under a strategy -/

/-- How long text is in lower case does not depend on what stands before it. -/
theorem CaseMapping.length_lowerFrom (before before' cs : List Char) :
    (lowerFrom before cs).length = (lowerFrom before' cs).length := by
  induction cs generalizing before before' with
  | nil => rfl
  | cons c rest ih =>
      simp only [lowerFrom, List.length_append]
      rw [ih (c :: before) (c :: before')]
      -- only the form of a sigma depends on its surroundings, and both forms are one character
      split
      · split <;> split <;> rfl
      · rfl

namespace KeyStrategy

theorem length_joinWords (raise : Bool) (cs : List Char) :
    (joinWords raise cs).length = cs.countP fun c => !isSeparator c := by
  induction cs generalizing raise with
  | nil => rfl
  | cons c rest ih =>
      rw [joinWords, List.countP_cons]
      cases isSeparator c <;> simp [ih]

/-- Words that are run together keep every character but the separators. -/
theorem length_camel (first : Char → Char) (cs : List Char) :
    (camel first cs).length = cs.countP fun c => !isSeparator c := by
  induction cs with
  | nil => rfl
  | cons c rest ih =>
      cases hc : isSeparator c with
      | true =>
          have hskip : camel first (c :: rest) = camel first rest := by
            simp [camel, hc]
          simp [hskip, ih, hc]
      | false => simp [camel, length_joinWords, hc]

/-- A mark does not change how the name behind it is divided. -/
theorem divideWords_marked {other : Char} (hr : other ≠ 'r') (hhash : other ≠ '#') (mark : Char)
    (cs : List Char) :
    divideWords other mark false ('r' :: '#' :: cs) =
      'r' :: '#' :: divideWords other mark false cs := by
  have hupper : 'r'.isUpper = false ∧ '#'.isUpper = false := by decide
  have hends : endsWord '#' = false := by decide
  simp [divideWords, hr.symm, hhash.symm, hupper, hends]

/-- Every strategy lets both characters of a mark through. -/
theorem length_apply_marked (s : KeyStrategy) (name : String) :
    (s.apply ("r#" ++ name)).length = (s.apply name).length + 2 := by
  have hlist : ("r#" ++ name).toList = 'r' :: '#' :: name.toList := String.toList_append
  cases s with
  | verbatim =>
      simp only [apply, ← String.length_toList, hlist, List.length_cons]
  | camelCase | pascalCase =>
      have hkept : isSeparator 'r' = false ∧ isSeparator '#' = false := by decide
      simp [apply, hlist, length_camel, hkept]
  | snakeCase | screamingSnakeCase =>
      have hsnake : snake ('r' :: '#' :: name.toList) = 'r' :: '#' :: snake name.toList :=
        divideWords_marked (by decide) (by decide) '_' name.toList
      simp only [apply, hlist, hsnake, String.length_ofList, List.length_map, List.length_cons]
  | kebabCase =>
      have hkebab : kebab ('r' :: '#' :: name.toList) = 'r' :: '#' :: kebab name.toList :=
        divideWords_marked (by decide) (by decide) '-' name.toList
      simp only [apply, hlist, hkebab, String.length_ofList, List.length_cons]
  | lowercase =>
      have hlower : CaseMapping.lowerFrom [] ('r' :: '#' :: name.toList) =
          'r' :: '#' :: CaseMapping.lowerFrom ['#', 'r'] name.toList := rfl
      have hlength := CaseMapping.length_lowerFrom ['#', 'r'] [] name.toList
      simp only [apply, CaseMapping.lower, hlist, hlower, String.length_ofList, List.length_cons,
        hlength]
  | uppercase =>
      have hupper : ('r' :: '#' :: name.toList).flatMap CaseMapping.upperChar =
          'R' :: '#' :: name.toList.flatMap CaseMapping.upperChar := rfl
      simp only [apply, CaseMapping.upper, hlist, hupper, String.length_ofList, List.length_cons]

theorem apply_marked_ne (s : KeyStrategy) (name : String) :
    s.apply ("r#" ++ name) ≠ s.apply name := by
  intro h
  have hlength := s.length_apply_marked name
  rw [h] at hlength
  omega

/-- Names that differ in their marks alone have the same key only if they are marked alike. -/
theorem apply_eq_iff_of_unmarked {ident ident' : String}
    (h : Identifier.unmarked ident = Identifier.unmarked ident') (s : KeyStrategy) :
    s.apply ident = s.apply ident' ↔ ident = ident' := by
  refine ⟨fun hkey => ?_, congrArg s.apply⟩
  obtain hplain | hmarked := Identifier.eq_unmarked_or_marked ident <;>
    obtain hplain' | hmarked' := Identifier.eq_unmarked_or_marked ident'
  · rw [hplain, hplain', h]
  -- where one of them is marked, its key is longer
  · rw [hplain, hmarked', h] at hkey
    exact absurd hkey.symm (s.apply_marked_ne _)
  · rw [hmarked, hplain', h] at hkey
    exact absurd hkey (s.apply_marked_ne _)
  · rw [hmarked, hmarked', h]

end KeyStrategy

/-! ## Members and variants that differ in marks -/

namespace StoredMember

/-- The name of a member may be marked in one place and not in the other. -/
structure SameUpToMark (m m' : StoredMember) : Prop where
  name : m.name = m'.name
  named : m.named = m'.named
  attributes : SameUpToPlaces m.attributes m'.attributes

theorem SameUpToMark.wireKey_eq {m m' : StoredMember} (h : m.SameUpToMark m') (s : KeyStrategy) :
    m.wireKey s = m'.wireKey s := by
  rw [wireKey, wireKey, h.name, h.named, asked_eq_of_sameUpToPlaces h.attributes]

theorem SameUpToMark.unused_eq {m m' : StoredMember} (h : m.SameUpToMark m') :
    m.unused = m'.unused := by
  simp only [unused, has_eq_of_sameUpToPlaces h.attributes]

/-- No mark of a field shows. -/
theorem wireKeys_eq_of_sameUpToMark {members members' : List StoredMember}
    (h : List.Forall₂ SameUpToMark members members') (s : KeyStrategy) :
    wireKeys s members = wireKeys s members' := by
  induction h with
  | nil => rfl
  | @cons m m' members members' hm _ ih =>
      simp only [wireKeys, List.filter_cons, hm.unused_eq] at ih ⊢
      cases m'.unused with
      | true => simpa using ih
      | false => simpa [hm.wireKey_eq s] using ih

/-- The key of a member at a place: the one it is given, or its name without a mark as the strategy
writes it, or its place behind an underscore. -/
def plainKey (s : KeyStrategy) (place : Nat) (m : StoredMember) : String :=
  m.given.getD (if m.named then s.apply (Identifier.unmarked m.ident) else "_" ++ toString place)

/-- The keys of the members that take part in coding, in the order of the members. -/
def plainKeys (s : KeyStrategy) (members : List StoredMember) : List String :=
  (members.zipIdx.filter fun (m, _) => !m.unused).map fun (m, place) => m.plainKey s place

theorem wireKey_ofField (s : KeyStrategy) (place : Nat) (f : Field) :
    (ofField place f).wireKey s = (ofField place f).plainKey s place := by
  have hplace : Identifier.unmarked ("_" ++ toString place) = "_" ++ toString place := by
    unfold Identifier.unmarked
    split
    · next h => simp [String.toList_append] at h
    · rfl
  unfold wireKey plainKey
  cases hname : f.name with
  | some t => simp [ofField, hname, given, name]
  | none => simp only [ofField, hname, given, name, hplace, Option.isSome_none]

/-- Every field has the key of its name or place. -/
theorem wireKeys_ofFields (s : KeyStrategy) (fields : List Field) :
    wireKeys s (ofFields 0 fields) = plainKeys s (ofFields 0 fields) := by
  -- places count on along the fields, so the induction is about fields from any place on
  have hfrom : ∀ first, wireKeys s (ofFields first fields) =
      (((ofFields first fields).zipIdx first).filter fun (m, _) => !m.unused).map
        fun (m, place) => m.plainKey s place := by
    induction fields with
    | nil => exact fun _ => rfl
    | cons f rest ih =>
        intro first
        have hrest := ih (first + 1)
        simp only [wireKeys, ofFields, List.zipIdx_cons, List.filter_cons] at hrest ⊢
        cases (ofField first f).unused with
        | true => simpa using hrest
        | false => simpa [wireKey_ofField] using hrest
  exact hfrom 0

end StoredMember

namespace DeclaredVariant

/-- The names of a variant and of its members may be marked in one place and not in the other. -/
structure SameUpToMarks (v v' : DeclaredVariant) : Prop where
  name : v.name = v'.name
  attributes : SameUpToPlaces v.attributes v'.attributes
  members : List.Forall₂ StoredMember.SameUpToMark v.members v'.members

/-- A variant without a given key is marked in both places or in neither. -/
def MarkedAlike (v v' : DeclaredVariant) : Prop := v.given = none → v.ident = v'.ident

/-- The key of a variant without a given one shows its mark. -/
theorem SameUpToMarks.wireKey_eq_iff {v v' : DeclaredVariant} (h : v.SameUpToMarks v')
    (s : KeyStrategy) : v.wireKey s = v'.wireKey s ↔ v.MarkedAlike v' := by
  have hgiven : v.given = v'.given := asked_eq_of_sameUpToPlaces h.attributes .codedAs
  have hkey := s.apply_eq_iff_of_unmarked h.name
  rw [wireKey_eq_getD, wireKey_eq_getD, ← hgiven, MarkedAlike]
  cases v.given with
  | some key => simp
  | none => simpa using hkey

/-- A variant has the key of its name exactly if there is no mark to show. -/
theorem wireKey_eq_plain_iff (s : KeyStrategy) (v : DeclaredVariant) :
    v.wireKey s = v.given.getD (s.apply v.name) ↔ (v.given = none → v.ident = v.name) := by
  rw [wireKey_eq_getD]
  cases v.given with
  | some key => simp
  | none =>
      have hname : v.name = Identifier.unmarked v.ident := rfl
      simp only [Option.getD_none, forall_const]
      refine ⟨fun hkey => ?_, congrArg s.apply⟩
      obtain hplain | hmarked := Identifier.eq_unmarked_or_marked v.ident
      · exact hplain
      · rw [hmarked, ← hname] at hkey
        exact absurd hkey (s.apply_marked_ne _)

end DeclaredVariant

/-! ## Declarations that differ in marks -/

/-- The texts of the keys of a coded type, scope by scope. -/
def CodedType.scopeTexts (t : CodedType) : List (List String) :=
  t.scopes.map (List.map KeyEntry.value)

namespace Declaration

/-- Declarations whose keys are made from the same, but for marks: they agree in their kind, in the
names of their fields and variants, and in the attributes there. -/
structure SameUpToMarks (d d' : Declaration) : Prop where
  kind : d.kind = d'.kind
  members : List.Forall₂ StoredMember.SameUpToMark d.members d'.members
  variants : List.Forall₂ DeclaredVariant.SameUpToMarks d.variants d'.variants

/-- All variants without a given key are marked alike. -/
def MarkedAlike (d d' : Declaration) : Prop :=
  List.Forall₂ DeclaredVariant.MarkedAlike d.variants d'.variants

/-- The texts of the keys, scope by scope: fields go without their marks, variants do not. -/
def markedTexts (s : KeyStrategy) (d : Declaration) : List (List String) :=
  match d.kind with
  | .struct => [StoredMember.plainKeys s d.members]
  | .enum =>
      d.variants.map (fun v => v.given.getD (s.apply v.ident)) ::
        d.variants.map fun v => StoredMember.plainKeys s v.members
  | _ => []

variable {d d' : Declaration} {s : KeyStrategy} {t t' : CodedType}

/-- The texts of the keys of what is coded: those of a struct, or those of an enum. -/
theorem texts_of_ofDeclaration (h : CodedType.ofDeclaration d s = .ok (some t)) :
    d.kind = .struct ∧ t.scopeTexts = [StoredMember.wireKeys s d.members] ∧
        t.keys.entries.map KeyEntry.value = StoredMember.wireKeys s d.members ∨
    d.kind = .enum ∧
        t.scopeTexts = d.variants.map (DeclaredVariant.wireKey s) ::
          d.variants.map (fun v => StoredMember.wireKeys s v.members) ∧
        t.keys.entries.map KeyEntry.value =
          d.variants.flatMap fun v => v.wireKey s :: StoredMember.wireKeys s v.members := by
  obtain ⟨hscopes, hentries⟩ := CodedType.keys_of_ofDeclaration h
  have hident := CodedType.ident_of_ofDeclaration h
  rw [CodedType.scopeTexts, hscopes, hentries, entryScopes, keyEntries, hident]
  cases hbody : t.body with
  | struct style members =>
      rw [CodedType.kind_of_struct h hbody]
      simp [StoredMember.map_value_keyEntries]
  | enum cases =>
      rw [CodedType.kind_of_enum h hbody]
      refine .inr ⟨rfl, ?_, ?_⟩
      · simp [DeclaredVariant.keyEntry, DeclaredVariant.memberEntries,
          StoredMember.map_value_keyEntries, Function.comp_def]
      · simp [DeclaredVariant.keyEntry, DeclaredVariant.memberEntries,
          StoredMember.map_value_keyEntries, List.map_flatMap]

/-- Every list of members comes from a list of fields, and a struct has no variants. -/
theorem shape_ofItem (item : Item) :
    (∃ fields, (ofItem item).members = StoredMember.ofFields 0 fields) ∧
    (∃ variants, (ofItem item).variants = List.map DeclaredVariant.ofVariant variants) ∧
    ((ofItem item).kind = .struct → (ofItem item).variants = []) := by
  unfold ofItem
  split
  · exact ⟨⟨_, rfl⟩, ⟨[], rfl⟩, fun _ => rfl⟩
  · exact ⟨⟨[], rfl⟩, ⟨_, rfl⟩, nofun⟩
  · exact ⟨⟨_, rfl⟩, ⟨[], rfl⟩, fun _ => rfl⟩
  · exact ⟨⟨[], rfl⟩, ⟨[], rfl⟩, fun _ => rfl⟩

/-- Fields of items go without their marks. -/
theorem scopeTexts_ofItem {item : Item}
    (h : CodedType.ofDeclaration (ofItem item) s = .ok (some t)) :
    t.scopeTexts = (ofItem item).markedTexts s := by
  obtain ⟨⟨fields, hfields⟩, ⟨variants, hvariants⟩, -⟩ := shape_ofItem item
  obtain ⟨hkind, hscopes, -⟩ | ⟨hkind, hscopes, -⟩ := texts_of_ofDeclaration h
  · rw [hscopes, markedTexts, hkind, hfields, StoredMember.wireKeys_ofFields]
  · have hplain : ∀ v ∈ (ofItem item).variants,
        StoredMember.wireKeys s v.members = StoredMember.plainKeys s v.members := by
      intro v hv
      rw [hvariants, List.mem_map] at hv
      obtain ⟨variant, -, rfl⟩ := hv
      exact StoredMember.wireKeys_ofFields s variant.fields.toList
    rw [hscopes, markedTexts, hkind]
    exact congrArg (List.cons _) (List.map_congr_left hplain)

/-- The keys of variants are the same exactly if the variants are marked alike, with the keys of
their fields between them or without. -/
theorem variantTexts_eq_iff {variants variants' : List DeclaredVariant}
    (h : List.Forall₂ DeclaredVariant.SameUpToMarks variants variants') (s : KeyStrategy) :
    ((variants.flatMap fun v => v.wireKey s :: StoredMember.wireKeys s v.members) =
        (variants'.flatMap fun v => v.wireKey s :: StoredMember.wireKeys s v.members) ↔
      List.Forall₂ DeclaredVariant.MarkedAlike variants variants') ∧
    (variants.map (DeclaredVariant.wireKey s) = variants'.map (DeclaredVariant.wireKey s) ↔
      List.Forall₂ DeclaredVariant.MarkedAlike variants variants') := by
  induction h with
  | nil => simp
  | @cons v v' variants variants' hv _ ih =>
      obtain ⟨hall, hvariants⟩ := ih
      have hmembers := StoredMember.wireKeys_eq_of_sameUpToMark hv.members s
      rw [List.forall₂_cons, ← hv.wireKey_eq_iff s]
      constructor
      · -- the keys of the fields are the same block in both lists and cancel
        rw [← hall, List.flatMap_cons, List.flatMap_cons, List.cons_append, List.cons_append,
          List.cons.injEq, hmembers, List.append_cancel_left_eq]
      · rw [← hvariants, List.map_cons, List.map_cons, List.cons.injEq]

/-- Marks on fields never show, and marks on variants show unless a key is given.  So the texts of
all keys are the same exactly if the variants without a given key are marked alike. -/
theorem marks_show_on_variants_alone {item item' : Item} {s : KeyStrategy} {t t' : CodedType}
    (h : CodedType.ofDeclaration (ofItem item) s = .ok (some t))
    (h' : CodedType.ofDeclaration (ofItem item') s = .ok (some t'))
    (hsame : (ofItem item).SameUpToMarks (ofItem item')) :
    t.scopeTexts = (ofItem item).markedTexts s ∧
    (∀ v ∈ (ofItem item).variants,
      v.wireKey s = v.given.getD (s.apply v.name) ↔ (v.given = none → v.ident = v.name)) ∧
    (t.keys.entries.map KeyEntry.value = t'.keys.entries.map KeyEntry.value ↔
      (ofItem item).MarkedAlike (ofItem item')) ∧
    ((ofItem item).MarkedAlike (ofItem item') →
      t.scopeTexts.map repeats = t'.scopeTexts.map repeats) ∧
    t.scopeTexts.tail = t'.scopeTexts.tail := by
  refine ⟨scopeTexts_ofItem h, fun v _ => v.wireKey_eq_plain_iff s, ?_⟩
  have hmembers := StoredMember.wireKeys_eq_of_sameUpToMark hsame.members s
  have hpayloads : (ofItem item').variants.map (fun v => StoredMember.wireKeys s v.members) =
      (ofItem item).variants.map (fun v => StoredMember.wireKeys s v.members) :=
    map_eq_map_of_forall₂ (hsame.variants.imp fun _ _ hv =>
      (StoredMember.wireKeys_eq_of_sameUpToMark hv.members s).symm)
  obtain ⟨hall, hvariants⟩ := variantTexts_eq_iff hsame.variants s
  obtain ⟨hkind, hscopes, hentries⟩ | ⟨hkind, hscopes, hentries⟩ := texts_of_ofDeclaration h <;>
    obtain ⟨hkind', hscopes', hentries'⟩ | ⟨hkind', hscopes', hentries'⟩ :=
      texts_of_ofDeclaration h'
  · -- without variants there is nothing to mark differently
    have halike : (ofItem item).MarkedAlike (ofItem item') := by
      rw [MarkedAlike, (shape_ofItem item).2.2 hkind, (shape_ofItem item').2.2 hkind']
      exact .nil
    rw [hscopes, hscopes', hentries, hentries', hmembers]
    exact ⟨iff_of_true rfl halike, fun _ => rfl, rfl⟩
  · exact absurd (hkind.symm.trans (hsame.kind.trans hkind')) (by decide)
  · exact absurd (hkind.symm.trans (hsame.kind.trans hkind')) (by decide)
  · rw [hscopes, hscopes', hentries, hentries', hpayloads]
    exact ⟨hall, fun halike => by rw [hvariants.mpr halike], rfl⟩

end Declaration

/-! ## A label -/

namespace Label

/-- An enum whose first variant and its field have a mark before their names. -/
def label (mark : String) (first second : List Attribute) : Item :=
  ⟨[.marker "codable" []], [], .enum [Make.ident "enum"] (Make.ident "Label") .none
    [⟨first, Make.ident (mark ++ "Note"), .named
        [Journal.field [] (mark ++ "text") [Make.ident "String"]] .made, [], Make.op ","⟩,
      ⟨second, Make.ident "Mark", .unit, [], Make.op ","⟩] .made⟩

theorem sameUpToMarks_label (first second : List Attribute) :
    (Declaration.ofItem (label "r#" first second)).SameUpToMarks
      (Declaration.ofItem (label "" first second)) := by
  have hvariant : Identifier.unmarked ("r#" ++ "Note") = Identifier.unmarked ("" ++ "Note") := by
    decide
  have hfield : Identifier.unmarked ("r#" ++ "text") = Identifier.unmarked ("" ++ "text") := by
    decide
  exact ⟨rfl, .nil, .cons ⟨hvariant, rfl, .cons ⟨hfield, rfl, rfl⟩ .nil⟩
    (.cons ⟨rfl, rfl, .nil⟩ .nil)⟩

/-- A label whose marked variant is given a key. -/
def keyed (mark : String) : Declaration :=
  .ofItem (label mark (Drawer.keyed .codedAs "note") [])

/-- With a given key the mark of the variant does not show, nor does that of the field. -/
theorem texts_keyed_alike : ∃ t t',
    (keyed "r#").codedType? = some t ∧ (keyed "").codedType? = some t' ∧
    t.keys.entries.map KeyEntry.value = ["note", "text", "Mark"] ∧
    t.keys.entries.map KeyEntry.value = t'.keys.entries.map KeyEntry.value ∧
    t.scopeTexts.map repeats = t'.scopeTexts.map repeats := by
  have hvalues : (keyed "r#").codedType?.map (fun t => t.keys.entries.map KeyEntry.value) =
      some ["note", "text", "Mark"] := by decide +kernel
  have hplain : (keyed "").codedType?.isSome = true := by decide +kernel
  obtain ⟨t, ht, hvalues⟩ := Option.map_eq_some_iff.mp hvalues
  obtain ⟨t', ht'⟩ := Option.isSome_iff_exists.mp hplain
  have hcoded := Declaration.ofDeclaration_of_codedType? ht
  have hcoded' : CodedType.ofDeclaration (keyed "") (keyed "r#").strategy = .ok (some t') :=
    Declaration.ofDeclaration_of_codedType? ht'
  have hgiven : ∀ v ∈ (keyed "r#").variants.head?, v.given ≠ none := by decide +kernel
  have halike : (keyed "r#").MarkedAlike (keyed "") :=
    .cons (fun hnone => absurd hnone (hgiven _ rfl)) (.cons (fun _ => rfl) .nil)
  obtain ⟨-, -, htexts, hrepeats, -⟩ :=
    Declaration.marks_show_on_variants_alone hcoded hcoded' (sameUpToMarks_label _ _)
  exact ⟨t, t', ht, ht', hvalues, htexts.mpr halike, hrepeats halike⟩

/-- A label whose other variant is given the name of the marked one as its key. -/
def crossed (mark : String) : Declaration :=
  .ofItem (label mark [] (Drawer.keyed .codedAs "Note"))

/-- Without a given key the mark shows, and hides a collision that refuses the enum without it. -/
theorem texts_crossed_differ : (crossed "r#").SameUpToMarks (crossed "") ∧
    (crossed "r#").codedType?.map CodedType.scopeTexts =
      some [["r#Note", "Note"], ["text"], []] ∧
    (crossed "").codedType?.map CodedType.scopeTexts = some [["Note", "Note"], ["text"], []] ∧
    (crossed "r#").expand.outcome = .accepted ∧ (crossed "").expand.outcome = .rejected :=
  ⟨sameUpToMarks_label _ _, by decide +kernel, by decide +kernel, by decide +kernel,
    by decide +kernel⟩

end Label

end KeyedCoding
