import KeyedCoding.Proofs.Derivation.MarkerOrder

/-!
# The keys of a declaration

Coding makes keys while it reads the options of members and variants, one after the other.  The same
keys can be written down from the declaration alone: `Meta.key?` says which key an attribute gives,
`StoredMember.keyEntry` and `DeclaredVariant.keyEntry` what one member or variant contributes,
`Declaration.entryScopes` which keys stand beside each other, and `Declaration.keyEntries` which
keys the key enum has.  The coded type of a declaration has exactly these.
-/

namespace KeyedCoding

open Attribute

/-! ## Given keys -/

/-- One string literal is all that is read as a string. -/
theorem Language.parse_string_eq_ok_iff {scope : Span} {tokens : Tokens} {t : Token} :
    parse string scope tokens = .ok t ↔
      ∃ text place, LiteralText.kind text = .string ∧ t = .literal text place ∧ tokens = [t] := by
  rw [parse, Parser.run_eq_ok_iff]
  -- the grammar is not used, and its many levels must not be unfolded
  generalize Grammar.enough tokens = g
  match tokens with
  | .literal text place :: rest =>
      have hread : string g ⟨.literal text place :: rest, none⟩ =
          (if LiteralText.kind text = .string then Parser.anyToken
            else Parser.failHere "expected string literal") ⟨.literal text place :: rest, none⟩ :=
        rfl
      rw [hread]
      by_cases hkind : LiteralText.kind text = .string
      · rw [if_pos hkind]
        constructor
        · intro h
          cases h
          exact ⟨text, place, hkind, rfl, rfl⟩
        · rintro ⟨_, _, _, rfl, h⟩
          cases h
          rfl
      · rw [if_neg hkind]
        constructor
        · intro h
          cases h
        · rintro ⟨_, _, hstring, rfl, h⟩
          cases h
          exact absurd hstring hkind
  | [] | .ident _ _ :: _ | .punct _ _ _ :: _ | .group _ _ _ :: _ =>
      constructor
      · intro h; cases h
      · rintro ⟨_, _, _, rfl, h⟩; cases h

/-- The key in the content of an attribute. -/
def Meta.key? : Meta → Option String
  | .list _ _ [.literal text _] _ =>
      if LiteralText.kind text = .string ∧ LiteralText.stringValue text ≠ "" then
        some (LiteralText.stringValue text)
      else none
  | _ => none

theorem Meta.key?_eq_some_iff {content : Meta} {key : String} :
    content.key? = some key ↔ ∃ path d text place span,
      content = .list path d [.literal text place] span ∧ LiteralText.kind text = .string ∧
        LiteralText.stringValue text = key ∧ key ≠ "" := by
  constructor
  · intro h
    unfold key? at h
    split at h
    · split at h
      · next hkept =>
        cases h
        exact ⟨_, _, _, _, _, rfl, hkept.1, rfl, hkept.2⟩
      · cases h
    · cases h
  · rintro ⟨_, _, _, _, _, rfl, hkind, rfl, hne⟩
    exact if_pos ⟨hkind, hne⟩

namespace Attribute

theorem keyArgument_eq_ok_iff {a : Attribute} {key : String} :
    a.keyArgument = .ok key ↔ a.content.key? = some key := by
  rw [keyArgument, bind_eq_ok_iff, Meta.key?_eq_some_iff]
  match hcontent : a.content with
  | .path _ | .nameValue _ _ _ => simp [parseArguments, hcontent]
  | .list p d body span =>
      simp only [parseArguments, hcontent, Language.parse_string_eq_ok_iff]
      constructor
      · rintro ⟨_, ⟨text, place, hkind, rfl, rfl⟩, hkey⟩
        by_cases hempty : LiteralText.stringValue text = ""
        · simp [Token.text, hempty] at hkey
        · simp only [Token.text, String.isEmpty_iff, hempty, if_false] at hkey
          cases hkey
          exact ⟨p, d, text, place, span, rfl, hkind, rfl, hempty⟩
      · rintro ⟨_, _, text, place, _, hlist, hkind, rfl, hne⟩
        cases hlist
        refine ⟨_, ⟨text, place, hkind, rfl, rfl⟩, ?_⟩
        simp [Token.text, String.isEmpty_iff, hne]

theorem toOption_keyArgument (a : Attribute) : a.keyArgument.toOption = a.content.key? := by
  ext key
  rw [← keyArgument_eq_ok_iff]
  cases a.keyArgument <;> simp [Except.toOption]

end Attribute

/-! ## Keys from attributes and names -/

/-- An identifier is its name, with or without the mark. -/
theorem Identifier.eq_unmarked_or_marked (ident : String) :
    ident = unmarked ident ∨ ident = "r#" ++ unmarked ident := by
  unfold unmarked
  split
  · next rest hlist =>
    refine .inr (String.toList_inj.mp ?_)
    rw [hlist, String.toList_append]
    simp
  · exact .inl rfl

namespace StoredMember

/-- The key that an attribute gives to a member. -/
def given (m : StoredMember) : Option String := asked .codedAt keyArgument m.attributes

theorem wireKey_eq_getD (s : KeyStrategy) (m : StoredMember) :
    m.wireKey s = m.given.getD (if m.named then s.apply m.name else m.name) := rfl

/-- The key of a member under a variant of the key enum; a collision is reported where the key is
given, or else at the member. -/
def keyEntry (s : KeyStrategy) (keyVariant : String) (m : StoredMember) : KeyEntry :=
  ⟨keyVariant, m.wireKey s, m.name,
    ((asked .codedAt givenKey m.attributes).map GivenKey.span).getD m.span, Known.codedAt.name⟩

/-- The keys of the members that take part in coding. -/
def keyEntries (s : KeyStrategy) (keyVariant : StoredMember → String)
    (members : List StoredMember) : List KeyEntry :=
  (members.filter fun m => !m.unused).map fun m => m.keyEntry s (keyVariant m)

theorem map_value_keyEntries (s : KeyStrategy) (keyVariant : StoredMember → String)
    (members : List StoredMember) :
    (keyEntries s keyVariant members).map KeyEntry.value = wireKeys s members := by
  rw [keyEntries, List.map_map, wireKeys]
  rfl

end StoredMember

namespace DeclaredVariant

/-- The key that an attribute gives to a variant. -/
def given (v : DeclaredVariant) : Option String := asked .codedAs keyArgument v.attributes

theorem wireKey_eq_getD (s : KeyStrategy) (v : DeclaredVariant) :
    v.wireKey s = v.given.getD (s.apply v.ident) := rfl

/-- The key of a variant. -/
def keyEntry (s : KeyStrategy) (v : DeclaredVariant) : KeyEntry :=
  ⟨v.ident, v.wireKey s, v.ident,
    ((asked .codedAs givenKey v.attributes).map GivenKey.span).getD v.span, Known.codedAs.name⟩

/-- The keys of the members of a variant, under variants that are joined from both names. -/
def memberEntries (s : KeyStrategy) (v : DeclaredVariant) : List KeyEntry :=
  StoredMember.keyEntries s (fun m => Identifier.unmarked v.ident ++ "__" ++ m.name) v.members

end DeclaredVariant

namespace Declaration

/-- The keys that stand beside each other: those of the fields of a struct; those of the variants of
an enum, and then for each variant those of its fields. -/
def entryScopes (s : KeyStrategy) (d : Declaration) : List (List KeyEntry) :=
  match d.ident, d.kind with
  | some _, .struct => [StoredMember.keyEntries s StoredMember.ident d.members]
  | some _, .enum =>
      d.variants.map (DeclaredVariant.keyEntry s) ::
        d.variants.map (DeclaredVariant.memberEntries s)
  | _, _ => []

/-- The keys of the key enum: in an enum those of the fields stand behind that of their variant. -/
def keyEntries (s : KeyStrategy) (d : Declaration) : List KeyEntry :=
  match d.ident, d.kind with
  | some _, .struct => StoredMember.keyEntries s StoredMember.ident d.members
  | some _, .enum => d.variants.flatMap fun v => v.keyEntry s :: v.memberEntries s
  | _, _ => []

end Declaration

/-! ## The keys that coding makes -/

namespace CodedMember

theorem key_of_ofStored {m : StoredMember} {keyVariant : String} {s : KeyStrategy}
    {c : CodedMember} (h : ofStored m keyVariant s = .ok c) : c.key = m.keyEntry s keyVariant := by
  have hvalue := (wireKey_of_ofStored h).1
  obtain ⟨o, ho, h⟩ := bind_eq_ok_iff.mp h
  cases h
  have hkey : o.key = asked .codedAt givenKey m.attributes := by
    rw [MemberOptions.ofAttributes_eq_ok ho]
  simp only [StoredMember.keyEntry, ← hvalue, ← hkey]
  cases o.key <;> rfl

theorem keysOf_eq {s : KeyStrategy} {keyVariant : StoredMember → String}
    {members : List StoredMember} {coded : List CodedMember}
    (h : List.Forall₂ (fun m c => ofStored m (keyVariant m) s = .ok c) members coded) :
    keysOf coded = StoredMember.keyEntries s keyVariant members := by
  induction h with
  | nil => rfl
  | @cons m c members coded hm _ ih =>
      have hkey := key_of_ofStored hm
      have hcoded := (wireKey_of_ofStored hm).2
      simp only [keysOf, StoredMember.keyEntries, List.filter_cons, hcoded] at ih ⊢
      cases m.unused with
      | true => simpa using ih
      | false => simpa [hkey] using ih

end CodedMember

theorem CodedCase.keys_of_ofVariant {v : DeclaredVariant} {s : KeyStrategy} {c : CodedCase}
    (h : ofVariant v s = .ok c) :
    c.key = v.keyEntry s ∧ CodedMember.keysOf c.members = v.memberEntries s := by
  have hvalue := (wireKey_of_ofVariant h).1
  obtain ⟨o, ho, h⟩ := bind_eq_ok_iff.mp h
  obtain ⟨members, hmembers, h⟩ := bind_eq_ok_iff.mp h
  cases h
  refine ⟨?_, CodedMember.keysOf_eq (mapM_eq_ok_iff.mp hmembers)⟩
  have hkey : o.key = asked .codedAs givenKey v.attributes := by
    rw [VariantOptions.ofAttributes_eq_ok ho]
  simp only [DeclaredVariant.keyEntry, ← hvalue, ← hkey]
  cases o.key <;> rfl

namespace CodedType

variable {d : Declaration} {s : KeyStrategy} {t : CodedType}

/-- A coded type has the keys of its declaration, scope by scope and in the order of the enum. -/
theorem keys_of_ofDeclaration (h : ofDeclaration d s = .ok (some t)) :
    t.scopes = d.entryScopes s ∧ t.keys.entries = d.keyEntries s := by
  unfold Declaration.entryScopes Declaration.keyEntries
  rw [ident_of_ofDeclaration h]
  cases hbody : t.body with
  | struct style members =>
      have hkeys := CodedMember.keysOf_eq (forall₂_of_struct h hbody)
      rw [kind_of_struct h hbody]
      simp only [scopes, keys, hbody, hkeys, and_self]
  | enum cases =>
      have hmade := (forall₂_of_enum h hbody).imp fun _ _ => CodedCase.keys_of_ofVariant
      rw [kind_of_enum h hbody]
      simp only [scopes, keys, hbody]
      constructor
      · exact congrArg₂ List.cons (map_eq_map_of_forall₂ (hmade.imp fun _ _ hc => hc.1))
          (map_eq_map_of_forall₂ (hmade.imp fun _ _ hc => hc.2))
      · rw [List.flatMap_def, List.flatMap_def]
        refine congrArg List.flatten (map_eq_map_of_forall₂ (hmade.imp fun v c hc => ?_))
        rw [hc.1, hc.2]

/-- What is not coded has no keys. -/
theorem entryScopes_eq_nil (h : ofDeclaration d s = .ok none) : d.entryScopes s = [] := by
  unfold Declaration.entryScopes
  split
  · next hident hkind =>
    simp only [ofDeclaration, hident, hkind] at h
    obtain ⟨_, _, h⟩ := bind_eq_ok_iff.mp h
    cases h
  · next hident hkind =>
    simp only [ofDeclaration, hident, hkind] at h
    obtain ⟨_, _, h⟩ := bind_eq_ok_iff.mp h
    cases h
  · rfl

end CodedType

end KeyedCoding
