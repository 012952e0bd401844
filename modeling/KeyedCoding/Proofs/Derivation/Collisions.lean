import KeyedCoding.Proofs.Derivation.WireKeys
import Mathlib.Data.Finset.Card

/-!
# What is reported about keys that are written alike

Keys are compared scope by scope, one entry after the other, with a list of those that came first.
`repeats` says which places of a list hold a text again, and which place held it first, without such
a list.  A declaration that passes its rules and asks for a protocol gets exactly one finding for
each repetition in each of its scopes, in order: an error at the later entry whose text names the
key, both holders of it and the type.  An entry of one scope is never blamed for an entry of
another.
-/

namespace KeyedCoding

open Attribute Diagnostic

/-! ## Repetitions -/

/-- The places that hold a text again, in order, each behind the first place that holds the text. -/
def repeats (texts : List String) : List (Nat × Nat) :=
  texts.zipIdx.filterMap fun (text, place) =>
    if texts.idxOf text < place then some (texts.idxOf text, place) else none

/-- One more text is a repetition exactly if it is there already. -/
theorem repeats_concat (texts : List String) (text : String) :
    repeats (texts ++ [text]) =
      repeats texts ++ if text ∈ texts then [(texts.idxOf text, texts.length)] else [] := by
  have hbefore : texts.zipIdx.filterMap (fun (old, place) =>
      if (texts ++ [text]).idxOf old < place then
        some ((texts ++ [text]).idxOf old, place) else none) = repeats texts := by
    refine List.filterMap_congr fun (old, place) hmem => ?_
    have hold : old ∈ texts := List.fst_mem_of_mem_zipIdx hmem
    simp only [List.idxOf_append_of_mem hold]
  rw [repeats, List.zipIdx_append, List.filterMap_append, hbefore]
  congr 1
  by_cases hmem : text ∈ texts
  · have hlt : texts.idxOf text < texts.length := List.idxOf_lt_length_iff.mpr hmem
    simp [List.idxOf_append_of_mem hmem, hmem, hlt]
  · simp [List.idxOf_append, hmem]

/-- As many places hold a text again as there are more places than different texts. -/
theorem length_repeats (texts : List String) :
    (repeats texts).length + texts.toFinset.card = texts.length := by
  induction texts using List.reverseRecOn with
  | nil => rfl
  | append_singleton texts text ih =>
      have hset : (texts ++ [text]).toFinset = insert text texts.toFinset := by
        ext other
        simp
      rw [repeats_concat, hset, List.length_append, List.length_append]
      by_cases hmem : text ∈ texts
      · have hold : text ∈ texts.toFinset := List.mem_toFinset.mpr hmem
        rw [Finset.insert_eq_of_mem hold]
        simp only [hmem, if_true, List.length_singleton]
        omega
      · have hnew : text ∉ texts.toFinset := fun h => hmem (List.mem_toFinset.mp h)
        rw [Finset.card_insert_of_notMem hnew]
        simp only [hmem, if_false, List.length_nil, List.length_singleton]
        omega

/-- The first place of a text depends only on what is written alike. -/
theorem idxOf_map_eq {α : Type} {f g : α → String} {xs : List α} {x : α}
    (h : ∀ y ∈ xs, f y = f x ↔ g y = g x) : (xs.map f).idxOf (f x) = (xs.map g).idxOf (g x) := by
  induction xs with
  | nil => rfl
  | cons y rest ih =>
      rw [List.forall_mem_cons] at h
      rw [List.map_cons, List.map_cons]
      by_cases hfirst : f y = f x
      · rw [hfirst, h.1.mp hfirst, List.idxOf_cons_self, List.idxOf_cons_self]
      · rw [List.idxOf_cons_ne _ hfirst, List.idxOf_cons_ne _ (mt h.1.mpr hfirst), ih h.2]

/-- Two ways to write the same things have the same repetitions if they write the same things
alike. -/
theorem repeats_map_eq {α : Type} {f g : α → String} {xs : List α}
    (h : ∀ x ∈ xs, ∀ y ∈ xs, f x = f y ↔ g x = g y) :
    repeats (xs.map f) = repeats (xs.map g) := by
  induction xs using List.reverseRecOn with
  | nil => rfl
  | append_singleton xs x ih =>
      have hbefore : ∀ y ∈ xs, f y = f x ↔ g y = g x := fun y hy =>
        h y (List.mem_append_left _ hy) x (by simp)
      have hxs : ∀ y ∈ xs, ∀ z ∈ xs, f y = f z ↔ g y = g z := fun y hy z hz =>
        h y (List.mem_append_left _ hy) z (List.mem_append_left _ hz)
      have hmem : f x ∈ xs.map f ↔ g x ∈ xs.map g := by
        rw [List.mem_map, List.mem_map]
        exact exists_congr fun y => and_congr_right (hbefore y)
      simp only [List.map_append, List.map_singleton, repeats_concat, ih hxs, hmem,
        idxOf_map_eq hbefore, List.length_map]

/-! ## One scope -/

namespace KeyEntry

/-- What is said about an entry whose key an earlier entry has: the key, the member of the entry,
the member of the earlier one, and the type. -/
def collisionText (typeName : String) (first entry : KeyEntry) : String :=
  "coding key \"" ++ entry.value ++ "\" of `" ++ entry.member ++ "` collides with `" ++ first.member
    ++ "` in `" ++ typeName ++ "`"

/-- What is suggested: another key for the member of the entry, by the attribute that gives it
one. -/
def distinctKeyText (entry : KeyEntry) : String :=
  "give `" ++ entry.member ++ "` a distinct key with #[" ++ entry.remap ++ "(\"...\")]"

/-- A collision is an error at the later entry with both texts. -/
theorem collision_eq (typeName : String) (first entry : KeyEntry) :
    collision typeName first entry =
      { severity := .error, message := collisionText typeName first entry, span := entry.span,
        fixIt := some ⟨entry.distinctKeyText, none⟩ } := rfl

end KeyEntry

/-- What one more entry behind those of a scope adds: a finding if some entry has its text, and that
finding names the first such entry. -/
def collisionWith (typeName : String) (scope : List KeyEntry) (entry : KeyEntry) :
    List Diagnostic :=
  match scope.find? fun e => e.value == entry.value with
  | some first => [KeyEntry.collision typeName first entry]
  | none => []

/-- The entries that came first find the same as all entries before. -/
theorem collisionsFrom_concat (typeName : String) (seen rest : List KeyEntry) (entry : KeyEntry) :
    collisionsFrom typeName seen (rest ++ [entry]) =
      collisionsFrom typeName seen rest ++ collisionWith typeName (seen ++ rest) entry := by
  induction rest generalizing seen with
  | nil =>
      have hlast : collisionsFrom typeName seen [entry] = collisionWith typeName seen entry := by
        rw [collisionsFrom, collisionWith]
        cases seen.find? fun e => e.value == entry.value <;> rfl
      rw [List.append_nil]
      exact hlast
  | cons next rest ih =>
      simp only [List.cons_append, collisionsFrom]
      cases hfind : seen.find? fun e => e.value == next.value with
      | some first =>
          -- `next` is not kept, but whatever has its text is found before it anyway.
          have hskip : (seen ++ next :: rest).find? (fun e => e.value == entry.value) =
              (seen ++ rest).find? fun e => e.value == entry.value := by
            rw [List.find?_append, List.find?_append, List.find?_cons]
            by_cases hvalue : next.value = entry.value
            · rw [hvalue] at hfind
              rw [hfind, Option.some_or, Option.some_or]
            · have hne : (next.value == entry.value) = false := beq_eq_false_iff_ne.mpr hvalue
              rw [hne]
          simp only [ih, List.cons_append, collisionWith, hskip]
      | none =>
          simp only [ih, List.append_assoc, List.cons_append, List.nil_append]

theorem collisions_concat (typeName : String) (scope : List KeyEntry) (entry : KeyEntry) :
    collisions typeName (scope ++ [entry]) =
      collisions typeName scope ++ collisionWith typeName scope entry :=
  collisionsFrom_concat typeName [] scope entry

/-- A finding blames the entry at the second place of a scope for the text that the entry at the
first place has already: it is an error at the later entry, in the words for these two entries. -/
def Blames (typeName : String) (scope : List KeyEntry) (places : Nat × Nat)
    (finding : Diagnostic) : Prop :=
  ∃ first entry, scope[places.1]? = some first ∧ scope[places.2]? = some entry ∧
    first.value = entry.value ∧
    finding =
      { severity := .error, message := KeyEntry.collisionText typeName first entry,
        span := entry.span, fixIt := some ⟨entry.distinctKeyText, none⟩ }

theorem Blames.concat {typeName : String} {scope : List KeyEntry} {places : Nat × Nat}
    {finding : Diagnostic} (h : Blames typeName scope places finding) (entry : KeyEntry) :
    Blames typeName (scope ++ [entry]) places finding := by
  obtain ⟨first, later, hfirst, hlater, hblamed⟩ := h
  refine ⟨first, later, ?_, ?_, hblamed⟩
  · rw [List.getElem?_append_left (List.getElem?_eq_some_iff.mp hfirst).1, hfirst]
  · rw [List.getElem?_append_left (List.getElem?_eq_some_iff.mp hlater).1, hlater]

/-- The first entry that has a text stands at the first place of the text. -/
theorem getElem?_idxOf_value {scope : List KeyEntry} {text : String} {first : KeyEntry}
    (h : scope.find? (fun e => e.value == text) = some first) :
    scope[(scope.map KeyEntry.value).idxOf text]? = some first := by
  induction scope with
  | nil => cases h
  | cons e rest ih =>
      rw [List.find?_cons] at h
      by_cases hvalue : e.value = text
      · rw [beq_iff_eq.mpr hvalue] at h
        rw [List.map_cons, hvalue, List.idxOf_cons_self]
        exact h
      · rw [beq_eq_false_iff_ne.mpr hvalue] at h
        rw [List.map_cons, List.idxOf_cons_ne _ hvalue]
        exact ih h

/-- The findings about a scope blame its repetitions, one by one. -/
theorem forall₂_blames_collisions (typeName : String) (scope : List KeyEntry) :
    List.Forall₂ (Blames typeName scope) (repeats (scope.map KeyEntry.value))
      (collisions typeName scope) := by
  induction scope using List.reverseRecOn with
  | nil => exact .nil
  | append_singleton scope entry ih =>
      rw [List.map_append, List.map_singleton, repeats_concat, collisions_concat, collisionWith]
      refine List.rel_append (ih.imp fun _ _ h => h.concat entry) ?_
      cases hfind : scope.find? fun e => e.value == entry.value with
      | none =>
          have hnew : entry.value ∉ scope.map KeyEntry.value := by
            intro hmem
            obtain ⟨e, he, hvalue⟩ := List.mem_map.mp hmem
            exact List.find?_eq_none.mp hfind e he (beq_iff_eq.mpr hvalue)
          rw [if_neg hnew]
          exact .nil
      | some first =>
          have hvalue : first.value = entry.value := by simpa using List.find?_some hfind
          have hold : entry.value ∈ scope.map KeyEntry.value :=
            List.mem_map.mpr ⟨first, List.mem_of_find?_eq_some hfind, hvalue⟩
          have hplace := getElem?_idxOf_value hfind
          have hlt := (List.getElem?_eq_some_iff.mp hplace).1
          rw [if_pos hold]
          refine .cons ⟨first, entry, ?_, ?_, hvalue,
            KeyEntry.collision_eq typeName first entry⟩ .nil
          · rw [List.getElem?_append_left hlt, hplace]
          · simp

/-- What is reported about one scope: its repetitions and nothing else, so as many findings as it
has more entries than different texts. -/
structure ReportsScope (typeName : String) (scope : List KeyEntry) (found : List Diagnostic) :
    Prop where
  blames : List.Forall₂ (Blames typeName scope) (repeats (scope.map KeyEntry.value)) found
  count : found.length + (scope.map KeyEntry.value).toFinset.card = scope.length

theorem reportsScope_collisions (typeName : String) (scope : List KeyEntry) :
    ReportsScope typeName scope (collisions typeName scope) := by
  have hblames := forall₂_blames_collisions typeName scope
  refine ⟨hblames, ?_⟩
  rw [← hblames.length_eq, length_repeats, List.length_map]

/-! ## Declarations -/

namespace Declaration

variable {d : Declaration}

/-- Building the code of a sound declaration that asks for a protocol reports the collisions of its
scopes. -/
theorem Sound.build_diagnostics (h : d.Sound) (hasks : d.AsksForProtocol) (c : Context) :
    (d.build c).2.diagnostics =
      c.diagnostics ++ (d.entryScopes d.strategy).flatMap (collisions d.typeName) := by
  obtain ⟨made, hmade, hbuild⟩ := h.build_diagnostics_of_asks hasks
  rw [hbuild]
  cases made with
  | none =>
      rw [CodedType.entryScopes_eq_nil hmade]
      rfl
  | some t =>
      have hname : d.typeName = t.ident := by
        rw [typeName, CodedType.ident_of_ofDeclaration hmade]
        rfl
      rw [← (CodedType.keys_of_ofDeclaration hmade).1, hname]
      rfl

/-- A declaration that passes its rules and asks for a protocol is reported exactly for the keys
that repeat an earlier one of their scope. -/
theorem repetitions_reported_exactly {d : Declaration} (hpasses : Harmless d.findings)
    (hasks : d.AsksForProtocol) :
    ∃ found : List (List Diagnostic), d.expand.diagnostics = d.findings ++ found.flatten ∧
      List.Forall₂ (ReportsScope d.typeName) (d.entryScopes d.strategy) found := by
  have hsound := harmless_findings_iff.mp hpasses
  have hbuild := hsound.build_diagnostics hasks ⟨0, d.findings⟩
  refine ⟨(d.entryScopes d.strategy).map (collisions d.typeName), ?_, ?_⟩
  · rw [← List.flatMap_def, ← hbuild]
    by_cases hharmless : Harmless (d.build ⟨0, d.findings⟩).2.diagnostics
    · rw [expand_of_harmless hpasses hharmless]
    · rw [expand_of_build_findings hpasses hharmless]
  · rw [List.forall₂_map_right_iff, List.forall₂_same]
    intro scope _
    exact reportsScope_collisions d.typeName scope

end Declaration

/-! ## A drawer -/

namespace Drawer

/-- A field or variant under a key of its own. -/
def keyed (k : Known) (key : String) : List Attribute :=
  [.marker k.name [Make.string key]]

/-- A note with one text under three fields, and a mark under the key of the note. -/
def drawer : Item :=
  ⟨[.marker "codable" []], [], .enum [Make.ident "enum"] (Make.ident "Drawer") .none
    [⟨[], Make.ident "Note", .named
        [Journal.field [] "text" [Make.ident "String"],
          Journal.field (keyed .codedAt "text") "label" [Make.ident "String"],
          Journal.field (keyed .codedAt "Note") "next" [Make.ident "String"],
          Journal.field (keyed .codedAt "text") "last" [Make.ident "String"]] .made,
        [], Make.op ","⟩,
      ⟨keyed .codedAs "Note", Make.ident "Mark", .unit, [], Make.op ","⟩] .made⟩

/-- The mark repeats the note, two fields repeat the first one, and the field under the key of the
note repeats nothing. -/
theorem drawer_reported :
    ((Declaration.ofItem drawer).entryScopes (Declaration.ofItem drawer).strategy).map
        (fun scope => repeats (scope.map KeyEntry.value)) = [[(0, 1)], [(0, 1), (0, 3)], []] ∧
    ∃ found : List (List Diagnostic), (Declaration.ofItem drawer).expand.diagnostics =
        (Declaration.ofItem drawer).findings ++ found.flatten ∧
      List.Forall₂ (ReportsScope (Declaration.ofItem drawer).typeName)
        ((Declaration.ofItem drawer).entryScopes (Declaration.ofItem drawer).strategy) found := by
  have hpasses : Harmless (Declaration.ofItem drawer).findings := by
    unfold Harmless
    decide +kernel
  have hasks : (Declaration.ofItem drawer).AsksForProtocol :=
    ⟨[[Make.ident "Decodable"], [Make.ident "Encodable"]], by rfl, .decode, by decide⟩
  exact ⟨by decide +kernel, Declaration.repetitions_reported_exactly hpasses hasks⟩

end Drawer

end KeyedCoding
