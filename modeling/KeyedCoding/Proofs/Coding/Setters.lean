import KeyedCoding.Proofs.Coding.InitializedDecoding

/-!
# Calls of setters

The setters of a struct are called in two ways: by the methods that are generated for them, and on
the schema of the struct, where a setter is looked up among the members and replaces the datum in
its place.  `Initializer.Realizes` says that both do the same, call by call, after a constructor
that makes the same of its arguments.
-/

namespace KeyedCoding

open Attribute

/-! ## Setters of a schema -/

namespace Memberwise

/-- The fields after the call of a setter by its name; nothing if there is none of that name. -/
def call (members : List Member) (fields : List Datum) (c : String × Datum) :
    Option (List Datum) :=
  (settable? members c.1).map fun m => replace m c.2 fields

/-- The fields after calls of setters. -/
def run (members : List Member) (fields : List Datum) (calls : List (String × Datum)) :
    Option (List Datum) :=
  calls.foldlM (call members) fields

/-- A constructor takes as many arguments as there are members that have to be given. -/
theorem length_of_create {members : List Member} {arguments fields : List Datum}
    (h : create members arguments = some fields) :
    arguments.length = (required members).length := by
  induction members generalizing arguments fields with
  | nil =>
      cases arguments with
      | nil => rfl
      | cons => cases h
  | cons m rest ih =>
      cases hpreset : m.preset with
      | some y =>
          rw [create_cons_of_preset hpreset] at h
          obtain ⟨fields, hfields, -⟩ := Option.map_eq_some_iff.mp h
          rw [ih hfields, required, required, List.filter_cons_of_neg (by simp [hpreset])]
      | none =>
          cases arguments with
          | nil => simp [create, hpreset] at h
          | cons x arguments =>
              rw [create_cons_of_required hpreset] at h
              obtain ⟨fields, hfields, -⟩ := Option.map_eq_some_iff.mp h
              rw [List.length_cons, ih hfields, required, required,
                List.filter_cons_of_pos (by simp [hpreset]), List.length_cons]

end Memberwise

/-! ## The same setters in code -/

/-- The members of an item stand where their indices say. -/
theorem Declaration.OfItem.getElem?_index {d : Declaration} (hd : d.OfItem) {m : StoredMember}
    (hm : m ∈ d.members) : d.members[m.index]? = some m := by
  obtain ⟨n, hn⟩ := List.mem_iff_getElem?.mp hm
  have hindex : (d.members.map StoredMember.index)[n]? = some m.index := by
    rw [List.getElem?_map, hn]
    rfl
  have hlt : n < d.members.length := (List.getElem?_eq_some_iff.mp hn).1
  rw [hd.map_index, List.getElem?_range' hlt, Nat.zero_add, Nat.one_mul] at hindex
  rw [← Option.some_inj.mp hindex]
  exact hn

/-- The constructor and the setters of an initializer do what a schema says. -/
structure Initializer.Realizes (i : Initializer) (d : Declaration) (s : Surroundings)
    (members : List Member) : Prop where
  /-- The constructor makes what the schema creates of the same arguments. -/
  created : ∀ e : Evaluation Datum, e.Agrees s d → ∀ arguments : List Datum,
    i.new e arguments =
      (Memberwise.create members arguments).map (d.members.map StoredMember.place).zip
  /-- Setters replace what the setters of the schema replace. -/
  set : ∀ (e : Evaluation Datum) (fields : List Datum) (calls : List (String × Datum)),
    i.run e ((d.members.map StoredMember.place).zip fields) calls =
      (Memberwise.run members fields calls).map (d.members.map StoredMember.place).zip

namespace Initializer

variable {i : Initializer} {d : Declaration} {s : Surroundings} {members : List Member}

/-- A setter of a name belongs to the same member in code and in a schema. -/
theorem setter?_rel (hmade : ofDeclaration d = .ok (some i))
    (hmeans : List.Forall₂ (fun m x => m.Means d.strategy s x) d.members members)
    (setter : String) :
    Option.Rel (fun p x => p.member ∈ d.members ∧ x.index = p.member.index) (i.setter? setter)
      (Memberwise.settable? members setter) := by
  rw [setter?, setters, List.find?_filter]
  refine find?_rel_of_forall₂ ((forall₂_shows hmade hmeans).imp fun p x hp => ?_)
  obtain ⟨⟨hsame, hmem⟩, hx, -⟩ := hp
  refine ⟨⟨hmem, hx.index⟩, ?_⟩
  rw [hx.setter, required_eq_isNone hsame hx, Option.not_isNone, Bool.decide_and, Bool.decide_coe,
    Bool.decide_coe]
  rfl

/-- A call does the same in code and in a schema. -/
theorem Regular.call_zip (h : i.Regular) (hd : d.OfItem) (hmade : ofDeclaration d = .ok (some i))
    (hmeans : List.Forall₂ (fun m x => m.Means d.strategy s x) d.members members)
    (e : Evaluation Datum) (fields : List Datum) (c : String × Datum) :
    i.call e ((d.members.map StoredMember.place).zip fields) c =
      (Memberwise.call members fields c).map (d.members.map StoredMember.place).zip := by
  have hplaces : (d.members.map StoredMember.place).Nodup := by
    rw [← (members_of_ofDeclaration hmade).2.1, List.map_map]
    exact h.places
  have hrel := setter?_rel hmade hmeans c.1
  rw [call_eq, Memberwise.call]
  generalize i.setter? c.1 = found at hrel
  generalize Memberwise.settable? members c.1 = found' at hrel
  cases hrel with
  | none => rfl
  | @some p x hp =>
      obtain ⟨hmem, hindex⟩ := hp
      have hplace : (d.members.map StoredMember.place)[x.index]? = some p.member.place := by
        rw [hindex, List.getElem?_map, hd.getElem?_index hmem]
        rfl
      exact congrArg some (FieldValues.assign_zip hplaces hplace c.2 fields)

theorem Regular.realizes (h : i.Regular) (hd : d.OfItem)
    (hmade : ofDeclaration d = .ok (some i))
    (hmeans : List.Forall₂ (fun m x => m.Means d.strategy s x) d.members members) :
    i.Realizes d s members where
  created := by
    intro e hagrees arguments
    by_cases hlength : arguments.length = (Memberwise.required members).length
    · obtain ⟨fields, hcreate⟩ := exists_create hlength
      rw [hcreate, h.new_eq_create hmade hmeans hagrees hlength hcreate]
      rfl
    · have hidents := congrArg List.length (map_ident_required hmade hmeans)
      rw [List.length_map, List.length_map] at hidents
      have hnone : Memberwise.create members arguments = none := by
        rw [Option.eq_none_iff_forall_ne_some]
        exact fun fields hcreate => hlength (Memberwise.length_of_create hcreate)
      rw [hnone, new_eq_if, if_neg (hidents ▸ hlength)]
      rfl
  set := by
    intro e fields calls
    induction calls generalizing fields with
    | nil => rfl
    | cons c rest ih =>
        rw [run, List.foldlM_cons, h.call_zip hd hmade hmeans, Memberwise.run, List.foldlM_cons]
        cases Memberwise.call members fields c with
        | none => rfl
        | some fields' => exact ih fields'

end Initializer

namespace Declaration

variable {d : Declaration}

/-- The initializer of an accepted struct takes the members without a preset in order, and has a
setter for each of the others.  If members differ in their names, then after any calls of setters
every member holds its argument, what was last passed to its own setter, or its preset; and this is
what the schema of the struct holds after the same calls.  What is run is what is printed. -/
theorem initializer_follows_members (haccepted : d.expand.outcome = .accepted) (hd : d.OfItem)
    (hwritten : d.NamedAsWritten) (hasked : has .memberInit d.attributes = true) :
    ∃ i rest, d.expand.generated = i.tokens :: rest ∧
      Initializer.ofDeclaration d = .ok (some i) ∧ i.Consists i.tokens ∧ i.Lists d ∧
      ((d.members.map StoredMember.name).Nodup → i.Follows d ∧
        ∀ s members, List.Forall₂ (fun m x => m.Means d.strategy s x) d.members members →
          i.Realizes d s members) := by
  have hsound := (accepted_iff.mp haccepted).1
  obtain ⟨i, rest, hgenerated, hmade⟩ := exists_initializer_of_accepted haccepted hd hasked
  have hlists := Initializer.lists_of_ofDeclaration hmade hsound
  refine ⟨i, rest, hgenerated, hmade, i.consists, hlists, fun hdistinct => ?_⟩
  have hregular := Initializer.regular_of_ofDeclaration hmade hd hwritten hdistinct
  exact ⟨hregular.follows (Initializer.members_of_ofDeclaration hmade).2.1,
    fun _ _ hmeans => hregular.realizes hd hmade hmeans⟩

end Declaration

/-! ## A line -/

namespace Line

/-- A struct whose members with and without a preset take turns. -/
def line : Item :=
  ⟨[.marker "member_init" []], [], .struct [Make.ident "struct"] (Make.ident "Line") .none
    (.named [Journal.field [] "name" [Make.ident "String"],
      Journal.field [.marker "initial" [Make.literal "1"],
        .marker "default_value" [Make.literal "3"]] "width" [Make.ident "u8"],
      Journal.field [.marker "initial" [Make.ident "true"]] "open" [Make.ident "bool"],
      Journal.field [] "end" [Make.ident "String"]] .made) []⟩

/-- Values as their text, variables as what is bound to them. -/
def texts : Evaluation String where
  value bound _ code :=
    match code with
    | [.ident name _] => (bound name).getD name
    | _ => code.text
  value_variable bound place name x h := by simp [Make.ident, h]

/-- The constructor takes the first and the last member; of two calls the later one counts, and a
member whose setter is not called holds its preset. -/
theorem line_initialized :
    ∃ (i : Initializer) (rest : List Tokens) (created : FieldValues String),
      (Declaration.ofItem line).expand.generated = i.tokens :: rest ∧
      i.Consists i.tokens ∧ i.Lists (Declaration.ofItem line) ∧
      i.Follows (Declaration.ofItem line) ∧
      i.new texts ["a", "z"] = some created ∧
      created = [(.name "name", "a"), (.name "width", "3"), (.name "open", "true"),
        (.name "end", "z")] ∧
      i.run texts created [("with_width", "5"), ("with_width", "7")] =
        some [(.name "name", "a"), (.name "width", "7"), (.name "open", "true"),
          (.name "end", "z")] := by
  have haccepted : (Declaration.ofItem line).expand.outcome = .accepted := by decide +kernel
  have hitem : (Declaration.ofItem line).OfItem := ⟨line, line.attributes, rfl⟩
  have hparse : Language.parse Language.item .made line.tokens = .ok line := by rfl
  have hwritten := Declaration.namedAsWritten_of_parse hparse
  obtain ⟨i, rest, hgenerated, hmade, hconsists, hlists, hdistinct⟩ :=
    Declaration.initializer_follows_members haccepted hitem hwritten (by decide +kernel)
  obtain ⟨hfollows, -⟩ := hdistinct (by decide +kernel)
  have hcreated : (Initializer.ofDeclaration (Declaration.ofItem line)).toOption.join.map
      (fun i => i.new texts ["a", "z"]) = some (some [(.name "name", "a"), (.name "width", "3"),
        (.name "open", "true"), (.name "end", "z")]) := by decide +kernel
  have hrun : (Initializer.ofDeclaration (Declaration.ofItem line)).toOption.join.map
      (fun i => i.run texts [(.name "name", "a"), (.name "width", "3"), (.name "open", "true"),
        (.name "end", "z")] [("with_width", "5"), ("with_width", "7")]) =
      some (some [(.name "name", "a"), (.name "width", "7"), (.name "open", "true"),
        (.name "end", "z")]) := by decide +kernel
  rw [hmade] at hcreated hrun
  exact ⟨i, rest, _, hgenerated, hconsists, hlists, hfollows, Option.some_inj.mp hcreated, rfl,
    Option.some_inj.mp hrun⟩

end Line

end KeyedCoding
