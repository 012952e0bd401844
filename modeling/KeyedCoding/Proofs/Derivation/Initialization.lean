import KeyedCoding.Proofs.Derivation.Scoping
import KeyedCoding.Proofs.Source.Fields

/-!
# What an initializer does

The constructor and the setters of an initializer are run here: `Initializer.new` makes a value of
arguments, and `Initializer.call` looks a setter up by its name and calls it.

What a constructed value holds is a function of its members: the arguments in their order for those
that the constructor takes, and for every other member what was last passed to its own setter, or
else its default.
-/

namespace KeyedCoding

open Attribute

/-! ## Running an initializer -/

namespace Initializer

variable {α : Type}

/-- What the arguments of the constructor are bound to. -/
def bound (i : Initializer) (arguments : List α) : String → Option α :=
  i.constructorMethod.bound arguments

/-- The fields of a new struct; nothing if the arguments are too few or too many. -/
def new (i : Initializer) (e : Evaluation α) (arguments : List α) : Option (FieldValues α) :=
  i.constructorMethod.run e arguments

/-- The fields after the call of a setter by its name; nothing if there is none of that name. -/
def call (i : Initializer) (e : Evaluation α) (fields : FieldValues α) (c : String × α) :
    Option (FieldValues α) :=
  (i.setterMethods.find? fun m => m.name == c.1).map fun m => m.run e fields c.2

/-- The fields after calls of setters. -/
def run (i : Initializer) (e : Evaluation α) (fields : FieldValues α)
    (calls : List (String × α)) : Option (FieldValues α) :=
  calls.foldlM (i.call e) fields

/-- What was passed to a setter last. -/
def lastPassed (setter : String) (calls : List (String × α)) : Option α :=
  calls.reverse.lookup setter

/-- The setter of a name, if there is one. -/
def setter? (i : Initializer) (name : String) : Option InitParameter :=
  i.setters.find? fun p => p.setter == name

/-- A call of a setter is an assignment to the field of its member. -/
theorem call_eq (i : Initializer) (e : Evaluation α) (fields : FieldValues α)
    (c : String × α) :
    i.call e fields c = (i.setter? c.1).map fun p => fields.assign p.member.place c.2 := by
  rw [call, setterMethods, List.find?_map, Option.map_map]
  exact congrArg (Option.map · _) (funext fun p => SetterMethod.run_of_parameter rfl e fields c.2)

theorem map_fst_parameters (i : Initializer) :
    i.constructorMethod.parameters.map Prod.fst = i.taken.map fun p => p.member.ident :=
  List.map_map

theorem bound_eq_lookup (i : Initializer) (arguments : List α) (name : String) :
    i.bound arguments name = ((i.taken.map fun p => p.member.ident).zip arguments).lookup name := by
  rw [bound, ConstructorMethod.bound, map_fst_parameters]

theorem new_eq_if (i : Initializer) (e : Evaluation α) (arguments : List α) :
    i.new e arguments = if arguments.length = i.taken.length then
      some (i.literal.filled.map fun (place, code) =>
        (place, e.value (i.bound arguments) place code))
    else none := by
  have hlength : i.constructorMethod.parameters.length = i.taken.length := List.length_map _
  rw [new, ConstructorMethod.run, hlength]
  rfl

end Initializer

/-! ## Fields in order -/

namespace StoredMember

theorem map_index_ofFields (n : Nat) (fields : List Field) :
    (ofFields n fields).map index = List.range' n (ofFields n fields).length := by
  induction fields generalizing n with
  | nil => rfl
  | cons f rest ih =>
      rw [ofFields, List.map_cons, ih, List.length_cons, List.range'_succ]
      rfl

end StoredMember

namespace Declaration

variable {d : Declaration}

/-- The members of an item are numbered in order. -/
theorem OfItem.map_index (h : d.OfItem) :
    d.members.map StoredMember.index = List.range' 0 d.members.length := by
  obtain ⟨item, attributes, rfl⟩ := h
  unfold ofItem
  split
  · exact StoredMember.map_index_ofFields 0 _
  · rfl
  · exact StoredMember.map_index_ofFields 0 _
  · rfl

/-- So are the members of each variant. -/
theorem OfItem.map_index_of_variant (h : d.OfItem) :
    ∀ v ∈ d.variants, v.members.map StoredMember.index = List.range' 0 v.members.length := by
  obtain ⟨item, attributes, rfl⟩ := h
  intro v hv
  unfold ofItem at hv
  split at hv
  · cases hv
  · obtain ⟨variant, -, rfl⟩ := List.mem_map.mp hv
    exact StoredMember.map_index_ofFields 0 _
  · cases hv
  · cases hv

end Declaration

/-- An initializer whose code fills the field of every member with the code of its value, and tells
members apart by their parameters, fields and setters. -/
structure Initializer.Regular (i : Initializer) : Prop where
  filled : i.literal.filled = i.parameters.map fun p => (p.member.place, p.value)
  idents : (i.parameters.map fun p => p.member.ident).Nodup
  places : (i.parameters.map fun p => p.member.place).Nodup
  setters : (i.parameters.map InitParameter.setter).Nodup

namespace Initializer

variable {d : Declaration} {i : Initializer}

/-- An initializer has the members of its declaration, in order, each with the preset that its
attributes ask for. -/
theorem members_of_ofDeclaration (h : ofDeclaration d = .ok (some i)) :
    i.style = d.style ∧ i.parameters.map InitParameter.member = d.members ∧
      ∀ p ∈ i.parameters, p.preset = p.member.preset? := by
  unfold ofDeclaration at h
  split at h
  · cases h
  · obtain ⟨parameters, hparameters, h⟩ := bind_eq_ok_iff.mp h
    cases h
    have hmade : List.Forall₂ (fun m p => p.member = m ∧ p.preset = p.member.preset?)
        d.members parameters := by
      refine (mapM_eq_ok_iff.mp hparameters).imp fun m p hp => ?_
      obtain ⟨o, ho, hp⟩ := bind_eq_ok_iff.mp hp
      cases hp
      refine ⟨rfl, ?_⟩
      rw [MemberOptions.ofAttributes_eq_ok ho]
      rfl
    have hmembers : parameters.map InitParameter.member = d.members.map id :=
      map_eq_map_of_forall₂ (hmade.imp fun m p hp => hp.1)
    rw [List.map_id] at hmembers
    refine ⟨rfl, hmembers, fun p hp => ?_⟩
    obtain ⟨_, _, hpreset⟩ := exists_of_forall₂_right hmade hp
    exact hpreset.2

/-- Values in a row fill the fields of members that are numbered in a row. -/
theorem filledFrom_eq {n : Nat} {parameters : List InitParameter}
    (h : parameters.map (fun p => p.member.index) = List.range' n parameters.length) :
    StructLiteral.filledFrom n (parameters.map InitParameter.value) =
      parameters.map fun p => (.position p.member.index, p.value) := by
  induction parameters generalizing n with
  | nil => rfl
  | cons p rest ih =>
      rw [List.map_cons, List.length_cons, List.range'_succ, List.cons.injEq] at h
      rw [List.map_cons, StructLiteral.filledFrom, ih h.2, List.map_cons, h.1]

theorem setter_of_named {p : InitParameter} (h : p.member.named = true) :
    p.setter = "with_" ++ p.member.name ∧ p.member.place = .name p.member.ident := by
  simp [InitParameter.setter, Memberwise.setterName, StoredMember.place, h]

theorem setter_of_positional {p : InitParameter} (h : p.member.named = false) :
    p.setter = "with_" ++ toString p.member.index ∧
      p.member.place = .position p.member.index := by
  simp [InitParameter.setter, Memberwise.setterName, StoredMember.place, h]

theorem toString_injective : Function.Injective (toString : Nat → String) := by
  intro j k h
  have hdigits := congrArg (fun text => Nat.ofDigitChars 10 text.toList 0) h
  simpa [Nat.toString_eq_repr, Nat.toList_repr] using hdigits

/-- Members of different names have different parameters. -/
theorem nodup_idents (hnames : (i.parameters.map fun p => p.member.name).Nodup) :
    (i.parameters.map fun p => p.member.ident).Nodup := by
  refine List.Nodup.of_map Identifier.unmarked ?_
  rw [List.map_map]
  exact hnames

/-- With names, a literal says which field each value is for, and names tell the setters apart. -/
theorem regular_of_named (hstyle : i.style = .named)
    (hall : ∀ p ∈ i.parameters, p.member.named = true)
    (hnames : (i.parameters.map fun p => p.member.name).Nodup) : i.Regular := by
  have hidents := nodup_idents hnames
  refine ⟨?_, hidents, ?_, ?_⟩
  · simp only [literal, hstyle, StructLiteral.filled, List.map_map]
    refine List.map_congr_left fun p hp => ?_
    rw [(setter_of_named (hall p hp)).2]
    cases hpreset : p.preset <;> simp [InitParameter.value, hpreset]
  · exact nodup_map_of_eq (fun _ _ heq => FieldPlace.name.inj heq)
      (fun p hp => (setter_of_named (hall p hp)).2) hidents
  · exact nodup_map_of_eq (fun _ _ heq => (String.append_right_inj "with_").mp heq)
      (fun p hp => (setter_of_named (hall p hp)).1) hnames

/-- Without names, the values of a literal are for the fields in order, and positions tell the
setters apart. -/
theorem regular_of_unnamed (hstyle : i.style = .unnamed)
    (hall : ∀ p ∈ i.parameters, p.member.named = false)
    (hnames : (i.parameters.map fun p => p.member.name).Nodup)
    (hindices : i.parameters.map (fun p => p.member.index) =
      List.range' 0 i.parameters.length) : i.Regular := by
  have hpositions : (i.parameters.map fun p => p.member.index).Nodup := by
    rw [hindices]
    exact List.nodup_range'
  refine ⟨?_, nodup_idents hnames, ?_, ?_⟩
  · simp only [literal, hstyle, StructLiteral.filled]
    rw [filledFrom_eq hindices]
    exact List.map_congr_left fun p hp => by rw [(setter_of_positional (hall p hp)).2]
  · exact nodup_map_of_eq (fun _ _ heq => FieldPlace.position.inj heq)
      (fun p hp => (setter_of_positional (hall p hp)).2) hpositions
  · exact nodup_map_of_eq
      (fun _ _ heq => toString_injective ((String.append_right_inj "with_").mp heq))
      (fun p hp => (setter_of_positional (hall p hp)).1) hpositions

theorem regular_of_unit (hstyle : i.style = .unit) (hnone : i.parameters = []) : i.Regular := by
  have hliteral : i.literal = .unit := by simp only [literal, hstyle]
  constructor
  · rw [hliteral, hnone]
    rfl
  all_goals
    rw [hnone]
    exact List.nodup_nil

/-- Each style of fields has its own way to write the literal and to name the setters, and each of
them keeps the members apart. -/
theorem regular_of_ofDeclaration (h : ofDeclaration d = .ok (some i)) (hd : d.OfItem)
    (hwritten : d.NamedAsWritten) (hdistinct : (d.members.map StoredMember.name).Nodup) :
    i.Regular := by
  obtain ⟨hstyle, hmembers, -⟩ := members_of_ofDeclaration h
  have hof : ∀ {β : Type} (f : StoredMember → β),
      i.parameters.map (fun p => f p.member) = d.members.map f := by
    intro β f
    rw [← hmembers, List.map_map]
    rfl
  have hlength : i.parameters.length = d.members.length := by rw [← hmembers, List.length_map]
  have hnamed : ∀ p ∈ i.parameters, p.member.named = true ↔ d.style = .named := by
    intro p hp
    exact hwritten p.member (hmembers ▸ List.mem_map_of_mem hp)
  have hnames : (i.parameters.map fun p => p.member.name).Nodup := by
    rw [hof StoredMember.name]
    exact hdistinct
  cases hfields : d.style with
  | named =>
      exact regular_of_named (hstyle.trans hfields) (fun p hp => (hnamed p hp).mpr hfields) hnames
  | unnamed =>
      have hall : ∀ p ∈ i.parameters, p.member.named = false := by
        intro p hp
        rw [← Bool.not_eq_true, hnamed p hp, hfields]
        decide
      refine regular_of_unnamed (hstyle.trans hfields) hall hnames ?_
      rw [hof StoredMember.index, hd.map_index, hlength]
  | unit =>
      refine regular_of_unit (hstyle.trans hfields) ?_
      rw [← List.length_eq_zero_iff, hlength, hd.members_of_unit hfields, List.length_nil]

end Initializer

/-! ## Construction -/

namespace Initializer

variable {i : Initializer} {α : Type}

/-- The fields of the members, each with what is held for it. -/
def holding (i : Initializer) (held : InitParameter → α) : FieldValues α :=
  i.parameters.map fun p => (p.member.place, held p)

/-- What a member holds in a new struct. -/
def start (i : Initializer) (e : Evaluation α) (arguments : List α) (p : InitParameter) : α :=
  e.value (i.bound arguments) p.member.place p.value

theorem map_fst_holding (held : InitParameter → α) :
    (i.holding held).map Prod.fst = i.parameters.map fun p => p.member.place := by
  rw [holding, List.map_map]
  rfl

namespace Regular

theorem new_eq (h : i.Regular) (e : Evaluation α) {arguments : List α}
    (harguments : arguments.length = i.taken.length) :
    i.new e arguments = some (i.holding (i.start e arguments)) := by
  rw [new_eq_if, if_pos harguments, h.filled, List.map_map]
  rfl

/-- The field of a member holds what is held for it. -/
theorem lookup_holding (h : i.Regular) (held : InitParameter → α) {p : InitParameter}
    (hp : p ∈ i.parameters) : (i.holding held).lookup p.member.place = some (held p) :=
  lookup_map_of_nodup h.places hp

end Regular

/-- The name of a variable is bound to the argument in its place. -/
theorem lookup_zip {names : List String} (hnames : names.Nodup) {xs : List α} {n : Nat}
    {name : String} {x : α} (hname : names[n]? = some name) (hx : xs[n]? = some x) :
    (names.zip xs).lookup name = some x := by
  induction names generalizing xs n with
  | nil => cases hname
  | cons first names ih =>
      rw [List.nodup_cons] at hnames
      cases xs with
      | nil => cases hx
      | cons y xs =>
          rw [List.zip_cons_cons]
          cases n with
          | zero =>
              cases hname
              cases hx
              exact List.lookup_cons_self
          | succ n =>
              have hmem : name ∈ names := List.mem_of_getElem? hname
              have hne : name ≠ first := by
                rintro rfl
                exact hnames.1 hmem
              rw [lookup_cons_of_ne hne]
              exact ih hnames.2 hname hx

/-- A member that the constructor takes starts with its argument. -/
theorem Regular.start_taken (h : i.Regular) (e : Evaluation α) {arguments : List α} {n : Nat}
    {p : InitParameter} {x : α} (hp : i.taken[n]? = some p) (hx : arguments[n]? = some x) :
    i.start e arguments p = x := by
  have hmem : p ∈ i.taken := List.mem_of_getElem? hp
  have hpreset : p.preset = none := Option.isNone_iff_eq_none.mp (List.mem_filter.mp hmem).2
  have hvalue : p.value = [Make.ident p.member.ident] := by rw [InitParameter.value, hpreset]
  have hidents : (i.taken.map fun p => p.member.ident).Nodup :=
    h.idents.sublist (List.filter_sublist.map _)
  have hident : (i.taken.map fun p => p.member.ident)[n]? = some p.member.ident := by
    rw [List.getElem?_map, hp]
    rfl
  rw [start, hvalue]
  exact e.value_variable _ _ _ _ ((i.bound_eq_lookup _ _).trans (lookup_zip hidents hident hx))

/-! ## Setters -/

theorem setter?_eq_some {name : String} {p : InitParameter} (h : i.setter? name = some p) :
    p ∈ i.setters ∧ p ∈ i.parameters ∧ p.setter = name := by
  have hmem : p ∈ i.setters := List.mem_of_find?_eq_some h
  exact ⟨hmem, List.mem_of_mem_filter hmem, by simpa using List.find?_some h⟩

namespace Regular

theorem nodup_setters (h : i.Regular) : (i.setters.map InitParameter.setter).Nodup :=
  h.setters.sublist (List.filter_sublist.map _)

theorem setter?_of_mem (h : i.Regular) {p : InitParameter} (hp : p ∈ i.setters) :
    i.setter? p.setter = some p := find?_key_of_nodup h.nodup_setters hp

/-- Setters of one name and fields of one place belong to the same member. -/
theorem setter_eq_iff (h : i.Regular) {p q : InitParameter} (hp : p ∈ i.parameters)
    (hq : q ∈ i.parameters) : p.setter = q.setter ↔ p.member.place = q.member.place := by
  constructor
  · intro heq
    rw [List.inj_on_of_nodup_map h.setters hp hq heq]
  · intro heq
    rw [List.inj_on_of_nodup_map h.places hp hq heq]

/-- One call replaces what is held for the member of the setter and nothing else. -/
theorem call_holding (h : i.Regular) (e : Evaluation α) (held : InitParameter → α)
    {p : InitParameter} (hp : p ∈ i.setters) (x : α) :
    i.call e (i.holding held) (p.setter, x) =
      some (i.holding fun q => if p.setter = q.setter then x else held q) := by
  have hfind : i.setter? p.setter = some p := h.setter?_of_mem hp
  have hmem : p ∈ i.parameters := List.mem_of_mem_filter hp
  have hassign : (i.holding held).assign p.member.place x =
      i.holding fun q => if p.setter = q.setter then x else held q := by
    simp only [holding, FieldValues.assign, List.map_map]
    refine List.map_congr_left fun q hq => ?_
    by_cases heq : p.setter = q.setter
    · have hplace := (h.setter_eq_iff hmem hq).mp heq
      simp [heq, hplace]
    · have hplace : q.member.place ≠ p.member.place :=
        fun hplace => heq ((h.setter_eq_iff hmem hq).mpr hplace.symm)
      simp [heq, hplace]
  rw [← hassign, call_eq, hfind, Option.map_some]

/-- After any calls every member holds what was last passed to its own setter, or else what it held
before. -/
theorem run_holding (h : i.Regular) (e : Evaluation α) (held : InitParameter → α)
    {calls : List (String × α)} (hcalls : ∀ c ∈ calls, ∃ p ∈ i.setters, p.setter = c.1) :
    i.run e (i.holding held) calls =
      some (i.holding fun p => (lastPassed p.setter calls).getD (held p)) := by
  induction calls generalizing held with
  | nil => rfl
  | cons c rest ih =>
      rw [List.forall_mem_cons] at hcalls
      obtain ⟨⟨p, hp, hname⟩, hrest⟩ := hcalls
      have hcall : i.call e (i.holding held) c =
          some (i.holding fun q => if p.setter = q.setter then c.2 else held q) := by
        rw [← h.call_holding e held hp c.2, hname]
      have hlast : ∀ q : InitParameter, lastPassed q.setter (c :: rest) =
          (lastPassed q.setter rest).or (if p.setter = q.setter then some c.2 else none) := by
        intro q
        rw [lastPassed, List.reverse_cons, List.lookup_append, ← lastPassed, List.lookup_cons]
        by_cases heq : p.setter = q.setter
        · simp [heq, ← hname]
        · have hne : q.setter ≠ c.1 := fun h => heq (hname.trans h.symm)
          simp [heq, beq_false_of_ne hne]
      have hrun : i.run e (i.holding held) (c :: rest) =
          i.run e (i.holding fun q => if p.setter = q.setter then c.2 else held q) rest := by
        rw [run, List.foldlM_cons, hcall]
        rfl
      rw [hrun, ih _ hrest]
      refine congrArg (fun held => some (i.holding held)) (funext fun q => ?_)
      rw [hlast]
      cases lastPassed q.setter rest with
      | some y => rfl
      | none => by_cases heq : p.setter = q.setter <;> simp [heq]

/-- Calls of setters of different names do not depend on their order, whatever is held. -/
theorem run_comm (h : i.Regular) (e : Evaluation α) (fields : FieldValues α)
    {first second : String × α} (hne : first.1 ≠ second.1) :
    i.run e fields [first, second] = i.run e fields [second, first] := by
  have hpair : ∀ c c' : String × α, i.run e fields [c, c'] =
      (i.setter? c.1).bind fun p => (i.setter? c'.1).map fun q =>
        (fields.assign p.member.place c.2).assign q.member.place c'.2 := by
    intro c c'
    simp only [run, List.foldlM_cons, List.foldlM_nil, call_eq]
    cases i.setter? c.1 <;> cases i.setter? c'.1 <;> rfl
  rw [hpair, hpair]
  cases hfirst : i.setter? first.1 with
  | none => cases i.setter? second.1 <;> rfl
  | some p =>
      cases hsecond : i.setter? second.1 with
      | none => rfl
      | some q =>
          obtain ⟨-, hp, hpname⟩ := setter?_eq_some hfirst
          obtain ⟨-, hq, hqname⟩ := setter?_eq_some hsecond
          have hplace : p.member.place ≠ q.member.place := by
            intro heq
            have hsetter := (h.setter_eq_iff hp hq).mpr heq
            exact hne (by rw [← hpname, hsetter, hqname])
          exact congrArg some (FieldValues.assign_comm hplace first.2 second.2 fields)

/-- The call of a setter leaves every field but its own alone, whatever is held. -/
theorem lookup_of_call (h : i.Regular) {e : Evaluation α} {fields fields' : FieldValues α}
    {p : InitParameter} (hp : p ∈ i.setters) {x : α}
    (hcall : i.call e fields (p.setter, x) = some fields')
    {place : FieldPlace} (hne : place ≠ p.member.place) :
    fields'.lookup place = fields.lookup place := by
  have hfind : i.setter? p.setter = some p := h.setter?_of_mem hp
  rw [call_eq, hfind] at hcall
  obtain rfl := Option.some_inj.mp hcall
  exact FieldValues.lookup_assign_of_ne hne x fields

end Regular

end Initializer

/-! ## Accepted declarations -/

/-- Where arguments can be read, an attribute of a name asks for something. -/
theorem Attribute.isSome_asked {α : Type} {k : Known} {read : Attribute → Except Failure α}
    {attributes : List Attribute}
    (h : ∀ a ∈ attributes, a.isNamed k.name = true → ∃ b, read a = .ok b) :
    (asked k read attributes).isSome = has k attributes := by
  rw [Bool.eq_iff_iff]
  constructor
  · intro hsome
    obtain ⟨b, hb⟩ := Option.isSome_iff_exists.mp hsome
    exact Declaration.has_of_asked hb
  · intro hhas
    obtain ⟨a, ha, hnamed⟩ := List.any_eq_true.mp hhas
    obtain ⟨b, hread⟩ := h a ha hnamed
    rw [asked, List.findSome?_isSome_iff]
    exact ⟨a, List.mem_reverse.mpr ha, by rw [asks_of_read hnamed hread, Option.isSome_some]⟩

/-- A member of a sound declaration has a preset if one of the two attributes that give one is
there. -/
theorem StoredMember.isSome_preset? {m : StoredMember} (h : m.target.Sound) :
    m.preset?.isSome = (has .defaultValue m.attributes || has .initial m.attributes) := by
  have hread : ∀ k : Known, k = .defaultValue ∨ k = .initial → ∀ a ∈ m.attributes,
      a.isNamed k.name = true → ∃ e, a.expressionArgument = .ok e := by
    rintro k hk a ha hnamed
    have hcheck := h.understood a ha k hnamed
    rcases hk with rfl | rfl <;> exact exists_ok_of_map_ok hcheck
  have hdefault := isSome_asked (hread .defaultValue (.inl rfl))
  have hinitial := isSome_asked (hread .initial (.inr rfl))
  rw [preset?, ← hdefault, ← hinitial]
  cases asked .defaultValue expressionArgument m.attributes <;> rfl

/-- An initializer has a parameter or a setter for each member of its declaration. -/
structure Initializer.Lists (i : Initializer) (d : Declaration) : Prop where
  /-- The constructor takes the members with neither a default nor an initial value, in order. -/
  taken : i.taken.map InitParameter.member =
    d.members.filter fun m => !(has .defaultValue m.attributes || has .initial m.attributes)
  /-- Every other member has a setter. -/
  setters : i.setters.map InitParameter.member =
    d.members.filter fun m => has .defaultValue m.attributes || has .initial m.attributes
  /-- A default goes before an initial value. -/
  preset : ∀ p ∈ i.parameters, p.preset = p.member.preset?

/-- The code of an initializer does what the members of its declaration say. -/
structure Initializer.Follows (i : Initializer) (d : Declaration) : Prop where
  /-- No two setters have one name. -/
  setter_names : (i.setters.map InitParameter.setter).Nodup
  /-- After any calls a member that was taken holds its argument; every other one holds what was
  last passed to its own setter, or else its preset. -/
  holds : ∀ {α : Type} (e : Evaluation α) (arguments : List α),
    arguments.length = i.taken.length → ∃ created, i.new e arguments = some created ∧
      ∀ calls : List (String × α), (∀ c ∈ calls, ∃ p ∈ i.setters, p.setter = c.1) →
        ∃ final, i.run e created calls = some final ∧
          final.map Prod.fst = d.members.map StoredMember.place ∧
          (∀ (n : Nat) (p : InitParameter) (x : α), i.taken[n]? = some p → arguments[n]? = some x →
            final.lookup p.member.place = some x) ∧
          ∀ p ∈ i.setters, final.lookup p.member.place =
            some ((lastPassed p.setter calls).getD
              (e.value (i.bound arguments) p.member.place p.value))
  /-- Setters of different members commute. -/
  commute : ∀ {α : Type} (e : Evaluation α) (fields : FieldValues α) (first second : String × α),
    first.1 ≠ second.1 → i.run e fields [first, second] = i.run e fields [second, first]
  /-- A setter touches no other member. -/
  frame : ∀ {α : Type} (e : Evaluation α) (fields fields' : FieldValues α) (p : InitParameter)
    (x : α), p ∈ i.setters → i.call e fields (p.setter, x) = some fields' →
    ∀ place ≠ p.member.place, fields'.lookup place = fields.lookup place

namespace Initializer

variable {i : Initializer} {d : Declaration}

theorem map_member_filter {taking : InitParameter → Bool} {keeping : StoredMember → Bool}
    (hmembers : i.parameters.map InitParameter.member = d.members)
    (h : ∀ p ∈ i.parameters, taking p = keeping p.member) :
    (i.parameters.filter taking).map InitParameter.member = d.members.filter keeping := by
  rw [← hmembers, List.filter_map]
  exact congrArg _ (List.filter_congr h)

/-- Calls leave the argument of a member that the constructor takes. -/
theorem Regular.lastPassed_taken (h : i.Regular) {α : Type} {calls : List (String × α)}
    (hcalls : ∀ c ∈ calls, ∃ p ∈ i.setters, p.setter = c.1) {p : InitParameter}
    (hp : p ∈ i.taken) : lastPassed p.setter calls = none := by
  have hmem : p ∈ i.parameters := List.mem_of_mem_filter hp
  rw [lastPassed, List.lookup_eq_none_iff]
  intro c hc
  obtain ⟨q, hq, hname⟩ := hcalls c (List.mem_reverse.mp hc)
  have hne : p.setter ≠ c.1 := by
    intro heq
    have hsame : p = q :=
      List.inj_on_of_nodup_map h.setters hmem (List.mem_of_mem_filter hq) (heq.trans hname.symm)
    have hrequired := (List.mem_filter.mp hp).2
    have hnot := (List.mem_filter.mp hq).2
    rw [← hsame, hrequired] at hnot
    cases hnot
  simpa using hne

/-- The members of a sound declaration are taken or set as their attributes say. -/
theorem lists_of_ofDeclaration (h : ofDeclaration d = .ok (some i)) (hsound : d.Sound) :
    i.Lists d := by
  obtain ⟨-, hmembers, hpreset⟩ := members_of_ofDeclaration h
  have hsome : ∀ p ∈ i.parameters, p.preset.isSome =
      (has .defaultValue p.member.attributes || has .initial p.member.attributes) := by
    intro p hp
    have hmem : p.member ∈ d.members := hmembers ▸ List.mem_map_of_mem hp
    rw [hpreset p hp]
    exact StoredMember.isSome_preset? (hsound.member hmem)
  have hrequired : ∀ p ∈ i.parameters, p.required =
      !(has .defaultValue p.member.attributes || has .initial p.member.attributes) := by
    intro p hp
    rw [InitParameter.required, ← hsome p hp]
    cases p.preset <;> rfl
  refine ⟨map_member_filter hmembers hrequired, map_member_filter hmembers ?_, hpreset⟩
  intro p hp
  rw [hrequired p hp, Bool.not_not]

/-- An initializer that tells members apart does what they say. -/
theorem Regular.follows (hregular : i.Regular)
    (hmembers : i.parameters.map InitParameter.member = d.members) : i.Follows d where
  setter_names := hregular.nodup_setters
  holds := by
    intro α e arguments harguments
    refine ⟨_, hregular.new_eq e harguments, fun calls hcalls =>
      ⟨_, hregular.run_holding e _ hcalls, ?_, ?_, ?_⟩⟩
    · rw [map_fst_holding, ← hmembers, List.map_map]
      rfl
    · intro n p x hp hx
      have hmem : p ∈ i.taken := List.mem_of_getElem? hp
      rw [hregular.lookup_holding _ (List.mem_of_mem_filter hmem),
        hregular.lastPassed_taken hcalls hmem, hregular.start_taken e hp hx]
      rfl
    · intro p hp
      exact hregular.lookup_holding _ (List.mem_of_mem_filter hp)
  commute := fun e fields _ _ => hregular.run_comm e fields
  frame := fun _ _ _ _ _ hp hcall _ => hregular.lookup_of_call hp hcall

end Initializer

namespace Declaration

variable {d : Declaration}

/-- The initializer comes first in the code that is built. -/
theorem exists_built_behind {o : ContainerOptions}
    (ho : ContainerOptions.ofAttributes d.attributes = .ok o) (c : Context) :
    ∃ rest, (d.build c).1 = (d.initializerCode o c).1 ++ rest := by
  cases hprotocols : o.protocols with
  | none =>
      refine ⟨[], ?_⟩
      rw [List.append_nil]
      simp only [build, ho, hprotocols]
      rfl
  | some protocols =>
      cases ht : CodedType.ofDeclaration d o.strategy with
      | error f =>
          refine ⟨[], ?_⟩
          rw [List.append_nil]
          simp only [build, ho, hprotocols, ht]
          rfl
      | ok made =>
          cases made with
          | none =>
              refine ⟨[], ?_⟩
              rw [List.append_nil]
              simp only [build, ho, hprotocols, ht]
              rfl
          | some t => exact ⟨_, congrArg Prod.fst (build_eq ho hprotocols ht c)⟩

/-- An accepted struct that asks for an initializer gets one, before anything else. -/
theorem exists_initializer_of_accepted (haccepted : d.expand.outcome = .accepted) (hd : d.OfItem)
    (hasked : has .memberInit d.attributes = true) :
    ∃ i rest, d.expand.generated = i.tokens :: rest ∧
      Initializer.ofDeclaration d = .ok (some i) := by
  have hsound := (accepted_iff.mp haccepted).1
  obtain ⟨o, ho⟩ := hsound.exists_containerOptions
  obtain ⟨init, hinit, hsome, hmade⟩ := hsound.exists_initializerCode hd ho ⟨0, d.findings⟩
  rw [hasked] at hsome
  obtain ⟨i, rfl⟩ := Option.isSome_iff_exists.mp hsome
  obtain ⟨rest, hrest⟩ := exists_built_behind ho ⟨0, d.findings⟩
  refine ⟨i, rest, ?_, hmade i rfl⟩
  rw [generated_eq_build haccepted, hrest, hinit]
  rfl

end Declaration

end KeyedCoding
