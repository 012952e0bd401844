import KeyedCoding.Proofs.Coding.OwnEntries
import KeyedCoding.Proofs.Derivation.Initialization

/-!
# Decoding and initializing

A struct is put together in two ways: by its constructor from arguments, and by decoding from the
entries of an object.  The two are generated apart, each with a rule of its own for the values that
nobody gives.  Where a member is either taken by the constructor and read, or has one value that
stands in on both sides, the two agree: `Member.TakenAlike` says so of one member, and an object
without entries for defaults decodes to what the constructor makes of the decoded arguments.
-/

namespace KeyedCoding

open Attribute

/-! ## Members of a schema -/

/-- Whether decoding takes a member from where the constructor takes it: from outside, or from the
value that the constructor puts in its place. -/
def Member.TakenAlike (m : Member) : Prop :=
  match m.source with
  | .required => m.preset = none
  | .defaulted y | .fixed y => m.preset = some y

theorem Member.TakenAlike.required_iff {m : Member} (h : m.TakenAlike) :
    m.source = .required ↔ m.preset = none := by
  unfold TakenAlike at h
  cases hsource : m.source with
  | required => simpa [hsource] using h
  | defaulted y | fixed y => simp_all

/-- What is read for members that have to be given, in order. -/
def ReadsAll (body : Shape → Decoding Datum) (entries : Entries Value) (path : CodingPath)
    (members : List Member) (arguments : List Datum) : Prop :=
  List.Forall₂ (fun m y => m.readEntry body path (entries.get? m.key) = .ok y) members arguments

section Schema

open Memberwise (required create)

variable {body : Shape → Decoding Datum} {entries : Entries Value} {path : CodingPath}
  {members : List Member}

theorem create_cons_of_preset {m : Member} {y : Datum} (hpreset : m.preset = some y)
    (rest : List Member) (arguments : List Datum) :
    create (m :: rest) arguments = (create rest arguments).map (y :: ·) := by
  cases arguments <;> simp [create, hpreset]

theorem create_cons_of_required {m : Member} (hpreset : m.preset = none) (rest : List Member)
    (y : Datum) (arguments : List Datum) :
    create (m :: rest) (y :: arguments) = (create rest arguments).map (y :: ·) := by
  simp [create, hpreset]

/-- A member that is not taken from outside becomes its preset. -/
theorem Member.decode_of_preset {m : Member} (h : m.TakenAlike) {y : Datum}
    (hpreset : m.preset = some y)
    (habsent : ∀ z, m.source = .defaulted z → entries.get? m.key = none) :
    m.decode body ⟨entries, path⟩ = .ok y := by
  rw [decode_eq]
  unfold TakenAlike at h
  cases hsource : m.source with
  | required =>
      rw [hsource] at h
      rw [hpreset] at h
      cases h
  | fixed z =>
      simp only [hsource, hpreset, Option.some.injEq] at h
      rw [h]
  | defaulted z =>
      simp only [hsource, hpreset, Option.some.injEq] at h
      simp only [habsent z hsource, readOr, h]

/-- A member that is taken from outside becomes what its entry holds. -/
theorem Member.decode_of_taken {m : Member} (h : m.TakenAlike) (hpreset : m.preset = none) :
    m.decode body ⟨entries, path⟩ = m.readEntry body path (entries.get? m.key) := by
  rw [decode_eq]
  unfold TakenAlike at h
  cases hsource : m.source with
  | required => rfl
  | fixed z | defaulted z =>
      simp only [hsource, hpreset, reduceCtorEq] at h

/-- Without entries for defaults, members decode exactly if those that have to be given do, and then
to what the constructor makes of them. -/
theorem decodeMembers_eq_ok_iff_create (halike : ∀ m ∈ members, m.TakenAlike)
    (habsent : ∀ m ∈ members, ∀ y, m.source = .defaulted y → entries.get? m.key = none)
    {fields : List Datum} :
    decodeMembers body ⟨entries, path⟩ members = .ok fields ↔
      ∃ arguments, ReadsAll body entries path (required members) arguments ∧
        create members arguments = some fields := by
  induction members generalizing fields with
  | nil =>
      simp only [decodeMembers, required, ReadsAll, List.filter_nil, List.forall₂_nil_left_iff,
        exists_eq_left, create]
      simp
  | cons m rest ih =>
      rw [List.forall_mem_cons] at halike habsent
      have ih := fun fields => @ih halike.2 habsent.2 fields
      simp only [decodeMembers, bind_eq_ok_iff]
      cases hpreset : m.preset with
      | some y =>
          have hm : m.decode body ⟨entries, path⟩ = .ok y :=
            Member.decode_of_preset halike.1 hpreset habsent.1
          have hrequired : required (m :: rest) = required rest := by simp [required, hpreset]
          rw [hrequired]
          constructor
          · rintro ⟨x, hx, xs, hxs, hfields⟩
            rw [hm] at hx
            cases hx
            cases hfields
            obtain ⟨arguments, hread, hcreate⟩ := (ih xs).mp hxs
            refine ⟨arguments, hread, ?_⟩
            rw [create_cons_of_preset hpreset, hcreate, Option.map_some]
          · rintro ⟨arguments, hread, hcreate⟩
            rw [create_cons_of_preset hpreset] at hcreate
            obtain ⟨xs, hxs, rfl⟩ := Option.map_eq_some_iff.mp hcreate
            exact ⟨y, hm, xs, (ih xs).mpr ⟨arguments, hread, hxs⟩, rfl⟩
      | none =>
          have hm : m.decode body ⟨entries, path⟩ = m.readEntry body path (entries.get? m.key) :=
            Member.decode_of_taken halike.1 hpreset
          have hrequired : required (m :: rest) = m :: required rest := by
            simp [required, hpreset]
          rw [hrequired, hm]
          constructor
          · rintro ⟨x, hx, xs, hxs, hfields⟩
            cases hfields
            obtain ⟨arguments, hread, hcreate⟩ := (ih xs).mp hxs
            refine ⟨x :: arguments, .cons hx hread, ?_⟩
            rw [create_cons_of_required hpreset, hcreate, Option.map_some]
          · rintro ⟨arguments, hread, hcreate⟩
            cases hread with
            | cons hx hread =>
                rw [create_cons_of_required hpreset] at hcreate
                obtain ⟨xs, hxs, rfl⟩ := Option.map_eq_some_iff.mp hcreate
                exact ⟨_, hx, xs, (ih xs).mpr ⟨_, hread, hxs⟩, rfl⟩

/-- Arguments for the members that have to be given are enough to create. -/
theorem exists_create {arguments : List Datum}
    (h : arguments.length = (required members).length) :
    ∃ fields, create members arguments = some fields := by
  induction members generalizing arguments with
  | nil =>
      obtain rfl := List.length_eq_zero_iff.mp h
      exact ⟨[], rfl⟩
  | cons m rest ih =>
      cases hpreset : m.preset with
      | some y =>
          have hrequired : required (m :: rest) = required rest := by simp [required, hpreset]
          rw [hrequired] at h
          obtain ⟨fields, hfields⟩ := ih h
          exact ⟨y :: fields, by rw [create_cons_of_preset hpreset, hfields, Option.map_some]⟩
      | none =>
          have hrequired : required (m :: rest) = m :: required rest := by
            simp [required, hpreset]
          rw [hrequired, List.length_cons] at h
          obtain ⟨x, arguments, rfl⟩ := List.exists_cons_of_length_eq_add_one h
          obtain ⟨fields, hfields⟩ := ih (Nat.succ.inj h)
          exact ⟨x :: fields, by rw [create_cons_of_required hpreset, hfields, Option.map_some]⟩

end Schema

/-! ## Fields that decode and initialize alike -/

/-- What stands for a member that is not read is its preset. -/
theorem CodedMember.constant?_of_fixed {c : CodedMember} {s : Surroundings} {shape : Shape}
    {y : Datum} (h : c.source? s shape = some (.fixed y)) {e : Expression}
    (he : c.options.preset = some e) : s.constant? shape e.tokens = some y := by
  unfold source? at h
  cases hread : c.decoded with
  | true =>
      cases hdefault : c.options.default with
      | none => simp [hread, hdefault] at h
      | some e' => simp [hread, hdefault] at h
  | false => simpa [hread, fallback?, he] using h

namespace StoredMember

/-- The ways in which a field may be given: taken by the constructor and read; with a default; or
not read and with an initial value. -/
inductive GivenAlike (m : StoredMember) : Prop
  | taken (hpreset : m.preset? = none) (hread : m.isRead = true)
  | defaulted (hdefault : m.default?.isSome = true)
  | unread (hinitial : (asked .initial expressionArgument m.attributes).isSome = true)
      (hread : m.isRead = false)

/-- A default is also what the constructor puts in the place of the member. -/
theorem preset?_of_default? {m : StoredMember} {e : Expression} (h : m.default? = some e) :
    m.preset? = some e := by
  have hdefault : asked .defaultValue expressionArgument m.attributes = some e := h
  rw [preset?, hdefault]
  rfl

/-- A field that is not read has a preset if it is given in one of the ways. -/
theorem GivenAlike.isSome_preset? {m : StoredMember} (h : m.GivenAlike)
    (hread : m.isRead = false) : m.preset?.isSome = true := by
  cases h with
  | taken _ hread' =>
      rw [hread] at hread'
      cases hread'
  | defaulted hdefault =>
      obtain ⟨e, he⟩ := Option.isSome_iff_exists.mp hdefault
      rw [preset?_of_default? he, Option.isSome_some]
  | unread hinitial _ =>
      obtain ⟨e, he⟩ := Option.isSome_iff_exists.mp hinitial
      rw [preset?, he]
      cases asked .defaultValue expressionArgument m.attributes <;> rfl

/-- A field that is read and has no default has no preset either if it is given in one of the
ways. -/
theorem GivenAlike.preset?_eq_none {m : StoredMember} (h : m.GivenAlike) (hread : m.isRead = true)
    (hdefault : m.default? = none) : m.preset? = none := by
  cases h with
  | taken hpreset _ => exact hpreset
  | defaulted hsome =>
      rw [hdefault] at hsome
      cases hsome
  | unread _ hread' =>
      rw [hread] at hread'
      cases hread'

variable {m : StoredMember} {strategy : KeyStrategy} {s : Surroundings} {x : Member}

/-- What a member of a schema has of the names and the expressions of its field. -/
structure Shows (m : StoredMember) (s : Surroundings) (x : Member) : Prop where
  ident : x.ident = m.ident
  /-- What a field is set by: its name, or its position. -/
  setter : Memberwise.setterName x.named x.name x.index =
    Memberwise.setterName m.named m.name m.index
  index : x.index = m.index
  source : m.ComesFrom s x.shape x.source
  /-- What stands for a member that is not read is its preset. -/
  fixed : ∀ y, x.source = .fixed y → ∀ e, m.preset? = some e →
    s.constant? x.shape e.tokens = some y
  preset_none : m.preset? = none → x.preset = none
  preset_some : ∀ e, m.preset? = some e → ∃ y, s.constant? x.shape e.tokens = some y ∧
    x.preset = some y

theorem Means.shows (h : m.Means strategy s x) : m.Shows s x := by
  have hsource := h.standsFor.source
  obtain ⟨keyVariant, c, hc, hx⟩ := h
  obtain ⟨o, ho, hc⟩ := bind_eq_ok_iff.mp hc
  cases hc
  have hoptions : o.preset = m.preset? := by
    rw [MemberOptions.ofAttributes_eq_ok ho]
    rfl
  simp only [CodedMember.schema?, Option.bind_eq_bind, Option.bind_eq_some_iff,
    Option.some.injEq] at hx
  obtain ⟨shape, hshape, helper, hhelper, source, hmade, preset, hpreset, rfl⟩ := hx
  simp only [CodedMember.preset?, hoptions] at hpreset
  refine ⟨rfl, rfl, rfl, hsource, ?_, ?_, ?_⟩
  · rintro y rfl e he
    exact CodedMember.constant?_of_fixed hmade (hoptions.trans he)
  · intro hnone
    rw [hnone] at hpreset
    exact (Option.some_inj.mp hpreset).symm
  · intro e he
    rw [he] at hpreset
    obtain ⟨y, hy, rfl⟩ := Option.map_eq_some_iff.mp hpreset
    exact ⟨y, hy, rfl⟩

/-- A field that is given in one of the ways is decoded from where the constructor takes it. -/
theorem GivenAlike.takenAlike (h : m.GivenAlike) (hx : m.Shows s x) : x.TakenAlike := by
  have hsource := hx.source
  unfold Member.TakenAlike
  cases hcases : x.source with
  | required =>
      rw [hcases] at hsource
      cases hsource with
      | required hread hdefault => exact hx.preset_none (h.preset?_eq_none hread hdefault)
  | defaulted y =>
      rw [hcases] at hsource
      cases hsource with
      | defaulted hread hdefault hy =>
          obtain ⟨z, hz, hpreset⟩ := hx.preset_some _ (preset?_of_default? hdefault)
          rw [hy] at hz
          exact hpreset.trans hz.symm
  | fixed y =>
      rw [hcases] at hsource
      cases hsource with
      | fixed _ hread =>
          obtain ⟨e, he⟩ := Option.isSome_iff_exists.mp (h.isSome_preset? hread)
          obtain ⟨z, hz, hpreset⟩ := hx.preset_some e he
          have hy := hx.fixed y hcases e he
          rw [hy] at hz
          exact hpreset.trans hz.symm

end StoredMember

/-! ## The code of both sides -/

/-- The code of the value that stands in for what is not read. -/
def Reading.substitute? : Reading → Option Tokens
  | .fallback value => some value
  | .required _ _ _ => none
  | .defaulted _ _ _ _ value => some value

namespace CodedMember

/-- The code of a default is the same on both sides. -/
theorem substitute?_binding {m : StoredMember} {keyVariant : String} {s : KeyStrategy}
    {c : CodedMember} (hc : ofStored m keyVariant s = .ok c) (h : m.GivenAlike)
    (keys container : String) (context : Context) :
    (c.binding keys container context).1.reading.substitute? =
      m.preset?.map Expression.assigned := by
  obtain ⟨o, ho, hc⟩ := bind_eq_ok_iff.mp hc
  cases hc
  have hoptions := MemberOptions.ofAttributes_eq_ok ho
  have hdefault : o.default = m.default? := by
    rw [hoptions]
    rfl
  have hpreset : o.preset = m.preset? := by
    rw [hoptions]
    rfl
  have hread : (!o.ignoreDecoding) = m.isRead := by
    rw [hoptions]
    rfl
  unfold binding
  simp only [decoded, hread, hdefault]
  cases hcases : m.isRead with
  | false =>
      obtain ⟨e, he⟩ := Option.isSome_iff_exists.mp (h.isSome_preset? hcases)
      have hfallback : o.fallback = e.assigned := by
        simp only [MemberOptions.fallback, hpreset, he]
      show some o.fallback = m.preset?.map Expression.assigned
      rw [hfallback, he, Option.map_some]
  | true =>
      cases hsome : m.default? with
      | none =>
          rw [h.preset?_eq_none hcases hsome]
          rfl
      | some e =>
          rw [StoredMember.preset?_of_default? hsome]
          rfl

/-- The code of defaults is the same on both sides, member by member. -/
theorem substitutes_bindings {stored : List StoredMember} {members : List CodedMember}
    {name : StoredMember → String} {s : KeyStrategy}
    (hmade : List.Forall₂ (fun m c => ofStored m (name m) s = .ok c) stored members)
    (h : ∀ m ∈ stored, m.GivenAlike) (keys container : String) (context : Context) :
    (bindings keys container members context).1.map (fun b => b.reading.substitute?) =
      stored.map fun m => m.preset?.map Expression.assigned := by
  -- A default draws a name, so the state moves on and the induction is about every state.
  induction hmade generalizing context with
  | nil => rfl
  | @cons m c stored members hc _ ih =>
      rw [List.forall_mem_cons] at h
      have hfirst := substitute?_binding hc h.1 keys container context
      have hrest := ih h.2 (c.binding keys container context).2
      rw [List.map_cons, ← hfirst, ← hrest]
      rfl

end CodedMember

/-- The code of the values that stand in for members of a struct, member by member. -/
def DecodeBody.substitutes : DecodeBody → List (Option Tokens)
  | .struct _ _ bindings _ => bindings.map fun b => b.reading.substitute?
  | .enum _ _ _ _ => []

theorem CodedType.substitutes_decodeBody {d : Declaration} {t : CodedType}
    (ht : ofDeclaration d d.strategy = .ok (some t)) (hkind : d.kind = .struct)
    (h : ∀ m ∈ d.members, m.GivenAlike) (context : Context) :
    (t.decodeBody context).1.substitutes =
      d.members.map fun m => m.preset?.map Expression.assigned := by
  cases hbody : t.body with
  | enum cases => exact absurd (kind_of_enum ht hbody) (by simp [hkind])
  | struct style members =>
      have hmade := forall₂_of_struct ht hbody
      unfold decodeBody
      simp only [hbody]
      exact CodedMember.substitutes_bindings hmade h _ _ _

/-! ## The constructor -/

namespace Initializer

variable {i : Initializer}

/-- The arguments are what the members that the constructor takes start with. -/
theorem Regular.map_start_taken {α : Type} (h : i.Regular) (e : Evaluation α) {arguments : List α}
    (harguments : arguments.length = i.taken.length) :
    i.taken.map (i.start e arguments) = arguments := by
  refine List.ext_getElem (by rw [List.length_map, harguments]) fun n hn hn' => ?_
  rw [List.length_map] at hn
  rw [List.getElem_map]
  exact h.start_taken e (List.getElem?_eq_getElem hn) (List.getElem?_eq_getElem hn')

/-- Creating gives every member what it starts with, if that is the preset of the schema for a
member that the constructor does not take. -/
theorem create_eq_map {parameters : List InitParameter} {members : List Member}
    {held : InitParameter → Datum}
    (h : List.Forall₂ (fun p x => (p.required = true ∧ x.preset = none) ∨
      (p.required = false ∧ x.preset = some (held p))) parameters members) :
    Memberwise.create members ((parameters.filter InitParameter.required).map held) =
      some (parameters.map held) := by
  induction h with
  | nil => rfl
  | @cons p x parameters members hp _ ih =>
      rcases hp with ⟨hrequired, hpreset⟩ | ⟨hrequired, hpreset⟩
      · rw [List.filter_cons_of_pos hrequired, List.map_cons, create_cons_of_required hpreset, ih]
        rfl
      · rw [List.filter_cons_of_neg (by simp [hrequired]), create_cons_of_preset hpreset, ih]
        rfl

end Initializer

/-- The code of presets stands for what the surroundings say, whatever the arguments of the
constructor are. -/
def Evaluation.Agrees (e : Evaluation Datum) (s : Surroundings) (d : Declaration) : Prop :=
  ∀ m ∈ d.members, ∀ expression shape y, m.preset? = some expression →
    s.shape? m.type = some shape → s.constant? shape expression.tokens = some y →
    ∀ bound : String → Option Datum,
      (∀ name x, bound name = some x → ∃ m' ∈ d.members, m'.preset? = none ∧ m'.ident = name) →
      e.value bound m.place expression.assigned = y

namespace Initializer

variable {i : Initializer} {d : Declaration}

/-- Only members that the constructor takes are bound. -/
theorem taken_of_bound {α : Type} (hmade : ofDeclaration d = .ok (some i)) {arguments : List α}
    {name : String} {x : α} (h : i.bound arguments name = some x) :
    ∃ m ∈ d.members, m.preset? = none ∧ m.ident = name := by
  obtain ⟨-, hmembers, hpreset⟩ := members_of_ofDeclaration hmade
  have hname : name ∈ i.taken.map fun p => p.member.ident := by
    rw [i.bound_eq_lookup] at h
    obtain ⟨before, behind, hzip, -⟩ := List.lookup_eq_some_iff.mp h
    have hmem : (name, x) ∈ (i.taken.map fun p => p.member.ident).zip arguments := by
      rw [hzip]
      simp
    exact (List.of_mem_zip hmem).1
  obtain ⟨p, hp, rfl⟩ := List.mem_map.mp hname
  obtain ⟨hparameter, hrequired⟩ := List.mem_filter.mp hp
  refine ⟨p.member, hmembers ▸ List.mem_map_of_mem hparameter, ?_, rfl⟩
  rw [← hpreset p hparameter]
  exact Option.isNone_iff_eq_none.mp hrequired

/-- Parameters and members of the schema are those of the declaration. -/
theorem forall₂_shows (hmade : ofDeclaration d = .ok (some i)) {s : Surroundings}
    {members : List Member}
    (hmeans : List.Forall₂ (fun m x => m.Means d.strategy s x) d.members members) :
    List.Forall₂ (fun p x => (p.preset = p.member.preset? ∧ p.member ∈ d.members) ∧
      p.member.Shows s x ∧ s.shape? p.member.type = some x.shape) i.parameters members := by
  obtain ⟨-, hmembers, hpreset⟩ := members_of_ofDeclaration hmade
  have hshows : List.Forall₂ (fun m x => m.Shows s x ∧ s.shape? m.type = some x.shape)
      d.members members := hmeans.imp fun _ _ hm => ⟨hm.shows, hm.standsFor.shape⟩
  rw [← hmembers, List.forall₂_map_left_iff] at hshows
  exact (List.forall₂_and_left i.parameters members).mpr
    ⟨fun p hp => ⟨hpreset p hp, hmembers ▸ List.mem_map_of_mem hp⟩, hshows⟩

theorem required_eq_isNone {p : InitParameter} {s : Surroundings} {x : Member}
    (hsame : p.preset = p.member.preset?) (hx : p.member.Shows s x) :
    p.required = x.preset.isNone := by
  rw [InitParameter.required, hsame]
  cases hcases : p.member.preset? with
  | none =>
      rw [hx.preset_none hcases]
      rfl
  | some e =>
      obtain ⟨y, -, hy⟩ := hx.preset_some e hcases
      rw [hy]
      rfl

/-- Members that have to be given are those that the constructor takes, in order. -/
theorem map_ident_required (hmade : ofDeclaration d = .ok (some i)) {s : Surroundings}
    {members : List Member}
    (hmeans : List.Forall₂ (fun m x => m.Means d.strategy s x) d.members members) :
    (Memberwise.required members).map Member.ident = i.taken.map fun p => p.member.ident := by
  refine map_filter_eq_of_forall₂ ((forall₂_shows hmade hmeans).imp fun p x hp => ?_)
  exact ⟨(required_eq_isNone hp.1.1 hp.2.1).symm, hp.2.1.ident⟩

/-- Every member of a schema is taken by the constructor, or starts with its preset. -/
theorem forall₂_start (hmade : ofDeclaration d = .ok (some i)) {s : Surroundings}
    {members : List Member}
    (hmeans : List.Forall₂ (fun m x => m.Means d.strategy s x) d.members members)
    {e : Evaluation Datum} (hagrees : e.Agrees s d) (arguments : List Datum) :
    List.Forall₂ (fun p x => (p.required = true ∧ x.preset = none) ∨
      (p.required = false ∧ x.preset = some (i.start e arguments p))) i.parameters members := by
  have hbound : ∀ name x, i.bound arguments name = some x →
      ∃ m ∈ d.members, m.preset? = none ∧ m.ident = name := fun _ _ => taken_of_bound hmade
  refine (forall₂_shows hmade hmeans).imp fun p x hp => ?_
  obtain ⟨⟨hsame, hmem⟩, hx, hshape⟩ := hp
  have hrequired := required_eq_isNone hsame hx
  cases hcases : p.preset with
  | none =>
      rw [hcases] at hsame
      have hpreset := hx.preset_none hsame.symm
      exact .inl ⟨by rw [hrequired, hpreset]; rfl, hpreset⟩
  | some expression =>
      rw [hcases] at hsame
      obtain ⟨y, hy, hpreset⟩ := hx.preset_some expression hsame.symm
      have hvalue : i.start e arguments p = y := by
        rw [start, InitParameter.value, hcases]
        exact hagrees p.member hmem expression x.shape y hsame.symm hshape hy _ hbound
      exact .inr ⟨by rw [hrequired, hpreset]; rfl, by rw [hpreset, hvalue]⟩

/-- What a schema creates is what the code of the constructor gives the fields. -/
theorem Regular.new_eq_create (h : i.Regular) (hmade : ofDeclaration d = .ok (some i))
    {s : Surroundings} {members : List Member}
    (hmeans : List.Forall₂ (fun m x => m.Means d.strategy s x) d.members members)
    {e : Evaluation Datum} (hagrees : e.Agrees s d) {arguments : List Datum}
    (harguments : arguments.length = (Memberwise.required members).length) {fields : List Datum}
    (hcreate : Memberwise.create members arguments = some fields) :
    i.new e arguments = some ((d.members.map StoredMember.place).zip fields) := by
  have hlength : arguments.length = i.taken.length := by
    have hidents := congrArg List.length (map_ident_required hmade hmeans)
    rw [List.length_map, List.length_map] at hidents
    rw [harguments, hidents]
  have hfields : fields = i.parameters.map (i.start e arguments) := by
    have hstart := create_eq_map (forall₂_start hmade hmeans hagrees arguments)
    rw [← taken, h.map_start_taken e hlength, hcreate] at hstart
    exact Option.some_inj.mp hstart
  have hplaces : d.members.map StoredMember.place = i.parameters.map fun p => p.member.place := by
    rw [← (members_of_ofDeclaration hmade).2.1, List.map_map]
    rfl
  rw [h.new_eq e hlength, hfields, hplaces, List.zip_map']
  rfl

end Initializer

/-! ## Structs -/

/-- The object has no entry for a member that is read and has a default. -/
def Declaration.LacksDefaults (d : Declaration) (entries : Entries Value) : Prop :=
  ∀ m ∈ d.members, m.isRead = true → m.default?.isSome = true →
    entries.get? (m.wireKey d.strategy) = none

namespace Registry

/-- Objects without entries for defaults decode to what the constructor makes of their entries. -/
structure DecodesAsBuilt (types : Registry) (name : String) (d : Declaration) (s : Surroundings)
    (members : List Member) (i : Initializer) : Prop where
  /-- Decoding succeeds exactly if every member that has to be given is read. -/
  ok_iff : ∀ (entries : Entries Value) path,
    (∃ x, types.decode (.named name) ⟨.object entries, path⟩ = .ok x) ↔
      ∀ m ∈ Memberwise.required members,
        ∃ y, m.readEntry types.decode path (entries.get? m.key) = .ok y
  /-- The result is what the constructor makes of what is read, as a schema and as code. -/
  result : ∀ entries path, d.LacksDefaults entries → ∀ arguments,
    ReadsAll types.decode entries path (Memberwise.required members) arguments →
    ∃ fields, Memberwise.create members arguments = some fields ∧
      types.decode (.named name) ⟨.object entries, path⟩ = .ok (.record fields) ∧
      (d.NamedAsWritten → (d.members.map StoredMember.name).Nodup →
        ∀ e : Evaluation Datum, e.Agrees s d →
        i.new e arguments = some ((d.members.map StoredMember.place).zip fields))

variable {types : Registry} {name : String} {d : Declaration} {s : Surroundings}

theorem decodesAsBuilt (hd : d.OfItem) {title : String} {members : List Member} {i : Initializer}
    (hfind : types.find? name = some (.struct title members))
    (hmeans : List.Forall₂ (fun m x => m.Means d.strategy s x) d.members members)
    (hgiven : ∀ m ∈ d.members, m.GivenAlike)
    (hmade : Initializer.ofDeclaration d = .ok (some i)) :
    types.DecodesAsBuilt name d s members i := by
  have hdecode : ∀ entries path, types.decode (.named name) ⟨.object entries, path⟩ =
      (decodeMembers types.decode ⟨entries, path⟩ members).map .record := by
    intro entries path
    rw [types.decode_named hfind, Schema.decode_struct]
    rfl
  have halike : ∀ x ∈ members, x.TakenAlike := by
    intro x hx
    obtain ⟨m, hm, hmeans⟩ := exists_of_forall₂_right hmeans hx
    exact (hgiven m hm).takenAlike hmeans.shows
  have habsent : ∀ entries, d.LacksDefaults entries → ∀ x ∈ members, ∀ y,
      x.source = .defaulted y → Entries.get? entries x.key = none := by
    intro entries hlacks x hx y hsource
    obtain ⟨m, hm, hmeans⟩ := exists_of_forall₂_right hmeans hx
    have hcomes := hmeans.standsFor.source
    rw [hsource] at hcomes
    rw [hmeans.standsFor.key]
    cases hcomes with
    | defaulted hread hdefault _ => exact hlacks m hm hread (by rw [hdefault]; rfl)
  constructor
  · intro entries path
    simp only [hdecode, exists_map_eq_ok_iff, exists_decodeMembers_eq_ok_iff,
      Member.exists_decode_eq_ok_iff, Memberwise.required, List.mem_filter,
      Option.isNone_iff_eq_none, and_imp]
    exact forall₂_congr fun x hx => by rw [(halike x hx).required_iff]
  · intro entries path hlacks arguments hread
    have hlength := hread.length_eq.symm
    obtain ⟨fields, hcreate⟩ := exists_create hlength
    have hfields : decodeMembers types.decode ⟨entries, path⟩ members = .ok fields :=
      (decodeMembers_eq_ok_iff_create halike (habsent entries hlacks)).mpr
        ⟨arguments, hread, hcreate⟩
    refine ⟨fields, hcreate, by rw [hdecode, hfields]; rfl, fun hwritten hdistinct e hagrees => ?_⟩
    have hregular := Initializer.regular_of_ofDeclaration hmade hd hwritten hdistinct
    exact hregular.new_eq_create hmade hmeans hagrees hlength hcreate

/-- An accepted struct whose members are either taken by the constructor and read, or have one value
that stands in on both sides, decodes from an object without entries for defaults to what its
initializer makes of the members that it takes.  Both generators write the same code for each of
these values, member by member. -/
theorem decodes_as_initialized (haccepted : d.expand.outcome = .accepted) (hd : d.OfItem)
    (hasked : has .memberInit d.attributes = true) (hdeclares : types.Declares name d s)
    (hgiven : ∀ m ∈ d.members, m.GivenAlike) :
    ∃ (i : Initializer) (rest : List Tokens) (t : CodedType) (title : String)
      (members : List Member),
      d.expand.generated = i.tokens :: rest ∧ Initializer.ofDeclaration d = .ok (some i) ∧
      d.codedType? = some t ∧ types.find? name = some (.struct title members) ∧
      List.Forall₂ (fun m x => m.StandsFor d.strategy s x) d.members members ∧
      (∀ context, (t.decodeBody context).1.substitutes =
        i.parameters.map fun p => p.preset.map Expression.assigned) ∧
      (Memberwise.required members).map Member.ident = i.taken.map (fun p => p.member.ident) ∧
      types.DecodesAsBuilt name d s members i := by
  have hsound := (Declaration.accepted_iff.mp haccepted).1
  have hkind : d.kind = .struct := hsound.suits hasked
  obtain ⟨i, rest, hgenerated, hmade⟩ :=
    Declaration.exists_initializer_of_accepted haccepted hd hasked
  obtain ⟨title, members, hfind, hmeans⟩ := hdeclares.exists_struct hkind
  obtain ⟨t, -, hcoded, -⟩ := hdeclares
  obtain ⟨-, hmembers, hpreset⟩ := Initializer.members_of_ofDeclaration hmade
  have hparameters : i.parameters.map (fun p => p.preset.map Expression.assigned) =
      d.members.map fun m => m.preset?.map Expression.assigned := by
    rw [← hmembers, List.map_map]
    exact List.map_congr_left fun p hp => by rw [hpreset p hp]; rfl
  refine ⟨i, rest, t, title, members, hgenerated, hmade, hcoded, hfind,
    hmeans.imp fun _ _ hm => hm.standsFor, fun context => ?_,
    Initializer.map_ident_required hmade hmeans, decodesAsBuilt hd hfind hmeans hgiven hmade⟩
  rw [hparameters]
  have ht := Declaration.ofDeclaration_of_codedType? hcoded
  exact CodedType.substitutes_decodeBody ht hkind hgiven context

end Registry

/-! ## A connection -/

namespace Connection

open Journal (field)

/-- A connection: its host is given, its port has a default, and whether it is open is not coded. -/
def item : Item :=
  ⟨[.marker "codable" [], .marker "member_init" []], [],
    .struct [Make.ident "struct"] (Make.ident "Connection") .none
      (.named [field [] "host" [Make.ident "String"],
        field [.marker "default_value" [Make.literal "80"], .marker "initial" [Make.literal "1"]]
          "port" [Make.ident "u16"],
        field [.marker "initial" [Make.ident "true"], .marker "ignore_coding" []] "open"
          [Make.ident "bool"]] .made) []⟩

/-- The declaration of a connection. -/
def library : Library := ⟨[.ofItem item], Helper.readyMade⟩

/-- The declared type of connections. -/
def types : Registry := library.registry library.plainInstances

/-- The members of a connection. -/
def members : List Member :=
  [⟨"host", "host", 0, true, "host", .string, none, .required, true, none⟩,
    ⟨"port", "port", 1, true, "port", .int .u16, none, .defaulted (.int 80), true,
      some (.int 80)⟩,
    ⟨"open", "open", 2, true, "open", .bool, none, .fixed (.bool true), false,
      some (.bool true)⟩]

set_option maxRecDepth 4000 in
theorem find?_connection : types.find? "Connection" = some (.struct "Connection" members) := by
  have hschemas : types.schemas = [("Connection", .struct "Connection" members)] := rfl
  rw [Registry.find?, hschemas]
  rfl

set_option maxRecDepth 4000 in
theorem declares_connection :
    types.Declares "Connection" (.ofItem item) (library.surroundings (.ofItem item) []) := by
  have hitem : library.find? "Connection" = some (.ofItem item) := rfl
  have hschema : library.schema? "Connection" [] = some (.struct "Connection" members) := rfl
  exact Library.declares hitem hschema find?_connection

/-- The fields of a connection. -/
def host : StoredMember := .ofField 0 (field [] "host" [Make.ident "String"])

def port : StoredMember := .ofField 1
  (field [.marker "default_value" [Make.literal "80"], .marker "initial" [Make.literal "1"]] "port"
    [Make.ident "u16"])

def opened : StoredMember := .ofField 2
  (field [.marker "initial" [Make.ident "true"], .marker "ignore_coding" []] "open"
    [Make.ident "bool"])

theorem members_item : (Declaration.ofItem item).members = [host, port, opened] := rfl

/-- What the code of a connection stands for: variables, truth values and numbers. -/
def values : Evaluation Datum where
  value bound _ code :=
    match code with
    | [.ident name _] => (bound name).getD (.bool (name == "true"))
    | [.literal text _] => .int (Nat.ofDigitChars 10 text.toList 0)
    | _ => .none
  value_variable bound place name x h := by simp [Make.ident, h]

theorem agrees_values :
    values.Agrees (library.surroundings (.ofItem item) []) (Declaration.ofItem item) := by
  have hport : port.preset? = some
      ⟨.literal .int, .literal .int, false, [Make.literal "80"]⟩ := by rfl
  have hopen : opened.preset? = some
      ⟨.literal .bool, .literal .bool, false, [Make.ident "true"]⟩ := by rfl
  intro m hm expression shape y hpreset hshape hy bound hbound
  simp only [members_item, List.mem_cons, List.not_mem_nil, or_false] at hm
  rcases hm with rfl | rfl | rfl
  · cases hpreset
  · obtain rfl := Option.some_inj.mp (hport.symm.trans hpreset)
    obtain rfl : Shape.int .u16 = shape := Option.some_inj.mp hshape
    obtain rfl : Datum.int 80 = y := Option.some_inj.mp hy
    rfl
  · obtain rfl := Option.some_inj.mp (hopen.symm.trans hpreset)
    obtain rfl : Shape.bool = shape := Option.some_inj.mp hshape
    obtain rfl : Datum.bool true = y := Option.some_inj.mp hy
    have hfree : bound "true" = none := by
      rw [Option.eq_none_iff_forall_ne_some]
      intro x hx
      obtain ⟨m, hm, -, hident⟩ := hbound "true" x hx
      have hnames : ∀ m ∈ (Declaration.ofItem item).members, m.ident ≠ "true" := by decide
      exact hnames m hm hident
    show (bound "true").getD (.bool ("true" == "true")) = .bool true
    rw [hfree]
    rfl

theorem given_connection : ∀ m ∈ (Declaration.ofItem item).members, m.GivenAlike := by
  intro m hm
  simp only [members_item, List.mem_cons, List.not_mem_nil, or_false] at hm
  rcases hm with rfl | rfl | rfl
  · exact .taken rfl rfl
  · exact .defaulted rfl
  · exact .unread rfl rfl

/-- An object with a host decodes to what the constructor makes of the host, whatever else it says
about being open. -/
theorem connection_decodes_as_initialized :
    ∃ (i : Initializer) (rest : List Tokens),
      (Declaration.ofItem item).expand.generated = i.tokens :: rest ∧
      types.decode (.named "Connection")
        ⟨.object [("host", .string "db"), ("open", .bool false)], ⟨[]⟩⟩ =
        .ok (.record [.string "db", .int 80, .bool true]) ∧
      Memberwise.create members [.string "db"] = some [.string "db", .int 80, .bool true] ∧
      i.new values [.string "db"] = some [(.name "host", .string "db"), (.name "port", .int 80),
        (.name "open", .bool true)] := by
  have haccepted : (Declaration.ofItem item).expand.outcome = .accepted := by decide +kernel
  have hitem : (Declaration.ofItem item).OfItem := ⟨item, item.attributes, rfl⟩
  obtain ⟨i, rest, t, title, found, hgenerated, -, -, hfind, -, -, -, hbuilt⟩ :=
    Registry.decodes_as_initialized haccepted hitem (by decide +kernel) declares_connection
      given_connection
  rw [find?_connection] at hfind
  obtain ⟨rfl, rfl⟩ : "Connection" = title ∧ members = found := by simpa using hfind
  have hlacks : (Declaration.ofItem item).LacksDefaults
      [("host", .string "db"), ("open", .bool false)] := by
    intro m hm hread hdefault
    simp only [members_item, List.mem_cons, List.not_mem_nil, or_false] at hm
    rcases hm with rfl | rfl | rfl
    · cases hdefault
    · rfl
    · cases hread
  have hread : ReadsAll types.decode [("host", .string "db"), ("open", .bool false)] ⟨[]⟩
      (Memberwise.required members) [.string "db"] := .cons rfl .nil
  obtain ⟨fields, hcreate, hdecode, hnew⟩ := hbuilt.result _ _ hlacks _ hread
  have hfields : fields = [.string "db", .int 80, .bool true] := (Option.some_inj.mp hcreate).symm
  subst hfields
  have hparse : Language.parse Language.item .made item.tokens = .ok item := by rfl
  have hwritten := Declaration.namedAsWritten_of_parse hparse
  have hcode := hnew hwritten (by decide +kernel) values agrees_values
  exact ⟨i, rest, hgenerated, hdecode, hcreate, hcode⟩

end Connection

end KeyedCoding
