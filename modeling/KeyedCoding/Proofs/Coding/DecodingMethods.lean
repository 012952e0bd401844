import KeyedCoding.Proofs.Coding.MethodSemantics
import KeyedCoding.Proofs.Derivation.Initialization

/-!
# Decoding methods do what schemas say

The body of a decoding method and the schema of its type are read off the same coded type.  Here the
body is run: each binding gives what its member decodes to, bindings in a row give what the members
decode to or fail with the first member that fails, and the construction puts every field in its
place.  An enum takes the arm of the variant that its schema takes.
-/

namespace KeyedCoding

open Running (given done)

namespace Running

variable {α β : Type}

@[simp] theorem given_some_bind (a : α) (next : α → Running β) :
    (given (some a) >>= next) = next a := rfl

@[simp] theorem done_ok_bind (a : α) (next : α → Running β) :
    (done (.ok a) >>= next) = next a := rfl

end Running

/-! ## Fields that code can tell apart -/

/-- The fields of a struct or variant as a source can have them: names and positions as the style
has them, and no field called like another one or like a name that an expansion makes up. -/
structure FieldStyle.Separates (style : FieldStyle) (members : List StoredMember) : Prop where
  named : ∀ m ∈ members, m.named = true ↔ style = .named
  unit : style = .unit → members = []
  indices : members.map StoredMember.index = List.range' 0 members.length
  idents : (members.map StoredMember.ident).Nodup
  fresh : ∀ m ∈ members, ∀ use number, m.ident ≠ Context.nameOf use number

namespace FieldStyle.Separates

variable {style : FieldStyle} {members : List StoredMember}

theorem place_of_named (h : Separates .named members) :
    ∀ m ∈ members, m.place = .name m.ident := by
  intro m hm
  rw [StoredMember.place, if_pos ((h.named m hm).mpr rfl)]

theorem place_of_unnamed (h : Separates .unnamed members) :
    ∀ m ∈ members, m.place = .position m.index := by
  intro m hm
  have hnamed : ¬ m.named = true := by
    rw [h.named m hm]
    decide
  rw [StoredMember.place, if_neg hnamed]

/-- Fields are told apart by their places. -/
theorem nodup_places (h : style.Separates members) : (members.map StoredMember.place).Nodup := by
  cases style with
  | named =>
      exact nodup_map_of_eq (fun _ _ heq => FieldPlace.name.inj heq) h.place_of_named h.idents
  | unnamed =>
      refine nodup_map_of_eq (fun _ _ heq => FieldPlace.position.inj heq) h.place_of_unnamed ?_
      rw [h.indices]
      exact List.nodup_range'
  | unit =>
      rw [h.unit rfl]
      exact List.nodup_nil

end FieldStyle.Separates

namespace CodedType

/-- The fields of each form of a type, with their style. -/
def groups (t : CodedType) : List (FieldStyle × List StoredMember) :=
  match t.body with
  | .struct style members => [(style, members.map CodedMember.stored)]
  | .enum cases => cases.map fun c => (c.style, c.members.map CodedMember.stored)

/-- A type whose keys, variants and fields code can tell apart. -/
structure Ordinary (t : CodedType) : Prop where
  keys : (t.keys.entries.map KeyEntry.name).Nodup
  variants : ∀ cases, t.body = .enum cases → (cases.map CodedCase.ident).Nodup
  fields : ∀ group ∈ t.groups, group.1.Separates group.2

end CodedType

/-! ## Members of a schema -/

/-- The helper of a member is the one that its code names, if it names one. -/
inductive Surroundings.Helps (s : Surroundings) : Option Tokens → Option Helper → Prop
  | none : Helps s none none
  | some {path : Tokens} {h : Helper} (hfound : s.helper? path = some h) :
      Helps s (some path) (some h)

/-- What a member of a schema has of the coded member that it stands for. -/
structure CodedMember.MeantBy (s : Surroundings) (m : CodedMember) (x : Member) : Prop where
  key : x.key = m.key.value
  encoded : x.encoded = m.encoded
  shape : s.shape? m.stored.type = some x.shape
  helper : s.Helps m.options.helper x.helper
  source : m.source? s x.shape = some x.source

namespace CodedMember

variable {t : CodedType} {s : Surroundings} {m : CodedMember} {x : Member}

theorem helps_of_helper? {helper : Option Helper} (h : m.helper? s = some helper) :
    s.Helps m.options.helper helper := by
  unfold helper? at h
  cases hpath : m.options.helper with
  | none =>
      rw [hpath] at h
      cases h
      exact .none
  | some path =>
      rw [hpath] at h
      obtain ⟨found, hfound, rfl⟩ := Option.map_eq_some_iff.mp h
      exact .some hfound

theorem meantBy_of_schema? (hx : m.schema? s = some x) : m.MeantBy s x := by
  simp only [schema?, Option.bind_eq_bind, Option.bind_eq_some_iff, Option.some.injEq] at hx
  obtain ⟨shape, hshape, helper, hhelper, source, hsource, preset, -, rfl⟩ := hx
  exact ⟨rfl, rfl, hshape, helps_of_helper? hhelper, hsource⟩

/-- The key that the code of a member names has the text that its schema has. -/
theorem MeantBy.textOf?_keyRef (hx : m.MeantBy s x)
    (hkeys : (t.keys.entries.map KeyEntry.name).Nodup) (hkey : m.key ∈ t.keys.entries) :
    t.keys.textOf? (m.keyRef t.keys.ident) = some x.key := by
  rw [hx.key]
  exact KeyEnum.textOf?_of_mem hkeys hkey

end CodedMember

/-- So has the key of a variant. -/
theorem CodedCase.textOf?_key {t : CodedType} {s : Surroundings} {m : CodedCase} {case : Case}
    (hx : m.schema? s = some case) (hkeys : (t.keys.entries.map KeyEntry.name).Nodup)
    (hkey : m.key ∈ t.keys.entries) :
    t.keys.textOf? ⟨t.keys.ident, m.key.variant⟩ = some case.key := by
  rw [(schema?_eq_some hx).2.1]
  exact KeyEnum.textOf?_of_mem hkeys hkey

/-! ## Bindings -/

section Decoding

variable {t : CodedType} {s : Surroundings} {body : Shape → Decoding Datum}

namespace CodedMember

variable {m : CodedMember} {x : Member} {container : String} {c : KeyedDecoder}

theorem run_fallback (hs : s.Relative) (hread : m.decoded = false) (hx : m.MeantBy s x)
    (scope : Scope DecodeVariable) :
    Reading.run t s body (.fallback m.options.fallback) x.shape scope = done (x.decode body c) := by
  have hsource := hx.source
  rw [source?, hread] at hsource
  obtain ⟨y, hy, hfixed⟩ := Option.map_eq_some_iff.mp hsource
  rw [Reading.run, Surroundings.value?_fallback hs hy, Member.decode_of_fixed hfixed.symm]
  rfl

section Entry

variable {scope : Scope DecodeVariable} {key : KeyRef}

theorem run_required (hread : m.decoded = true) (hdefault : m.options.default = none)
    (hx : m.MeantBy s x) (htext : t.keys.textOf? key = some x.key)
    (hscope : scope.lookup container = some (.container c)) :
    Reading.run t s body (.required container m.options.helper key) x.shape scope =
      done (x.decode body c) := by
  have hsource : x.source = .required := by
    have hsource := hx.source
    simp only [source?, hread, hdefault, if_true, Option.some.injEq] at hsource
    exact hsource.symm
  have hhelper := hx.helper
  simp only [Reading.run, hscope, htext, Option.bind_some, DecodeVariable.container?,
    Running.given_some_bind, Member.decode, hsource]
  generalize m.options.helper = named at hhelper ⊢
  generalize x.helper = helper at hhelper ⊢
  cases hhelper with
  | none => rfl
  | some hfound => simp only [hfound, Running.given_some_bind]

theorem run_defaulted (hs : s.Relative) (hread : m.decoded = true) {e : Expression}
    (hdefault : m.options.default = some e) (hx : m.MeantBy s x)
    (htext : t.keys.textOf? key = some x.key)
    (hscope : scope.lookup container = some (.container c)) (temporary : String) :
    Reading.run t s body (.defaulted container m.options.helper key temporary e.assigned) x.shape
      scope = done (x.decode body c) := by
  have hsource := hx.source
  simp only [source?, hread, hdefault, if_true] at hsource
  obtain ⟨y, hy, hsource⟩ := Option.map_eq_some_iff.mp hsource
  have hhelper := hx.helper
  simp only [Reading.run, hscope, htext, Option.bind_some, DecodeVariable.container?,
    Running.given_some_bind, Surroundings.value?_assigned hs hy, Member.decode, ← hsource]
  generalize m.options.helper = named at hhelper ⊢
  generalize x.helper = helper at hhelper ⊢
  cases hhelper with
  | none => rcases c.decodeIfPresent (body x.shape) x.key with _ | _ | _ <;> rfl
  | @some path h hfound =>
      simp only [hfound, Option.map_some, Running.given_some_bind]
      rcases c.decodeIfPresent h.decode x.key with _ | _ | _ <;> rfl

end Entry

/-- The code that a member is bound to gives what the member decodes to. -/
theorem run_reading (hs : s.Relative) (hkeys : (t.keys.entries.map KeyEntry.name).Nodup)
    (hkey : m.coded = true → m.key ∈ t.keys.entries) (hx : m.MeantBy s x)
    {scope : Scope DecodeVariable} (hscope : scope.lookup container = some (.container c))
    (context : Context) :
    (m.binding t.keys.ident container context).1.reading.run t s body x.shape scope =
      done (x.decode body c) := by
  unfold binding
  cases hread : m.decoded with
  | false => exact run_fallback hs hread hx scope
  | true =>
      have htext := hx.textOf?_keyRef hkeys (hkey (coded_of_decoded_or_encoded (.inl hread)))
      cases hdefault : m.options.default with
      | none => exact run_required hread hdefault hx htext hscope
      | some e => exact run_defaulted hs hread hdefault hx htext hscope _

theorem binding_eq (keys container : String) (m : CodedMember) (context : Context) :
    (m.binding keys container context).1 =
      ⟨m.stored.ident, m.stored.type, (m.binding keys container context).1.reading⟩ := by
  unfold binding
  cases m.decoded <;> cases m.options.default <;> rfl

theorem run_binding (hs : s.Relative) (hkeys : (t.keys.entries.map KeyEntry.name).Nodup)
    (hkey : m.coded = true → m.key ∈ t.keys.entries) (hx : m.MeantBy s x)
    {scope : Scope DecodeVariable} (hscope : scope.lookup container = some (.container c))
    (context : Context) :
    (m.binding t.keys.ident container context).1.run t s body scope =
      done ((x.decode body c).map fun y => (m.stored.ident, .datum y) :: scope) := by
  rw [binding_eq]
  simp only [Binding.run, hx.shape, Running.given_some_bind,
    run_reading hs hkeys hkey hx hscope context]
  cases x.decode body c <;> rfl

/-- Members with the data that they are bound to, the last one first. -/
def boundScope (members : List CodedMember) (ys : List Datum) : Scope DecodeVariable :=
  ((members.zip ys).map fun e => (e.1.stored.ident, .datum e.2)).reverse

/-- Bindings give what the members decode to, or fail with the first member that fails. -/
theorem runAll_bindings (hs : s.Relative) (hkeys : (t.keys.entries.map KeyEntry.name).Nodup)
    {members : List CodedMember} {xs : List Member}
    (hxs : List.Forall₂ (fun m x => schema? s m = some x) members xs)
    (hdeclared : KeysDeclared t.keys members)
    (hfresh : ∀ m ∈ members, m.stored.ident ≠ container)
    {scope : Scope DecodeVariable} (hscope : scope.lookup container = some (.container c))
    (context : Context) :
    Binding.runAll t s body (bindings t.keys.ident container members context).1 scope =
      done ((decodeMembers body c xs).map fun ys => boundScope members ys ++ scope) := by
  -- Each binding adds a name and may draw one, so the induction is about every scope and state.
  induction hxs generalizing scope context with
  | nil => rfl
  | @cons m x members xs hx _ ih =>
      rw [List.forall_mem_cons] at hfresh
      have hfirst : (m.binding t.keys.ident container context).1.run t s body scope =
          done ((x.decode body c).map fun y => (m.stored.ident, .datum y) :: scope) :=
        run_binding hs hkeys (hdeclared m List.mem_cons_self) (meantBy_of_schema? hx) hscope context
      have hrest : ∀ y, Binding.runAll t s body
          (bindings t.keys.ident container members (m.binding t.keys.ident container context).2).1
          ((m.stored.ident, .datum y) :: scope) =
          done ((decodeMembers body c xs).map fun ys =>
            boundScope members ys ++ (m.stored.ident, .datum y) :: scope) := by
        intro y
        refine ih (fun m' hm' => hdeclared m' (List.mem_cons_of_mem _ hm')) hfresh.2 ?_ _
        rw [lookup_cons_of_ne hfresh.1.symm]
        exact hscope
      show (m.binding t.keys.ident container context).1.run t s body scope >>= _ = _
      rw [hfirst]
      simp only [decodeMembers]
      cases x.decode body c with
      | error e => rfl
      | ok y =>
          refine (hrest y).trans ?_
          cases decodeMembers body c xs with
          | error e => rfl
          | ok ys => simp [Except.map, bind, Except.bind, boundScope]

end CodedMember

/-! ## Constructions -/

namespace CodedMember

variable {members : List CodedMember} {style : FieldStyle}

theorem filled_construction (path : Tokens)
    (h : style.Separates (members.map stored)) :
    (construction path style members).filled =
      members.map fun m => (m.stored.place, m.stored.ident) := by
  cases style with
  | named =>
      simp only [Construction.filled, construction, List.map_map]
      refine List.map_congr_left fun m hm => ?_
      rw [h.place_of_named m.stored (List.mem_map_of_mem hm)]
      rfl
  | unnamed =>
      have hnumbered : (members.map fun m => m.stored.ident).zipIdx =
          members.map fun m => (m.stored.ident, m.stored.index) := by
        have hindices := h.indices
        rw [List.map_map, List.length_map] at hindices
        exact zipIdx_map_of_range' hindices
      simp only [Construction.filled, construction, hnumbered, List.map_map]
      refine List.map_congr_left fun m hm => ?_
      rw [h.place_of_unnamed m.stored (List.mem_map_of_mem hm)]
      rfl
  | unit =>
      obtain rfl := List.map_eq_nil_iff.mp (h.unit rfl)
      rfl

/-- Bound members are found in their scope. -/
theorem lookup_boundScope (h : style.Separates (members.map stored)) {ys : List Datum}
    (hlength : members.length = ys.length) (scope : Scope DecodeVariable) {e : CodedMember × Datum}
    (he : e ∈ members.zip ys) :
    (boundScope members ys ++ scope).lookup e.1.stored.ident = some (.datum e.2) := by
  have hidents : ((members.zip ys).reverse.map fun e => e.1.stored.ident).Nodup := by
    have hnodup := h.idents
    rw [List.map_map, map_eq_map_zip hlength] at hnodup
    rw [List.map_reverse, List.nodup_reverse]
    exact hnodup
  have hfound : (boundScope members ys).lookup e.1.stored.ident = some (.datum e.2) := by
    rw [boundScope, ← List.map_reverse]
    exact lookup_map_of_nodup hidents (List.mem_reverse.mpr he)
  rw [List.lookup_append, hfound, Option.some_or]

theorem values?_construction (path : Tokens) (h : style.Separates (members.map stored))
    {ys : List Datum} (hlength : members.length = ys.length) (scope : Scope DecodeVariable) :
    (construction path style members).values? (boundScope members ys ++ scope) =
      some ((members.zip ys).map fun e => (e.1.stored.place, e.2)) := by
  rw [Construction.values?, filled_construction path h, map_eq_map_zip hlength, List.mapM_map]
  refine mapM_eq_some_map fun e he => ?_
  simp only [Function.comp_apply, lookup_boundScope h hlength scope he]
  rfl

/-- A construction from bound members has the data that they are bound to, in order. -/
theorem run_construction {path : Tokens} {form : Form} (hpath : Form.ofPath? path = some form)
    (hfields : t.fieldsOf? form = some (members.map stored))
    (h : style.Separates (members.map stored)) {ys : List Datum}
    (hlength : members.length = ys.length) (scope : Scope DecodeVariable) :
    (construction path style members).run t (boundScope members ys ++ scope) =
      some (form.datum ys) := by
  have hvalues := values?_construction path h hlength scope
  have hplaces : ((members.zip ys).map fun e => e.1.stored.place).Nodup := by
    have hnodup := h.nodup_places
    rw [List.map_map, map_eq_map_zip hlength] at hnodup
    exact hnodup
  have hread : FieldValues.inOrder? ((members.zip ys).map fun e => (e.1.stored.place, e.2))
      (members.map stored) = some ys := by
    rw [FieldValues.inOrder?, if_pos (by simp [hlength]), map_eq_map_zip hlength, List.mapM_map]
    refine (mapM_eq_some_map fun e he => lookup_map_of_nodup hplaces he).trans ?_
    rw [List.map_snd_zip (Nat.le_of_eq hlength.symm)]
  show (Form.ofPath? path).bind _ = _
  rw [hpath, Option.bind_some, hfields, Option.bind_eq_bind, Option.bind_some]
  show ((construction path style members).values? _).bind _ = _
  rw [hvalues, Option.bind_some]
  show (FieldValues.inOrder? _ _).bind _ = _
  rw [hread]
  rfl

end CodedMember

/-! ## Bodies -/

theorem openReading_eq {scope : Scope DecodeVariable} {decoder : String} {d : Decoder}
    (hscope : scope.lookup decoder = some (.decoder d)) (container : String) :
    openReading t container decoder t.keys.ident scope =
      done (d.container.map fun c => (container, .container c) :: scope) := by
  simp only [openReading, hscope, Option.bind_some, DecodeVariable.decoder?, if_true,
    Running.given_some_bind]
  cases d.container <;> rfl

namespace CodedMember

variable {members : List CodedMember} {xs : List Member} {style : FieldStyle}

/-- Bindings with a construction behind them decode the fields of a form. -/
theorem run_fields (hs : s.Relative) (hkeys : (t.keys.entries.map KeyEntry.name).Nodup)
    (hxs : List.Forall₂ (fun m x => schema? s m = some x) members xs)
    (hdeclared : KeysDeclared t.keys members) (h : style.Separates (members.map stored))
    {path : Tokens} {form : Form} (hpath : Form.ofPath? path = some form)
    (hfields : t.fieldsOf? form = some (members.map stored)) {use : String} {number : Nat}
    {scope : Scope DecodeVariable} {c : KeyedDecoder}
    (hscope : scope.lookup (Context.nameOf use number) = some (.container c)) (context : Context) :
    (Binding.runAll t s body
        (bindings t.keys.ident (Context.nameOf use number) members context).1 scope >>=
      fun scope => given ((construction path style members).run t scope)) =
      done ((decodeMembers body c xs).map form.datum) := by
  have hfresh : ∀ m ∈ members, m.stored.ident ≠ Context.nameOf use number := fun m hm =>
    h.fresh m.stored (List.mem_map_of_mem hm) use number
  rw [runAll_bindings hs hkeys hxs hdeclared hfresh hscope context]
  cases hrun : decodeMembers body c xs with
  | error e => rfl
  | ok ys =>
      have hlength : members.length = ys.length :=
        hxs.length_eq.trans (decodeMembers_eq_ok_iff.mp hrun).length_eq
      show given ((construction path style members).run t (boundScope members ys ++ scope)) = _
      rw [run_construction hpath hfields h hlength]
      rfl

end CodedMember

/-- What an enum makes of the entry of a variant. -/
def Case.decodePayload (body : Shape → Decoding Datum) (case : Case) (c : KeyedDecoder) :
    Except CodingError Datum := do
  let payload ← c.nested case.key
  let inner ← payload.container
  let fields ← decodeMembers body inner case.members
  .ok (.variant case.ident fields)

namespace CodedCase

/-- The arm of a variant decodes its payload. -/
theorem run_decodeArm (hs : s.Relative) (hkeys : (t.keys.entries.map KeyEntry.name).Nodup)
    {m : CodedCase} {case : Case} (hx : m.schema? s = some case) (hkey : m.key ∈ t.keys.entries)
    (hdeclared : CodedMember.KeysDeclared t.keys m.members)
    (h : m.style.Separates (m.members.map CodedMember.stored))
    (hfields : t.fieldsOf? (.variant m.ident) = some (m.members.map CodedMember.stored))
    {outer : String} {scope : Scope DecodeVariable} {c : KeyedDecoder}
    (hscope : scope.lookup outer = some (.container c)) (context : Context) :
    (m.decodeArm t.keys.ident context).1.run t s body outer t.keys.ident scope =
      done (case.decodePayload body c) := by
  obtain ⟨hident, -, hxs⟩ := schema?_eq_some hx
  have hfound := textOf?_key hx hkeys hkey
  let decoder := Context.nameOf "decoder" context.nextName
  let container := Context.nameOf "container" (context.nextName + 1)
  have hopen : ∀ d : Decoder,
      openReading t container decoder t.keys.ident ((decoder, .decoder d) :: scope) =
      done (d.container.map fun inner =>
        (container, .container inner) :: (decoder, .decoder d) :: scope) := fun d =>
    openReading_eq List.lookup_cons_self container
  have hrest : ∀ (d : Decoder) (inner : KeyedDecoder), (Binding.runAll t s body
        (CodedMember.bindings t.keys.ident container m.members
          { context with nextName := context.nextName + 2 }).1
        ((container, .container inner) :: (decoder, .decoder d) :: scope) >>= fun scope =>
      given ((CodedMember.construction m.path m.style m.members).run t scope)) =
      done ((decodeMembers body inner case.members).map (Form.variant m.ident).datum) :=
    fun d inner => CodedMember.run_fields hs hkeys hxs hdeclared h rfl hfields
      List.lookup_cons_self _
  have harm : (m.decodeArm t.keys.ident context).1 =
      ⟨m.key.value, ⟨t.keys.ident, m.key.variant⟩, decoder, container,
        (CodedMember.bindings t.keys.ident container m.members
          { context with nextName := context.nextName + 2 }).1,
        CodedMember.construction m.path m.style m.members⟩ := rfl
  simp only [harm, DecodeArm.run, hscope, hfound, Option.bind_some, DecodeVariable.container?,
    Running.given_some_bind, Case.decodePayload]
  cases c.nested case.key with
  | error e => rfl
  | ok d =>
      simp only [Running.done_ok_bind, hopen]
      show _ = done (d.container >>= fun inner => decodeMembers body inner case.members >>=
        fun fields => Except.ok (Datum.variant case.ident fields))
      cases d.container with
      | error e => rfl
      | ok inner =>
          refine (hrest d inner).trans ?_
          rw [hident]
          show _ = done (decodeMembers body inner case.members >>= fun fields =>
            Except.ok (Datum.variant m.ident fields))
          cases decodeMembers body inner case.members <;> rfl

/-- An arm does what the schema does for its variant, wherever the container of the value is. -/
def DecodesAs (t : CodedType) (s : Surroundings) (body : Shape → Decoding Datum) (outer : String)
    (a : DecodeArm) (case : Case) : Prop :=
  a.text = case.key ∧ ∀ scope c, List.lookup outer scope = some (.container c) →
    a.run t s body outer t.keys.ident scope = done (case.decodePayload body c)

theorem forall₂_decodeArms (hs : s.Relative) (hkeys : (t.keys.entries.map KeyEntry.name).Nodup)
    {ms : List CodedCase} {cases : List Case}
    (hxs : List.Forall₂ (fun m x => schema? s m = some x) ms cases)
    (hdeclared : KeysDeclared t.keys ms)
    (h : ∀ m ∈ ms, m.style.Separates (m.members.map CodedMember.stored))
    (hfields : ∀ m ∈ ms,
      t.fieldsOf? (.variant m.ident) = some (m.members.map CodedMember.stored))
    (outer : String) (context : Context) :
    List.Forall₂ (DecodesAs t s body outer) (decodeArms t.keys.ident ms context).1 cases := by
  -- Arms draw names, so the induction is about every state.
  induction hxs generalizing context with
  | nil => exact .nil
  | @cons m case ms cases hx _ ih =>
      rw [List.forall_mem_cons] at h hfields
      obtain ⟨hkey, hmembers⟩ := hdeclared m List.mem_cons_self
      refine .cons ⟨(schema?_eq_some hx).2.1.symm, fun scope c hscope => ?_⟩
        (ih (fun m' hm' => hdeclared m' (List.mem_cons_of_mem _ hm')) h.2 hfields.2 _)
      exact run_decodeArm hs hkeys hx hkey hmembers h.1 hfields.1 hscope context

end CodedCase

namespace CodedType

theorem separates_of_struct (ht : t.Ordinary) {style : FieldStyle} {members : List CodedMember}
    (hbody : t.body = .struct style members) :
    style.Separates (members.map CodedMember.stored) :=
  ht.fields (style, members.map CodedMember.stored) (by simp [groups, hbody])

theorem separates_of_enum (ht : t.Ordinary) {cases : List CodedCase}
    (hbody : t.body = .enum cases) :
    ∀ m ∈ cases, m.style.Separates (m.members.map CodedMember.stored) := by
  intro m hm
  refine ht.fields (m.style, m.members.map CodedMember.stored) ?_
  simp only [groups, hbody, List.mem_map]
  exact ⟨m, hm, rfl⟩

theorem fieldsOf?_of_struct {style : FieldStyle} {members : List CodedMember}
    (hbody : t.body = .struct style members) :
    t.fieldsOf? .record = some (members.map CodedMember.stored) := by
  simp only [fieldsOf?, hbody]

theorem fieldsOf?_of_enum {cases : List CodedCase} (hbody : t.body = .enum cases)
    (hvariants : (cases.map CodedCase.ident).Nodup) {m : CodedCase} (hm : m ∈ cases) :
    t.fieldsOf? (.variant m.ident) = some (m.members.map CodedMember.stored) := by
  simp only [fieldsOf?, hbody, find?_key_of_nodup hvariants hm, Option.map_some]

/-- The decoding method of a struct binds its fields and puts them together. -/
theorem run_decodeBody_struct (hs : s.Relative) (ht : t.Ordinary) {style : FieldStyle}
    {members : List CodedMember} (hbody : t.body = .struct style members) {xs : List Member}
    (hxs : List.Forall₂ (fun m x => CodedMember.schema? s m = some x) members xs) (title : String)
    (d : Decoder) (context : Context) :
    (t.decodeBody context).1.run t s body d = done ((Schema.struct title xs).decode body d) := by
  have hform := fieldsOf?_of_struct hbody
  have hseparates := separates_of_struct ht hbody
  let container := Context.nameOf "container" context.nextName
  have hcode : (t.decodeBody context).1 = .struct container t.keys.ident
      (CodedMember.bindings t.keys.ident container members
        { context with nextName := context.nextName + 1 }).1
      (CodedMember.construction [Make.ident "Self"] style members) := by
    unfold decodeBody
    simp only [hbody]
    rfl
  rw [hcode, DecodeBody.run, openReading_eq List.lookup_cons_self, Schema.decode]
  cases d.container with
  | error e => rfl
  | ok c =>
      refine (CodedMember.run_fields hs ht.keys hxs (keysDeclared_of_struct hbody) hseparates rfl
        hform List.lookup_cons_self _).trans ?_
      show _ = done (decodeMembers body c xs >>= fun fields => Except.ok (Datum.record fields))
      cases decodeMembers body c xs <;> rfl

/-- The decoding method of an enum takes the arm of the variant that the only key names. -/
theorem run_decodeBody_enum (hs : s.Relative) (ht : t.Ordinary) {ms : List CodedCase}
    (hbody : t.body = .enum ms) {cases : List Case}
    (hxs : List.Forall₂ (fun m x => CodedCase.schema? s m = some x) ms cases) (title : String)
    (d : Decoder) (context : Context) :
    (t.decodeBody context).1.run t s body d = done ((Schema.enum title cases).decode body d) := by
  have hseparates := separates_of_enum ht hbody
  have hfields : ∀ m ∈ ms,
      t.fieldsOf? (.variant m.ident) = some (m.members.map CodedMember.stored) := fun m hm =>
    fieldsOf?_of_enum hbody (ht.variants ms hbody) hm
  let container := Context.nameOf "container" context.nextName
  let tag := Context.nameOf "tag" (context.nextName + 1)
  have hcode : (t.decodeBody context).1 = .enum container t.keys.ident tag
      (CodedCase.decodeArms t.keys.ident ms
        { context with nextName := context.nextName + 2 }).1 := by
    unfold decodeBody
    simp only [hbody]
    rfl
  have harms : List.Forall₂ (CodedCase.DecodesAs t s body container)
      (CodedCase.decodeArms t.keys.ident ms { context with nextName := context.nextName + 2 }).1
      cases :=
    CodedCase.forall₂_decodeArms hs ht.keys hxs (keysDeclared_of_enum hbody) hseparates hfields
      container _
  have htexts : cases.map Case.key = (CodedCase.decodeArms t.keys.ident ms
      { context with nextName := context.nextName + 2 }).1.map DecodeArm.text :=
    map_eq_map_of_forall₂ (harms.imp fun _ _ h => h.1.symm)
  -- only the last arm binds the tag, and not over the container
  have htag : container ≠ tag := fun heq =>
    absurd (Context.number_eq_of_nameOf_eq heq) (by omega)
  rw [hcode, DecodeBody.run, openReading_eq List.lookup_cons_self, Schema.decode]
  cases d.container with
  | error e => rfl
  | ok c =>
      simp only [Except.map, Running.done_ok_bind, List.lookup_cons_self, Option.bind_some,
        DecodeVariable.container?, Running.given_some_bind]
      show _ = done (c.singleKey >>= fun text => _)
      cases c.singleKey with
      | error e => rfl
      | ok text =>
          have hfound : Option.Rel (CodedCase.DecodesAs t s body container)
              ((CodedCase.decodeArms t.keys.ident ms
                { context with nextName := context.nextName + 2 }).1.find? fun a => a.text == text)
              (cases.find? fun case => case.key == text) :=
            find?_rel_of_forall₂ (harms.imp fun _ _ h => ⟨h, by rw [h.1]⟩)
          have hread : ∀ next : String → Except CodingError Datum,
              (Except.ok text >>= next) = next text := fun _ => rfl
          simp only [Running.done_ok_bind, hread]
          rw [htexts]
          generalize List.find? _ (CodedCase.decodeArms _ _ _).1 = arm at hfound ⊢
          generalize cases.find? _ = case at hfound ⊢
          cases hfound with
          | some h => exact h.2 _ c List.lookup_cons_self
          | none =>
              simp only [lookup_cons_of_ne htag, List.lookup_cons_self, Option.bind_some,
                DecodeVariable.container?, DecodeVariable.text?, Running.given_some_bind]

/-- The body of a decoding method does what the schema of the type says, on every decoder. -/
theorem run_decodeBody (hs : s.Relative) (ht : t.Ordinary) {schema : Schema}
    (hschema : t.schema? s = some schema) (d : Decoder) (context : Context) :
    (t.decodeBody context).1.run t s body d = done (schema.decode body d) := by
  unfold schema? at hschema
  cases hbody : t.body with
  | struct style members =>
      simp only [hbody, Option.bind_eq_bind, Option.bind_eq_some_iff, Option.some.injEq] at hschema
      obtain ⟨xs, hxs, rfl⟩ := hschema
      exact run_decodeBody_struct hs ht hbody (forall₂_of_mapM_some hxs) t.ident d context
  | enum cases =>
      simp only [hbody, Option.bind_eq_bind, Option.bind_eq_some_iff, Option.some.injEq] at hschema
      obtain ⟨xs, hxs, rfl⟩ := hschema
      exact run_decodeBody_enum hs ht hbody (forall₂_of_mapM_some hxs) t.ident d context

end CodedType

end Decoding

end KeyedCoding
