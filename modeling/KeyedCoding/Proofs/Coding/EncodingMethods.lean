import KeyedCoding.Proofs.Coding.DecodingMethods
import KeyedCoding.Proofs.Coding.Typing

/-!
# Encoding methods do what schemas say

The body of an encoding method is run here on a value.  A struct writes its fields by way of the
value itself, an enum by way of the names that a pattern binds; either way each entry that is
written is that of its member, and members that are not written have no statement in the body.
-/

namespace KeyedCoding

section Encoding

variable {t : CodedType} {s : Surroundings} {body : Shape → Datum → Encoding Unit}

/-! ## Fields of a value -/

/-- The members of a form with the data that a value has for them. -/
abbrev Row := CodedMember × Member × Datum

/-- The fields of a value with their shapes. -/
def typedRows (rows : List Row) : FieldValues (Shape × Datum) :=
  rows.map fun e => (e.1.stored.place, e.2.1.shape, e.2.2)

namespace CodedMember

variable {members : List CodedMember} {xs : List Member} {ys : List Datum} {style : FieldStyle}

theorem length_eq_zip (hxs : List.Forall₂ (fun m x => schema? s m = some x) members xs)
    (hlength : xs.length = ys.length) : members.length = (xs.zip ys).length := by
  rw [List.length_zip, hxs.length_eq, ← hlength, Nat.min_self]

theorem typedFields?_eq {form : Form} (hform : t.fieldsOf? form = some (members.map stored))
    (hxs : List.Forall₂ (fun m x => schema? s m = some x) members xs)
    (hlength : xs.length = ys.length) :
    typedFields? t s form ys = some (typedRows (members.zip (xs.zip ys))) := by
  have hcount : (members.map stored).length = ys.length := by
    rw [List.length_map, hxs.length_eq, hlength]
  rw [typedFields?, hform, Option.bind_eq_bind, Option.bind_some, if_pos hcount]
  clear hform hcount
  induction hxs generalizing ys with
  | nil => rfl
  | @cons m x members xs hx _ ih =>
      cases ys with
      | nil => cases hlength
      | cons y ys =>
          have hrest := ih (Nat.succ.inj hlength)
          rw [List.map_cons, List.zip_cons_cons, List.mapM_cons, hrest,
            (meantBy_of_schema? hx).shape]
          rfl

/-- Different members of a form have different fields. -/
theorem lookup_typedRows (h : style.Separates (members.map stored))
    (hlength : members.length = (xs.zip ys).length) {e : Row} (he : e ∈ members.zip (xs.zip ys)) :
    (typedRows (members.zip (xs.zip ys))).lookup e.1.stored.place =
      some (e.2.1.shape, e.2.2) := by
  have hplaces := h.nodup_places
  rw [List.map_map, map_eq_map_zip hlength] at hplaces
  exact lookup_map_of_nodup hplaces he

end CodedMember

theorem operand?_accessor (fields : FieldValues (Shape × Datum)) (scope : Scope EncodeVariable)
    (m : StoredMember) :
    operand? fields scope (Make.op "&" ++ Make.ident "self" :: Make.op "." ++ m.accessor) =
      fields.lookup m.place := by
  unfold StoredMember.accessor StoredMember.place
  cases m.named with
  | true => rfl
  | false =>
      have hindex : Nat.ofDigitChars 10 (toString m.index).toList 0 = m.index := by
        simp [Nat.toString_eq_repr, Nat.toList_repr]
      show fields.lookup (.position (Nat.ofDigitChars 10 (toString m.index).toList 0)) = _
      rw [hindex]
      rfl

/-! ## Writings -/

namespace CodedMember

variable {members : List CodedMember} {xs : List Member} {ys : List Datum} {style : FieldStyle}
  {container : String} {fields : FieldValues (Shape × Datum)} {scope : Scope EncodeVariable}

/-- The entry of a member that is written is what the schema writes for it. -/
theorem run_writing (hkeys : (t.keys.entries.map KeyEntry.name).Nodup) {m : CodedMember}
    {x : Member} {y : Datum} {access : Tokens} (hwritten : m.encoded = true)
    (hkey : m.key ∈ t.keys.entries) (hx : m.MeantBy s x)
    (hscope : (scope.lookup container).any EncodeVariable.isContainer = true)
    (haccess : operand? fields scope access = some (x.shape, y)) :
    Writing.run t s body fields
        ⟨container, m.options.helper, m.stored.ident, access, m.keyRef t.keys.ident⟩ scope =
      some (x.encode body y) := by
  have htext := hx.textOf?_keyRef hkeys hkey
  have hencoded : x.encoded = true := hx.encoded.trans hwritten
  have hhelper := hx.helper
  rw [Writing.run, if_pos hscope]
  simp only [htext, haccess, Option.bind_eq_bind, Option.bind_some, Member.encode, hencoded,
    if_true]
  generalize m.options.helper = named at hhelper ⊢
  generalize x.helper = helper at hhelper ⊢
  cases hhelper with
  | none => rfl
  | some hfound => simp only [hfound, Option.map_some, Option.bind_some]

/-- The entries of the members that are written are what the schema writes. -/
theorem runAll_writings (hkeys : (t.keys.entries.map KeyEntry.name).Nodup)
    (hxs : List.Forall₂ (fun m x => schema? s m = some x) members xs)
    (hdeclared : KeysDeclared t.keys members) (hlength : xs.length = ys.length)
    (hscope : (scope.lookup container).any EncodeVariable.isContainer = true)
    {access : CodedMember → Tokens}
    (haccess : ∀ e ∈ members.zip (xs.zip ys), e.1.encoded = true →
      operand? fields scope (access e.1) = some (e.2.1.shape, e.2.2)) :
    Writing.runAll t s body fields scope (writings t.keys.ident container access members) =
      some (encodeMembers body xs ys) := by
  induction hxs generalizing ys with
  | nil => cases ys <;> rfl
  | @cons m x members xs hx _ ih =>
      cases ys with
      | nil => cases hlength
      | cons y ys =>
          rw [List.zip_cons_cons, List.zip_cons_cons, List.forall_mem_cons] at haccess
          have hrest := ih (fun m' hm' => hdeclared m' (List.mem_cons_of_mem _ hm'))
            (Nat.succ.inj hlength) haccess.2
          have hencoded := (schema?_eq_some hx).2
          cases hwritten : m.encoded with
          | false =>
              have hnone : x.encode body y = pure () := by
                rw [Member.encode, hencoded, hwritten]
                rfl
              have hskip : writings t.keys.ident container access (m :: members) =
                  writings t.keys.ident container access members := by
                simp [writings, hwritten]
              rw [hskip, hrest, encodeMembers, hnone, pure_bind]
          | true =>
              have hkey := hdeclared m List.mem_cons_self
                (coded_of_decoded_or_encoded (.inr hwritten))
              have hfirst : Writing.run t s body fields ⟨container, m.options.helper,
                  m.stored.ident, access m, m.keyRef t.keys.ident⟩ scope =
                    some (x.encode body y) :=
                run_writing hkeys hwritten hkey (meantBy_of_schema? hx) hscope
                  (haccess.1 hwritten)
              have htake : writings t.keys.ident container access (m :: members) =
                  ⟨container, m.options.helper, m.stored.ident, access m, m.keyRef t.keys.ident⟩
                    :: writings t.keys.ident container access members := by
                simp [writings, hwritten]
              rw [htake, Writing.runAll, hfirst, hrest]
              rfl

/-! ## Patterns -/

/-- A pattern binds the members that are written. -/
theorem binders_pattern (path : Tokens) (h : style.Separates (members.map stored)) :
    (pattern path style members).binders =
      (members.filter encoded).map fun m => (m.stored.place, m.stored.ident) := by
  have hmem : ∀ m ∈ members.filter encoded, m.stored ∈ members.map stored := fun m hm =>
    List.mem_map_of_mem (List.mem_of_mem_filter hm)
  cases style with
  | named =>
      simp only [CasePattern.binders, CasePattern.bound, pattern, List.filter_map, List.map_map]
      refine List.map_congr_left fun m hm => ?_
      rw [h.place_of_named m.stored (hmem m hm)]
      rfl
  | unnamed =>
      have hindices := h.indices
      rw [List.map_map, List.length_map] at hindices
      have hnumbered : (members.map fun m => (m.stored.ident, m.encoded)).zipIdx =
          members.map fun m => ((m.stored.ident, m.encoded), m.stored.index) :=
        zipIdx_map_of_range' hindices
      simp only [CasePattern.binders, pattern, hnumbered, List.filter_map, List.map_map]
      refine List.map_congr_left fun m hm => ?_
      rw [h.place_of_unnamed m.stored (hmem m hm)]
      rfl
  | unit =>
      obtain rfl := List.map_eq_nil_iff.mp (h.unit rfl)
      rfl

/-- What a pattern binds, in the order of the fields. -/
def boundFields (rows : List Row) : Scope EncodeVariable :=
  (rows.filter fun e => e.1.encoded).map fun e => (e.1.stored.ident, .field e.2.1.shape e.2.2)

theorem bindTo_pattern (path : Tokens) (h : style.Separates (members.map stored))
    (hcount : members.length = (xs.zip ys).length) :
    (pattern path style members).bindTo (typedRows (members.zip (xs.zip ys))) =
      some (boundFields (members.zip (xs.zip ys))) := by
  have hbinders : (pattern path style members).binders =
      ((members.zip (xs.zip ys)).filter fun e => e.1.encoded).map fun e =>
        (e.1.stored.place, e.1.stored.ident) := by
    rw [binders_pattern path h]
    nth_rewrite 1 [← List.map_fst_zip (Nat.le_of_eq hcount)]
    rw [List.filter_map, List.map_map]
    rfl
  rw [CasePattern.bindTo, hbinders, List.mapM_map]
  refine mapM_eq_some_map fun e he => ?_
  simp only [Function.comp_apply, lookup_typedRows h hcount (List.mem_of_mem_filter he),
    Option.map_some]

/-- A pattern of the form of a value binds those of its fields that are written. -/
theorem run_pattern {path : Tokens} {form : Form} (hpath : Form.ofPath? path = some form)
    (hform : t.fieldsOf? form = some (members.map stored))
    (h : style.Separates (members.map stored))
    (hxs : List.Forall₂ (fun m x => schema? s m = some x) members xs)
    (hlength : xs.length = ys.length) :
    (pattern path style members).run t s (form.datum ys) =
      some (boundFields (members.zip (xs.zip ys))) := by
  have hfields := typedFields?_eq hform hxs hlength
  have hcount := length_eq_zip hxs hlength
  have hslots : (pattern path style members).slots.length =
      (typedRows (members.zip (xs.zip ys))).length := by
    simp [pattern, typedRows, hcount]
  show (Form.ofPath? path).bind _ = _
  rw [hpath, Option.bind_some]
  show (form.fields? (form.datum ys)).bind _ = _
  rw [Form.fields?_datum, Option.bind_some]
  show (typedFields? t s form ys).bind _ = _
  rw [hfields, Option.bind_some, if_pos hslots, bindTo_pattern path h hcount]

end CodedMember

/-! ## Bodies -/

theorem openWriting_eq {scope : Scope EncodeVariable} {encoder : String}
    (hscope : (scope.lookup encoder).any EncodeVariable.isEncoder = true) (container : String) :
    openWriting t container encoder t.keys.ident scope =
      some ((container, .container) :: scope) := by
  rw [openWriting, if_pos ⟨rfl, hscope⟩]

/-- What an enum writes for a variant with given fields. -/
def Case.encodePayload (body : Shape → Datum → Encoding Unit) (case : Case) (ys : List Datum) :
    Encoding Unit :=
  Encoding.nested case.key do
    Encoding.container
    encodeMembers body case.members ys

namespace CodedMember

variable {members : List CodedMember} {xs : List Member} {ys : List Datum} {style : FieldStyle}

/-- Names that an expansion makes up are not bound by a pattern. -/
theorem lookup_boundFields_fresh (h : style.Separates (members.map stored)) (use : String)
    (number : Nat) :
    (boundFields (members.zip (xs.zip ys))).lookup (Context.nameOf use number) = none := by
  rw [List.lookup_eq_none_iff]
  intro e he
  obtain ⟨row, hrow, rfl⟩ := List.mem_map.mp he
  have hmem : row.1 ∈ members := (List.of_mem_zip (List.mem_of_mem_filter hrow)).1
  have hne := h.fresh row.1.stored (List.mem_map_of_mem hmem) use number
  simpa using hne.symm

/-- Members that are written are found in the scope of their pattern. -/
theorem lookup_boundFields (h : style.Separates (members.map stored))
    (hcount : members.length = (xs.zip ys).length) {e : Row} (he : e ∈ members.zip (xs.zip ys))
    (hwritten : e.1.encoded = true) :
    (boundFields (members.zip (xs.zip ys))).lookup e.1.stored.ident =
      some (.field e.2.1.shape e.2.2) := by
  have hidents := h.idents
  rw [List.map_map, map_eq_map_zip hcount] at hidents
  have hnodup : (((members.zip (xs.zip ys)).filter fun e => e.1.encoded).map fun e =>
      e.1.stored.ident).Nodup := hidents.sublist (List.filter_sublist.map _)
  exact lookup_map_of_nodup hnodup (List.mem_filter.mpr ⟨he, hwritten⟩)

end CodedMember

namespace CodedCase

/-- The arm of a variant writes its payload. -/
theorem run_encodeArm (hkeys : (t.keys.entries.map KeyEntry.name).Nodup) {m : CodedCase}
    {case : Case} (hx : m.schema? s = some case) (hkey : m.key ∈ t.keys.entries)
    (hdeclared : CodedMember.KeysDeclared t.keys m.members)
    (h : m.style.Separates (m.members.map CodedMember.stored))
    (hform : t.fieldsOf? (.variant m.ident) = some (m.members.map CodedMember.stored))
    {ys : List Datum} (hlength : case.members.length = ys.length) {use : String} {number : Nat}
    {scope : Scope EncodeVariable}
    (hscope : (scope.lookup (Context.nameOf use number)).any EncodeVariable.isContainer = true)
    (context : Context) :
    (m.encodeArm t.keys.ident context).1.run t s body (Context.nameOf use number) t.keys.ident
        (.variant case.ident ys) scope =
      some (case.encodePayload body ys) := by
  obtain ⟨hident, -, hxs⟩ := schema?_eq_some hx
  have hfound := textOf?_key hx hkeys hkey
  have hcount := CodedMember.length_eq_zip hxs hlength
  let encoder := Context.nameOf "encoder" context.nextName
  let container := Context.nameOf "container" (context.nextName + 1)
  let bound := CodedMember.boundFields (m.members.zip (case.members.zip ys))
  have hpattern : (CodedMember.pattern m.path m.style m.members).run t s
      ((Form.variant m.ident).datum ys) = some bound :=
    CodedMember.run_pattern rfl hform h hxs hlength
  rw [Form.datum] at hpattern
  have hopen : openWriting t container encoder t.keys.ident ((encoder, .encoder) :: bound) =
      some ((container, .container) :: (encoder, .encoder) :: bound) :=
    openWriting_eq (by rw [List.lookup_cons_self]; rfl) container
  have hwrite : Writing.runAll t s body [] ((container, .container) :: (encoder, .encoder) :: bound)
      (CodedMember.writings t.keys.ident container (fun m => [Make.ident m.stored.ident])
        m.members) = some (encodeMembers body case.members ys) := by
    refine CodedMember.runAll_writings hkeys hxs hdeclared hlength
      (by rw [List.lookup_cons_self]; rfl) fun e he hwritten => ?_
    have hmem : e.1 ∈ m.members := (List.of_mem_zip he).1
    have hfresh := h.fresh e.1.stored (List.mem_map_of_mem hmem)
    show (List.lookup e.1.stored.ident _).bind EncodeVariable.field? = _
    rw [lookup_cons_of_ne (hfresh _ _), lookup_cons_of_ne (hfresh _ _)]
    simp only [bound, CodedMember.lookup_boundFields h hcount he hwritten]
    rfl
  have harm : (m.encodeArm t.keys.ident context).1 =
      ⟨CodedMember.pattern m.path m.style m.members, ⟨t.keys.ident, m.key.variant⟩, encoder,
        container, CodedMember.writings t.keys.ident container
          (fun m => [Make.ident m.stored.ident]) m.members⟩ := rfl
  have houter : ((bound ++ scope).lookup (Context.nameOf use number)).any
      EncodeVariable.isContainer = true := by
    rw [List.lookup_append, CodedMember.lookup_boundFields_fresh h, Option.none_or]
    exact hscope
  simp only [harm, EncodeArm.run, hident, hpattern, Option.bind_eq_bind, Option.bind_some, houter,
    if_true, hfound, hopen, hwrite]
  rfl

/-- The pattern of a variant is for its values. -/
theorem suits_pattern {m : CodedCase} {case : Case} (hx : m.schema? s = some case) (name : String)
    (ys : List Datum) :
    (CodedMember.pattern m.path m.style m.members).suits (.variant name ys) =
      (case.ident == name) := by
  rw [(schema?_eq_some hx).1]
  show (if m.ident = name then some ys else none).isSome = (m.ident == name)
  by_cases hname : m.ident = name
  · rw [if_pos hname, hname, beq_self_eq_true]
    rfl
  · rw [if_neg hname, beq_false_of_ne hname]
    rfl

/-- An arm is for the values of its variant and does what the schema does for them, wherever the
container of the value is. -/
def EncodesAs (t : CodedType) (s : Surroundings) (body : Shape → Datum → Encoding Unit)
    (outer : String) (a : EncodeArm) (case : Case) : Prop :=
  (∀ name ys, a.pattern.suits (.variant name ys) = (case.ident == name)) ∧
    ∀ ys scope, case.members.length = ys.length →
      (List.lookup outer scope).any EncodeVariable.isContainer = true →
      a.run t s body outer t.keys.ident (.variant case.ident ys) scope =
        some (case.encodePayload body ys)

theorem forall₂_encodeArms (hkeys : (t.keys.entries.map KeyEntry.name).Nodup) {ms : List CodedCase}
    {cases : List Case} (hxs : List.Forall₂ (fun m x => schema? s m = some x) ms cases)
    (hdeclared : KeysDeclared t.keys ms)
    (h : ∀ m ∈ ms, m.style.Separates (m.members.map CodedMember.stored))
    (hform : ∀ m ∈ ms, t.fieldsOf? (.variant m.ident) = some (m.members.map CodedMember.stored))
    (use : String) (number : Nat) (context : Context) :
    List.Forall₂ (EncodesAs t s body (Context.nameOf use number))
      (encodeArms t.keys.ident ms context).1 cases := by
  -- Arms draw names, so the induction is about every state.
  induction hxs generalizing context with
  | nil => exact .nil
  | @cons m case ms cases hx _ ih =>
      rw [List.forall_mem_cons] at h hform
      obtain ⟨hkey, hmembers⟩ := hdeclared m List.mem_cons_self
      refine .cons ⟨suits_pattern hx, fun ys scope hlength hscope => ?_⟩
        (ih (fun m' hm' => hdeclared m' (List.mem_cons_of_mem _ hm')) h.2 hform.2 _)
      exact run_encodeArm hkeys hx hkey hmembers h.1 hform.1 hlength hscope context

end CodedCase

/-- The data that a declared type holds: as many fields as it has members, of the struct or of one
of the variants. -/
inductive Schema.Holds : Schema → Datum → Prop
  | record {title : String} {members : List Member} {ys : List Datum}
      (hlength : members.length = ys.length) : Holds (.struct title members) (.record ys)
  | variant {title : String} {cases : List Case} {case : Case} {ys : List Datum}
      (hcase : case ∈ cases) (hlength : case.members.length = ys.length) :
      Holds (.enum title cases) (.variant case.ident ys)

/-- The data of a declared name are held by its type. -/
theorem Schema.holds_of_hasShape {types : Registry} {coded : Helper → Datum → Prop}
    {name : String} {x : Datum} (h : x.HasShape types coded (.named name)) {schema : Schema}
    (hfind : types.find? name = some schema) : schema.Holds x := by
  cases h with
  | record hfind' hlength =>
      obtain rfl := Option.some_inj.mp (hfind.symm.trans hfind')
      exact .record hlength
  | variant hfind' hcase hlength =>
      obtain rfl := Option.some_inj.mp (hfind.symm.trans hfind')
      exact .variant hcase hlength

namespace CodedType

/-- The encoding method of a struct writes its fields. -/
theorem run_encodeBody_struct (ht : t.Ordinary) {style : FieldStyle} {members : List CodedMember}
    (hbody : t.body = .struct style members) {xs : List Member}
    (hxs : List.Forall₂ (fun m x => CodedMember.schema? s m = some x) members xs) (title : String)
    {ys : List Datum} (hlength : xs.length = ys.length) (context : Context) :
    (t.encodeBody context).1.run t s body (.record ys) =
      some ((Schema.struct title xs).encode body (.record ys)) := by
  have hform := fieldsOf?_of_struct hbody
  have hseparates := separates_of_struct ht hbody
  have hcount := CodedMember.length_eq_zip hxs hlength
  let container := Context.nameOf "container" context.nextName
  let scope : Scope EncodeVariable :=
    [(container, .container), (Direction.encode.parameter, .encoder)]
  let access := fun (m : CodedMember) =>
    Make.op "&" ++ Make.ident "self" :: Make.op "." ++ m.stored.accessor
  have hcode : (t.encodeBody context).1 = .struct container t.keys.ident
      (CodedMember.writings t.keys.ident container access members) := by
    unfold encodeBody
    simp only [hbody]
    rfl
  have hopen : openWriting t container Direction.encode.parameter t.keys.ident
      [(Direction.encode.parameter, .encoder)] = some scope := openWriting_eq rfl container
  have hwrite : Writing.runAll t s body (typedRows (members.zip (xs.zip ys))) scope
      (CodedMember.writings t.keys.ident container access members) =
      some (encodeMembers body xs ys) := by
    refine CodedMember.runAll_writings ht.keys hxs (keysDeclared_of_struct hbody) hlength
      (by rw [List.lookup_cons_self]; rfl) fun e he _ => ?_
    rw [operand?_accessor, CodedMember.lookup_typedRows hseparates hcount he]
  simp only [hcode, EncodeBody.run, Form.fields?, Option.bind_eq_bind, Option.bind_some,
    CodedMember.typedFields?_eq hform hxs hlength, hopen, hwrite]
  rfl

theorem run_encodeBody_enum (ht : t.Ordinary) {ms : List CodedCase} (hbody : t.body = .enum ms)
    {cases : List Case} (hxs : List.Forall₂ (fun m x => CodedCase.schema? s m = some x) ms cases)
    (title : String) {case : Case} (hcase : case ∈ cases) {ys : List Datum}
    (hlength : case.members.length = ys.length) (context : Context) :
    (t.encodeBody context).1.run t s body (.variant case.ident ys) =
      some ((Schema.enum title cases).encode body (.variant case.ident ys)) := by
  have hseparates := separates_of_enum ht hbody
  have hform := fun m => fieldsOf?_of_enum hbody (ht.variants ms hbody) (m := m)
  have hidents : (cases.map Case.ident).Nodup := by
    rw [map_eq_map_of_forall₂ (hxs.imp fun m case hx => (CodedCase.schema?_eq_some hx).1)]
    exact ht.variants ms hbody
  let container := Context.nameOf "container" context.nextName
  let scope : Scope EncodeVariable :=
    [(container, .container), (Direction.encode.parameter, .encoder)]
  let arms := (CodedCase.encodeArms t.keys.ident ms
    { context with nextName := context.nextName + 1 }).1
  have hcode : (t.encodeBody context).1 = .enum container t.keys.ident arms := by
    unfold encodeBody
    simp only [hbody]
    cases ms with
    | nil =>
        cases hxs
        cases hcase
    | cons m rest => rfl
  have harms : List.Forall₂ (CodedCase.EncodesAs t s body container) arms cases :=
    CodedCase.forall₂_encodeArms ht.keys hxs (keysDeclared_of_enum hbody) hseparates hform _ _ _
  have hopen : openWriting t container Direction.encode.parameter t.keys.ident
      [(Direction.encode.parameter, .encoder)] = some scope := openWriting_eq rfl container
  -- the arm that suits the value is that of the variant, since no two variants share a name
  have hfound : Option.Rel (CodedCase.EncodesAs t s body container)
      (arms.find? fun a => a.pattern.suits (.variant case.ident ys))
      (cases.find? fun other => other.ident == case.ident) :=
    find?_rel_of_forall₂ (harms.imp fun a other h => ⟨h, (h.1 _ _).symm⟩)
  rw [find?_key_of_nodup hidents hcase] at hfound
  obtain ⟨a, ha, harm⟩ : ∃ a, (arms.find? fun a => a.pattern.suits (.variant case.ident ys)) =
      some a ∧ CodedCase.EncodesAs t s body container a case := by
    generalize arms.find? _ = found at hfound ⊢
    cases hfound with
    | some h => exact ⟨_, rfl, h⟩
  have hrun := harm.2 ys scope hlength (by rw [List.lookup_cons_self]; rfl)
  simp only [hcode, EncodeBody.run, hopen, ha, hrun, Option.bind_eq_bind, Option.bind_some,
    Schema.encode, find?_key_of_nodup hidents hcase]
  rfl

/-- The body of an encoding method does what the schema of the type says, on every datum that the
type holds. -/
theorem run_encodeBody (ht : t.Ordinary) {schema : Schema} (hschema : t.schema? s = some schema)
    {x : Datum} (hx : schema.Holds x) (context : Context) :
    (t.encodeBody context).1.run t s body x = some (schema.encode body x) := by
  unfold schema? at hschema
  cases hbody : t.body with
  | struct style members =>
      simp only [hbody, Option.bind_eq_bind, Option.bind_eq_some_iff, Option.some.injEq] at hschema
      obtain ⟨xs, hxs, rfl⟩ := hschema
      cases hx with
      | record hlength =>
          exact run_encodeBody_struct ht hbody (forall₂_of_mapM_some hxs) t.ident hlength context
  | enum cases =>
      simp only [hbody, Option.bind_eq_bind, Option.bind_eq_some_iff, Option.some.injEq] at hschema
      obtain ⟨xs, hxs, rfl⟩ := hschema
      cases hx with
      | variant hcase hlength =>
          exact run_encodeBody_enum ht hbody (forall₂_of_mapM_some hxs) t.ident hcase hlength
            context

end CodedType

end Encoding

end KeyedCoding
