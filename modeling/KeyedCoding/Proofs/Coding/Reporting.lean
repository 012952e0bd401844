import KeyedCoding.Proofs.Coding.Return

/-!
# Where encoding reports a failure

A datum that has its shape fails to be written for one reason only: a helper refuses the value of a
member.  The helper reports the path of the encoder it is run on, and that path is not always the
way to the member.  A key takes the path one step further, but items of lists and entries of maps
are written from the root, so what led to the list or map is lost.  `CodingPath.reported` is the
path that remains, and it is the whole way exactly if the way consists of keys.
-/

namespace KeyedCoding

/-! ## Ways into a datum -/

/-- A step from a datum to a part of it. -/
inductive Step where
  /-- To a member, or to the members of a variant. -/
  | key (key : String)
  /-- To an item of a list. -/
  | item (index : Nat)
  /-- To an entry of a map. -/
  | entry (key : String)
deriving DecidableEq, Repr

namespace Step

/-- The step as a segment of a path. -/
def text : Step → String
  | key k => k
  | item index => toString index
  | entry k => k

/-- Whether the step goes to a member or to the members of a variant. -/
def isKey : Step → Bool
  | key _ => true
  | _ => false

end Step

mutual

/-- Steps lead from a datum of a shape to a member that a helper codes, and to what it codes. -/
inductive Datum.HelpedAt (types : Registry) :
    Shape → Datum → List Step → Helper → Datum → Prop
  | some {inner : Shape} {x y : Datum} {steps : List Step} {helper : Helper}
      (h : Datum.HelpedAt types inner x steps helper y) :
      Datum.HelpedAt types (.option inner) (.some x) steps helper y
  | box {inner : Shape} {x y : Datum} {steps : List Step} {helper : Helper}
      (h : Datum.HelpedAt types inner x steps helper y) :
      Datum.HelpedAt types (.box inner) x steps helper y
  | item {inner : Shape} {items : List Datum} {index : Nat} {x y : Datum} {steps : List Step}
      {helper : Helper} (hindex : items[index]? = .some x)
      (h : Datum.HelpedAt types inner x steps helper y) :
      Datum.HelpedAt types (.list inner) (.list items) (.item index :: steps) helper y
  | entry {kind : MapKind} {inner : Shape} {entries : List (String × Datum)} {key : String}
      {x y : Datum} {steps : List Step} {helper : Helper} (hmem : (key, x) ∈ entries)
      (h : Datum.HelpedAt types inner x steps helper y) :
      Datum.HelpedAt types (.map kind inner) (.map entries) (.entry key :: steps) helper y
  | record {name title : String} {members : List Member} {fields : List Datum} {m : Member}
      {x y : Datum} {steps : List Step} {helper : Helper}
      (hfind : types.find? name = .some (.struct title members))
      (hmem : (m, x) ∈ members.zip fields) (hencoded : m.encoded = true)
      (h : Member.HelpedAt types m x steps helper y) :
      Datum.HelpedAt types (.named name) (.record fields) (.key m.key :: steps) helper y
  | variant {name title : String} {variants : List Case} {case : Case} {fields : List Datum}
      {m : Member} {x y : Datum} {steps : List Step} {helper : Helper}
      (hfind : types.find? name = .some (.enum title variants)) (hcase : case ∈ variants)
      (hmem : (m, x) ∈ case.members.zip fields) (hencoded : m.encoded = true)
      (h : Member.HelpedAt types m x steps helper y) :
      Datum.HelpedAt types (.named name) (.variant case.ident fields)
        (.key case.key :: .key m.key :: steps) helper y

/-- Steps lead from the value of a member to a member that a helper codes: to the member itself if
it has a helper, else further down into its value. -/
inductive Member.HelpedAt (types : Registry) :
    Member → Datum → List Step → Helper → Datum → Prop
  | here {m : Member} {y : Datum} {helper : Helper} (hhelper : m.helper = .some helper) :
      Member.HelpedAt types m y [] helper y
  | inside {m : Member} {x y : Datum} {steps : List Step} {helper : Helper}
      (hhelper : m.helper = .none) (h : Datum.HelpedAt types m.shape x steps helper y) :
      Member.HelpedAt types m x steps helper y

end

/-! ## The path that is reported -/

namespace CodingPath

/-- The path of the encoder for the part that steps lead to. -/
def reported : CodingPath → List Step → CodingPath
  | path, [] => path
  | path, .key k :: rest => (path.child k).reported rest
  | _, .item _ :: rest => root.reported rest
  | _, .entry _ :: rest => root.reported rest

theorem segments_reported_of_keys {steps : List Step} (h : steps.all Step.isKey = true)
    (path : CodingPath) :
    (path.reported steps).segments = path.segments ++ steps.map Step.text := by
  induction steps generalizing path with
  | nil => simp [reported]
  | cons step rest ih =>
      cases step with
      | key k =>
          have hrest : rest.all Step.isKey = true := by simpa [Step.isKey] using h
          simp [reported, ih hrest, Step.text]
      | item index => simp [Step.isKey] at h
      | entry k => simp [Step.isKey] at h

theorem length_reported_le (path : CodingPath) (steps : List Step) :
    (path.reported steps).segments.length ≤ path.segments.length + steps.length := by
  induction steps generalizing path with
  | nil => simp [reported]
  | cons step rest ih =>
      cases step with
      | key k =>
          have hrest := ih (path.child k)
          simp only [reported, segments_child, List.length_append, List.length_cons,
            List.length_nil] at hrest ⊢
          omega
      | item index =>
          have hrest := ih root
          simp only [reported, root, List.length_nil, List.length_cons] at hrest ⊢
          omega
      | entry k =>
          have hrest := ih root
          simp only [reported, root, List.length_nil, List.length_cons] at hrest ⊢
          omega

/-- A step that is no key is lost, so the path is too short. -/
theorem length_reported_lt {steps : List Step} (h : steps.all Step.isKey = false)
    (path : CodingPath) :
    (path.reported steps).segments.length < path.segments.length + steps.length := by
  induction steps generalizing path with
  | nil => simp at h
  | cons step rest ih =>
      cases step with
      | key k =>
          have hrest := ih (by simpa [Step.isKey] using h) (path.child k)
          simp only [reported, segments_child, List.length_append, List.length_cons,
            List.length_nil] at hrest ⊢
          omega
      | item index =>
          have hrest := length_reported_le root rest
          simp only [reported, root, List.length_nil, List.length_cons] at hrest ⊢
          omega
      | entry k =>
          have hrest := length_reported_le root rest
          simp only [reported, root, List.length_nil, List.length_cons] at hrest ⊢
          omega

/-- The whole way is reported exactly if it consists of keys. -/
theorem segments_reported_iff (path : CodingPath) (steps : List Step) :
    (path.reported steps).segments = path.segments ++ steps.map Step.text ↔
      steps.all Step.isKey = true := by
  refine ⟨fun heq => ?_, fun h => segments_reported_of_keys h path⟩
  -- The texts of the steps may repeat each other, so only the length tells that one is missing.
  by_contra hnot
  have hlt := length_reported_lt (by simpa using hnot) path
  rw [heq, List.length_append, List.length_map] at hlt
  exact Nat.lt_irrefl _ hlt

end CodingPath

/-! ## Failing bodies -/

namespace Encoding

variable {α β : Type}

/-- A body fails on an encoder. -/
def FailsOn (body : Encoding α) (e : Encoder) (err : CodingError) : Prop :=
  ∃ e', body e = .error err e'

theorem not_failsOn_value (v : Value) (e : Encoder) (err : CodingError) :
    ¬ (value v).FailsOn e err := by
  rintro ⟨e', h⟩
  cases h

theorem not_failsOn_pure (a : α) (e : Encoder) (err : CodingError) :
    ¬ FailsOn (pure a) e err := by
  rintro ⟨e', h⟩
  cases h

/-- Of two bodies in a row the first fails, or it succeeds and the second fails on what it left. -/
theorem FailsOn.bind {body : Encoding α} {next : α → Encoding β} {e : Encoder} {err : CodingError}
    (h : (body >>= next).FailsOn e err) :
    body.FailsOn e err ∨ ∃ a e', body e = .ok a e' ∧ (next a).FailsOn e' err := by
  obtain ⟨final, h⟩ := h
  simp only [Bind.bind, EStateM.bind] at h
  cases hbody : body e with
  | ok a e' =>
      rw [hbody] at h
      exact .inr ⟨a, e', rfl, final, h⟩
  | error err' e' =>
      rw [hbody] at h
      cases h
      exact .inl ⟨_, hbody⟩

theorem toValue_eq_error {body : Encoding Unit} {err : CodingError}
    (h : toValue body = .error err) : body.FailsOn (Encoder.fresh .root) err := by
  unfold toValue at h
  cases hbody : body (Encoder.fresh .root) with
  | ok a e => simp [hbody] at h
  | error err' e =>
      simp only [hbody, Except.error.injEq] at h
      subst h
      exact ⟨e, hbody⟩

/-- A nested write fails as its body does, one key further. -/
theorem FailsOn.nested {key : String} {body : Encoding α} {e : Encoder} {err : CodingError}
    (h : (nested key body).FailsOn e err) :
    body.FailsOn (Encoder.fresh (e.path.child key)) err := by
  obtain ⟨final, h⟩ := h
  unfold Encoding.nested at h
  have hpath : e.opened.path = e.path := rfl
  simp only [hpath] at h
  cases hbody : body (Encoder.fresh (e.path.child key)) with
  | ok a inner => simp [hbody] at h
  | error err' inner =>
      simp only [hbody, EStateM.Result.error.injEq] at h
      obtain ⟨rfl, -⟩ := h
      exact ⟨inner, hbody⟩

theorem path_nested {key : String} {body : Encoding α} {e e' : Encoder} {a : α}
    (h : nested key body e = .ok a e') : e'.path = e.path := by
  unfold nested at h
  simp only at h
  split at h
  · cases h
    rfl
  · cases h

end Encoding

/-! ## Items, entries and members -/

theorem encodeItems_eq_error {body : Datum → Encoding Unit} {items : List Datum}
    {err : CodingError} (h : encodeItems body items = .error err) :
    ∃ (index : Nat) (x : Datum), items[index]? = some x ∧
      (body x).FailsOn (Encoder.fresh .root) err := by
  rw [encodeItems_eq_mapM] at h
  obtain ⟨x, hx, herr⟩ := exists_mem_of_mapM_eq_error h
  obtain ⟨index, hindex⟩ := List.getElem?_of_mem hx
  exact ⟨index, x, hindex, Encoding.toValue_eq_error herr⟩

theorem encodeEntries_eq_error {body : Datum → Encoding Unit} {entries : List (String × Datum)}
    {err : CodingError} (h : encodeEntries body entries = .error err) :
    ∃ e ∈ entries, (body e.2).FailsOn (Encoder.fresh .root) err := by
  rw [encodeEntries_eq_mapM] at h
  obtain ⟨e, he, herr⟩ := exists_mem_of_mapM_eq_error h
  exact ⟨e, he, Encoding.toValue_eq_error (map_eq_error_iff.mp herr)⟩

section Members

variable {body : Shape → Datum → Encoding Unit} {e : Encoder} {err : CodingError}

theorem Member.failsOn_encode {m : Member} {x : Datum} (h : (m.encode body x).FailsOn e err) :
    m.encoded = true ∧ (m.writing body x).FailsOn (Encoder.fresh (e.path.child m.key)) err := by
  unfold encode at h
  split at h
  · exact ⟨‹_›, Encoding.FailsOn.nested h⟩
  · exact absurd h (Encoding.not_failsOn_pure () e err)

theorem Member.path_encode {m : Member} {x : Datum} {e' : Encoder} {u : Unit}
    (h : m.encode body x e = .ok u e') : e'.path = e.path := by
  unfold encode at h
  split at h
  · exact Encoding.path_nested h
  · cases h
    rfl

/-- Members fail because one of them does, at its key. -/
theorem failsOn_encodeMembers {members : List Member} {fields : List Datum}
    (h : (encodeMembers body members fields).FailsOn e err) :
    ∃ m x, (m, x) ∈ members.zip fields ∧ m.encoded = true ∧
      (m.writing body x).FailsOn (Encoder.fresh (e.path.child m.key)) err := by
  induction members generalizing fields e with
  | nil => exact absurd h (Encoding.not_failsOn_pure () e err)
  | cons m rest ih =>
      cases fields with
      | nil => exact absurd h (Encoding.not_failsOn_pure () e err)
      | cons x xs =>
          rcases Encoding.FailsOn.bind h with hm | ⟨u, e', hok, hrest⟩
          · obtain ⟨hencoded, hfails⟩ := Member.failsOn_encode hm
            exact ⟨m, x, List.mem_cons_self, hencoded, hfails⟩
          · obtain ⟨m', x', hmem, hencoded, hfails⟩ := ih hrest
            rw [Member.path_encode hok] at hfails
            exact ⟨m', x', List.mem_cons_of_mem _ hmem, hencoded, hfails⟩

variable {title : String}

theorem Schema.failsOn_encode_struct {members : List Member} {fields : List Datum}
    (h : ((Schema.struct title members).encode body (.record fields)).FailsOn e err) :
    ∃ m x, (m, x) ∈ members.zip fields ∧ m.encoded = true ∧
      (m.writing body x).FailsOn (Encoder.fresh (e.path.child m.key)) err :=
  failsOn_encodeMembers (e := e.opened) h

theorem Schema.failsOn_encode_enum {variants : List Case} {case : Case} {fields : List Datum}
    (hidents : (variants.map Case.ident).Nodup) (hcase : case ∈ variants)
    (h : ((Schema.enum title variants).encode body (.variant case.ident fields)).FailsOn e err) :
    ∃ m x, (m, x) ∈ case.members.zip fields ∧ m.encoded = true ∧
      (m.writing body x).FailsOn
        (Encoder.fresh ((e.path.child case.key).child m.key)) err := by
  have hfind := find?_key_of_nodup hidents hcase
  simp only [Schema.encode, hfind] at h
  have hpayload := Encoding.FailsOn.nested (e := e.opened) h
  exact failsOn_encodeMembers
    (e := (Encoder.fresh (e.path.child case.key)).opened) hpayload

end Members

/-! ## Shapes -/

/-- A helper that fails reports the path of the encoder it was run on. -/
def Helper.ReportsPath (helper : Helper) : Prop :=
  ∀ y e err, (helper.encode y).FailsOn e err → err.path = e.path

/-- The variants of every enum have different names. -/
def Registry.VariantsDiffer (types : Registry) : Prop :=
  ∀ name title variants, types.find? name = some (.enum title variants) →
    (variants.map Case.ident).Nodup

namespace Registry

/-- Some member of a declared type is coded by the helper. -/
def HasHelper (types : Registry) (helper : Helper) : Prop :=
  ∃ m, types.HasMember m ∧ m.helper = some helper

/-- The error of a datum is that of a helper of a member somewhere in it. -/
def Blames (types : Registry) (shape : Shape) (x : Datum) (path : CodingPath)
    (err : CodingError) : Prop :=
  ∃ steps helper y, x.HelpedAt types shape steps helper y ∧ types.HasHelper helper ∧
    (helper.encode y).FailsOn (Encoder.fresh (path.reported steps)) err

variable {types : Registry} {coded : Helper → Datum → Prop}

/-- A member that fails has a helper that fails, or a value in which one does. -/
theorem exists_helpedAt_of_member {m : Member} (hm : types.HasMember m) {x : Datum}
    {path : CodingPath} {err : CodingError}
    (hplain : m.helper = none → ∀ e, (types.encode m.shape x).FailsOn e err →
      types.Blames m.shape x e.path err)
    (h : (m.writing types.encode x).FailsOn (Encoder.fresh path) err) :
    ∃ steps helper y, Member.HelpedAt types m x steps helper y ∧ types.HasHelper helper ∧
      (helper.encode y).FailsOn (Encoder.fresh (path.reported steps)) err := by
  unfold Member.writing at h
  cases hhelper : m.helper with
  | some helper =>
      rw [hhelper] at h
      exact ⟨[], helper, x, .here hhelper, ⟨m, hm, hhelper⟩, h⟩
  | none =>
      rw [hhelper] at h
      obtain ⟨steps, helper, y, hat, hhas, hfails⟩ := hplain hhelper _ h
      exact ⟨steps, helper, y, .inside hhelper hat, hhas, hfails⟩

theorem not_failsOn_encode_int {kind : IntKind} {n : Int} (hn : kind.fits n = true) (e : Encoder)
    (err : CodingError) : ¬ (types.encode (.int kind) (.int n)).FailsOn e err := by
  obtain ⟨v, hv, -⟩ := IntKind.exists_integer_of_fits hn
  have hencode : types.encode (.int kind) (.int n) = Encoding.value v := by
    show encodeInteger n = Encoding.value v
    simp only [encodeInteger, hv]
  rw [hencode]
  exact Encoding.not_failsOn_value v e err

/-- Nothing but a helper fails. -/
theorem blames_of_failsOn (hvariants : types.VariantsDiffer) {shape : Shape} {x : Datum}
    (hx : x.HasShape types coded shape) {e : Encoder} {err : CodingError}
    (h : (types.encode shape x).FailsOn e err) : types.Blames shape x e.path err := by
  -- The typing says which part fails, and the steps to it grow from the inside out.
  induction hx generalizing e with
  | int hn => exact absurd h (not_failsOn_encode_int hn e err)
  | some _ ih =>
      obtain ⟨steps, helper, y, hat, hfails⟩ := ih h
      exact ⟨steps, helper, y, .some hat, hfails⟩
  | box _ ih =>
      rw [encode_box] at h
      obtain ⟨steps, helper, y, hat, hfails⟩ := ih h
      exact ⟨steps, helper, y, .box hat, hfails⟩
  | @list inner items _ ih =>
      rw [encode_list] at h
      cases hitems : encodeItems (types.encode inner) items with
      | ok values =>
          rw [hitems] at h
          exact absurd h (Encoding.not_failsOn_value _ e err)
      | error err' =>
          rw [hitems] at h
          obtain ⟨e', h⟩ := h
          cases h
          obtain ⟨index, x, hindex, hx⟩ := encodeItems_eq_error hitems
          obtain ⟨steps, helper, y, hat, hfails⟩ := ih x (List.mem_of_getElem? hindex) hx
          exact ⟨.item index :: steps, helper, y, .item hindex hat, hfails⟩
  | @map kind inner entries _ _ _ ih =>
      rw [encode_map] at h
      cases hentries : encodeEntries (types.encode inner) entries with
      | ok values =>
          rw [hentries] at h
          exact absurd h (Encoding.not_failsOn_value _ e err)
      | error err' =>
          rw [hentries] at h
          obtain ⟨e', h⟩ := h
          cases h
          obtain ⟨entry, hmem, hentry⟩ := encodeEntries_eq_error hentries
          obtain ⟨steps, helper, y, hat, hfails⟩ := ih entry hmem hentry
          exact ⟨.entry entry.1 :: steps, helper, y, .entry hmem hat, hfails⟩
  | record hfind _ _ _ ih =>
      rw [types.encode_named hfind] at h
      obtain ⟨m, x, hmem, hencoded, hfails⟩ := Schema.failsOn_encode_struct h
      have hm := hasMember_of_struct hfind (List.of_mem_zip hmem).1
      obtain ⟨steps, helper, y, hat, hfails⟩ :=
        exists_helpedAt_of_member hm (fun hhelper _ hx => ih (m, x) hmem hhelper hx) hfails
      exact ⟨.key m.key :: steps, helper, y, .record hfind hmem hencoded hat, hfails⟩
  | @variant name title variants case fields hfind hcase _ _ _ ih =>
      rw [types.encode_named hfind] at h
      obtain ⟨m, x, hmem, hencoded, hfails⟩ :=
        Schema.failsOn_encode_enum (hvariants name title variants hfind) hcase h
      have hm := hasMember_of_variant hfind hcase (List.of_mem_zip hmem).1
      obtain ⟨steps, helper, y, hat, hfails⟩ :=
        exists_helpedAt_of_member hm (fun hhelper _ hx => ih (m, x) hmem hhelper hx) hfails
      exact ⟨.key case.key :: .key m.key :: steps, helper, y,
        .variant hfind hcase hmem hencoded hat, hfails⟩
  | _ => exact absurd h (Encoding.not_failsOn_value _ e err)

/-- Encoding a datum that has its shape fails because a helper refuses a member somewhere in it.
The error has the path that is left of the way to the member, which is the whole way exactly if the
way passes through no list and no map. -/
theorem encode_error_path_eq_reported (hvariants : types.VariantsDiffer)
    (hhelpers : ∀ helper, types.HasHelper helper → helper.ReportsPath)
    {shape : Shape} {x : Datum} (hx : x.HasShape types coded shape) {e : Encoder}
    {err : CodingError} (h : (types.encode shape x).FailsOn e err) :
    ∃ steps helper y, x.HelpedAt types shape steps helper y ∧
      (helper.encode y).FailsOn (Encoder.fresh (e.path.reported steps)) err ∧
      err.path = e.path.reported steps ∧
      (err.path.segments = e.path.segments ++ steps.map Step.text ↔
        steps.all Step.isKey = true) := by
  obtain ⟨steps, helper, y, hat, hhas, hfails⟩ := blames_of_failsOn hvariants hx h
  have hpath : err.path = e.path.reported steps := hhelpers helper hhas y _ err hfails
  refine ⟨steps, helper, y, hat, hfails, hpath, ?_⟩
  rw [hpath]
  exact CodingPath.segments_reported_iff e.path steps

end Registry

/-! ## A purse

Coins whose amount a helper refuses if it is odd, kept in a list and one by itself. -/

namespace Purse

/-- A coin. -/
def coinItem : Item :=
  ⟨[.marker "codable" []], [], .struct [Make.ident "struct"] (Make.ident "Coin") .none
    (.named [Journal.field [.marker "coded_by" [Make.ident "Even"]] "amount" [Make.ident "i64"]]
      .made) []⟩

/-- A purse with coins and a spare one. -/
def purseItem : Item :=
  ⟨[.marker "codable" []], [], .struct [Make.ident "struct"] (Make.ident "Purse") .none
    (.named [Journal.field [] "coins" (Journal.applied "Vec" [Make.ident "Coin"]),
      Journal.field [] "spare" [Make.ident "Coin"]] .made) []⟩

/-- The declarations of the purse and the helpers they use. -/
def library : Library := ⟨[.ofItem coinItem, .ofItem purseItem], Helper.readyMade⟩

/-- The declared types of the purse. -/
def types : Registry := library.registry library.plainInstances

/-- The member of a coin. -/
def amount : Member :=
  ⟨"amount", "amount", 0, true, "amount", .int .i64, some .even, .required, true, none⟩

/-- The member of a purse that is a list. -/
def coins : Member :=
  ⟨"coins", "coins", 0, true, "coins", .list (.named "Coin"), none, .required, true, none⟩

/-- The member of a purse that is a coin. -/
def spare : Member :=
  ⟨"spare", "spare", 1, true, "spare", .named "Coin", none, .required, true, none⟩

set_option maxRecDepth 4000 in
theorem schemas_types : types.schemas =
    [("Coin", .struct "Coin" [amount]), ("Purse", .struct "Purse" [coins, spare])] := rfl

theorem find?_coin : types.find? "Coin" = some (.struct "Coin" [amount]) := by
  rw [Registry.find?, schemas_types]
  rfl

theorem find?_purse : types.find? "Purse" = some (.struct "Purse" [coins, spare]) := by
  rw [Registry.find?, schemas_types]
  rfl

theorem schema_cases {name : String} {schema : Schema} (h : types.find? name = some schema) :
    schema = .struct "Coin" [amount] ∨ schema = .struct "Purse" [coins, spare] := by
  rw [Registry.find?, schemas_types, List.lookup_cons, List.lookup_cons] at h
  split at h
  · exact .inl (by simpa using h.symm)
  · split at h
    · exact .inr (by simpa using h.symm)
    · cases h

theorem variantsDiffer : types.VariantsDiffer := by
  intro name title variants hfind
  rcases schema_cases hfind with h | h <;> cases h

theorem reportsPath_even : Helper.even.ReportsPath := by
  intro y e err h
  obtain ⟨e', h⟩ := h
  cases y with
  | int n =>
      simp only [Helper.even] at h
      split at h
      · unfold encodeInteger at h
        cases hv : Value.ofInteger? n with
        | some v => simp only [hv] at h; cases h
        | none =>
            simp only [hv] at h
            cases h
            rfl
      · cases h
        rfl
  | _ => cases h

theorem reportsPath {helper : Helper} (h : types.HasHelper helper) : helper.ReportsPath := by
  obtain ⟨m, ⟨name, schema, hfind, hm⟩, hhelper⟩ := h
  have heven : helper = .even := by
    rcases schema_cases hfind with rfl | rfl <;>
      simp only [Schema.members, List.mem_cons, List.not_mem_nil, or_false] at hm
    · subst hm
      cases hhelper
      rfl
    · rcases hm with rfl | rfl <;> cases hhelper
  rw [heven]
  exact reportsPath_even

/-- What helpers of the purse code: integers. -/
def Coded (_ : Helper) (x : Datum) : Prop := ∃ n, x = .int n

theorem hasShape_coin (n : Int) : (Datum.record [.int n]).HasShape types Coded (.named "Coin") := by
  refine .record find?_coin rfl ?_ ?_
  · intro e he hnone
    simp only [List.zip_cons_cons, List.zip_nil_right, List.mem_singleton] at he
    subst he
    cases hnone
  · intro e he helper _
    simp only [List.zip_cons_cons, List.zip_nil_right, List.mem_singleton] at he
    subst he
    exact ⟨n, rfl⟩

/-- A purse with the given amounts. -/
def filled (amounts : List Int) (single : Int) : Datum :=
  .record [.list (amounts.map fun n => .record [.int n]), .record [.int single]]

theorem hasShape_filled (amounts : List Int) (single : Int) :
    (filled amounts single).HasShape types Coded (.named "Purse") := by
  refine .record find?_purse rfl ?_ ?_
  · intro e he _
    simp only [List.zip_cons_cons, List.zip_nil_right, List.mem_cons, List.not_mem_nil,
      or_false] at he
    rcases he with rfl | rfl
    · refine .list fun x hx => ?_
      obtain ⟨n, -, rfl⟩ := List.mem_map.mp hx
      exact hasShape_coin n
    · exact hasShape_coin single
  · intro e he helper hhelper
    simp only [List.zip_cons_cons, List.zip_nil_right, List.mem_cons, List.not_mem_nil,
      or_false] at he
    rcases he with rfl | rfl <;> cases hhelper

/-- An odd spare coin of a purse on a desk is reported with the whole way to it. -/
theorem odd_spare_reported :
    (types.encode (.named "Purse") (filled [] 3)).FailsOn (Encoder.fresh ⟨["desk"]⟩)
      ⟨⟨["desk", "spare", "amount"]⟩, .custom "odd number 3"⟩ ∧
    ∃ steps helper y, (filled [] 3).HelpedAt types (.named "Purse") steps helper y ∧
      (helper.encode y).FailsOn (Encoder.fresh (CodingPath.reported ⟨["desk"]⟩ steps))
        ⟨⟨["desk", "spare", "amount"]⟩, .custom "odd number 3"⟩ ∧
      ⟨["desk", "spare", "amount"]⟩ = CodingPath.reported ⟨["desk"]⟩ steps ∧
      (["desk", "spare", "amount"] = ["desk"] ++ steps.map Step.text ↔
        steps.all Step.isKey = true) := by
  have hfails : (types.encode (.named "Purse") (filled [] 3)).FailsOn (Encoder.fresh ⟨["desk"]⟩)
      ⟨⟨["desk", "spare", "amount"]⟩, .custom "odd number 3"⟩ := ⟨_, rfl⟩
  exact ⟨hfails, Registry.encode_error_path_eq_reported variantsDiffer
    (fun _ => reportsPath) (hasShape_filled [] 3) hfails⟩

/-- The way to the first of the coins. -/
def wayToCoin : List Step := [.key "coins", .item 0, .key "amount"]

theorem helpedAt_coin :
    (filled [3] 2).HelpedAt types (.named "Purse") wayToCoin .even (.int 3) := by
  have hmember : Member.HelpedAt types amount (.int 3) [] .even (.int 3) := .here rfl
  have hcoin : (Datum.record [.int 3]).HelpedAt types (.named "Coin") [.key "amount"] .even
      (.int 3) := .record find?_coin List.mem_cons_self rfl hmember
  have hcoins : Member.HelpedAt types coins (.list [.record [.int 3]])
      [.item 0, .key "amount"] .even (.int 3) := .inside rfl (.item rfl hcoin)
  exact .record find?_purse List.mem_cons_self rfl hcoins

/-- An odd coin among the coins of a purse is reported as if it stood alone: of the way to it, only
the last key is left. -/
theorem odd_coin_reported_short :
    (filled [3] 2).HasShape types Coded (.named "Purse") ∧
    (filled [3] 2).HelpedAt types (.named "Purse") wayToCoin .even (.int 3) ∧
    (types.encode (.named "Purse") (filled [3] 2)).FailsOn (Encoder.fresh .root)
      ⟨⟨["amount"]⟩, .custom "odd number 3"⟩ ∧
    (["amount"] : List String) ≠ CodingPath.root.segments ++ wayToCoin.map Step.text :=
  ⟨hasShape_filled [3] 2, helpedAt_coin, ⟨_, rfl⟩, by decide⟩

end Purse

end KeyedCoding
