import KeyedCoding.Proofs.Coding.Culprit
import KeyedCoding.Proofs.Coding.OwnEntries

/-!
# The forms of an integer

A value tree has two forms for an integer, and the smaller half of the unsigned numbers has both.
Which one stands in a tree makes no difference to decoding: `Decoding.IgnoresForm` says so of
anything that reads a tree, and every step of decoding keeps it.  Encoding takes the signed form
wherever it exists: `Encoding.WritesSigned` says so of anything that writes one.  Only the shape of
all value trees passes a tree on as it is, so it is left out, and helpers are asked for the same.
-/

namespace KeyedCoding

/-! ## Trees in signed form -/

namespace Value

mutual

/-- The tree with every unsigned number in signed form that has one. -/
def preferSigned : Value → Value
  | null => null
  | bool b => bool b
  | int n => int n
  | uint n => ofNat64 n
  | float x => float x
  | string s => string s
  | array items => array (preferSignedItems items)
  | object entries => object (preferSignedEntries entries)

/-- The items of an array in signed form. -/
def preferSignedItems : List Value → List Value
  | [] => []
  | v :: rest => preferSigned v :: preferSignedItems rest

/-- The entries of an object in signed form, each at its key. -/
def preferSignedEntries : List (String × Value) → List (String × Value)
  | [] => []
  | (key, v) :: rest => (key, preferSigned v) :: preferSignedEntries rest

end

/-- An unsigned number is kept, or it becomes the signed number of the same value. -/
theorem ofNat64_cases (n : UInt64) :
    (Nat.pow 2 63 ≤ n.toNat ∧ ofNat64 n = uint n) ∨
      ∃ m : Int64, m.toInt = n.toNat ∧ ofNat64 n = int m := by
  by_cases hfits : n.toNat < Nat.pow 2 63
  · exact .inr ⟨Int64.ofNat n.toNat, Int64.toInt_ofNat_of_lt hfits, ofNat64_of_lt hfits⟩
  · exact .inl ⟨Nat.le_of_not_lt hfits, ofNat64_of_le (Nat.le_of_not_lt hfits)⟩

theorem isNull_preferSigned (v : Value) : v.preferSigned.isNull = v.isNull := by
  cases v with
  | uint n =>
      rw [preferSigned]
      rcases ofNat64_cases n with ⟨-, h⟩ | ⟨m, -, h⟩ <;> rw [h]
      rfl
  | _ => rfl

theorem length_preferSignedEntries (entries : List (String × Value)) :
    (preferSignedEntries entries).length = entries.length := by
  induction entries with
  | nil => rfl
  | cons e rest ih => simp only [preferSignedEntries, List.length_cons, ih]

theorem get?_preferSignedEntries (entries : List (String × Value)) (key : String) :
    Entries.get? (preferSignedEntries entries) key =
      (Entries.get? entries key).map preferSigned := by
  induction entries with
  | nil => rfl
  | cons e rest ih =>
      obtain ⟨k, v⟩ := e
      simp only [preferSignedEntries, Entries.get?, ih]
      split <;> rfl

mutual

theorem depth_preferSigned : (v : Value) → v.preferSigned.depth = v.depth
  | null => rfl
  | bool _ => rfl
  | int _ => rfl
  | uint n => by
      rw [preferSigned]
      rcases ofNat64_cases n with ⟨-, h⟩ | ⟨m, -, h⟩ <;> rw [h]
      rfl
  | float _ => rfl
  | string _ => rfl
  | array items => congrArg (· + 1) (depthItems_preferSignedItems items)
  | object entries => congrArg (· + 1) (depthEntries_preferSignedEntries entries)

theorem depthItems_preferSignedItems : (items : List Value) →
    depthItems (preferSignedItems items) = depthItems items
  | [] => rfl
  | v :: rest => congrArg₂ max (depth_preferSigned v) (depthItems_preferSignedItems rest)

theorem depthEntries_preferSignedEntries : (entries : List (String × Value)) →
    depthEntries (preferSignedEntries entries) = depthEntries entries
  | [] => rfl
  | (_, v) :: rest => congrArg₂ max (depth_preferSigned v) (depthEntries_preferSignedEntries rest)

end

/-- No unsigned number of the tree has a signed form. -/
def SignedWhereFits (v : Value) : Prop :=
  ∀ segments n, v.Reaches segments (.uint n) → Nat.pow 2 63 ≤ n.toNat

namespace SignedWhereFits

variable {items : List Value} {entries : List (String × Value)}

theorem array_iff : (array items).SignedWhereFits ↔ ∀ v ∈ items, v.SignedWhereFits := by
  constructor
  · intro h v hv segments n hreaches
    obtain ⟨index, hindex⟩ := List.getElem?_of_mem hv
    exact h _ n (.item hindex hreaches)
  · intro h segments n hreaches
    cases hreaches with
    | item hindex hreaches => exact h _ (List.mem_of_getElem? hindex) _ n hreaches

theorem object_iff : (object entries).SignedWhereFits ↔ ∀ e ∈ entries, e.2.SignedWhereFits := by
  constructor
  · intro h e he segments n hreaches
    exact h _ n (.entry he hreaches)
  · intro h segments n hreaches
    cases hreaches with
    | entry hmem hreaches => exact h _ hmem _ n hreaches

theorem uint_iff {n : UInt64} : (uint n).SignedWhereFits ↔ Nat.pow 2 63 ≤ n.toNat := by
  constructor
  · exact fun h => h [] n (.here _)
  · intro h segments m hreaches
    cases hreaches
    exact h

end SignedWhereFits

theorem signedWhereFits_ofNat64 (n : UInt64) : (ofNat64 n).SignedWhereFits := by
  rcases ofNat64_cases n with ⟨hle, h⟩ | ⟨m, -, h⟩ <;> rw [h]
  · exact SignedWhereFits.uint_iff.mpr hle
  · nofun

theorem signedWhereFits_of_ofInteger? {n : Int} {v : Value} (h : ofInteger? n = some v) :
    v.SignedWhereFits := by
  unfold ofInteger? at h
  split at h
  · cases h
    nofun
  · next hsigned =>
    split at h
    · next hunsigned =>
      cases h
      -- the number is beyond the signed ones, and the unsigned form keeps it
      have hsigned : ¬ (-9223372036854775808 ≤ n ∧ n < 9223372036854775808) := hsigned
      have hunsigned : 0 ≤ n ∧ n < 18446744073709551616 := hunsigned
      have hkept : (UInt64.ofNat n.toNat).toNat = n.toNat := UInt64.toNat_ofNat_of_lt (by
        show n.toNat < 18446744073709551616
        omega)
      have hle : 9223372036854775808 ≤ (UInt64.ofNat n.toNat).toNat := by
        rw [hkept]
        omega
      exact SignedWhereFits.uint_iff.mpr hle
    · cases h

mutual

/-- In signed form no unsigned number is left that has one. -/
theorem signedWhereFits_preferSigned : (v : Value) → v.preferSigned.SignedWhereFits
  | null => nofun
  | bool _ => nofun
  | int _ => nofun
  | uint n => signedWhereFits_ofNat64 n
  | float _ => nofun
  | string _ => nofun
  | array items => SignedWhereFits.array_iff.mpr (signedWhereFits_preferSignedItems items)
  | object entries => SignedWhereFits.object_iff.mpr (signedWhereFits_preferSignedEntries entries)

theorem signedWhereFits_preferSignedItems : (items : List Value) →
    ∀ v ∈ preferSignedItems items, v.SignedWhereFits
  | [] => List.forall_mem_nil _
  | v :: rest => List.forall_mem_cons.mpr
      ⟨signedWhereFits_preferSigned v, signedWhereFits_preferSignedItems rest⟩

theorem signedWhereFits_preferSignedEntries : (entries : List (String × Value)) →
    ∀ e ∈ preferSignedEntries entries, e.2.SignedWhereFits
  | [] => List.forall_mem_nil _
  | (_, v) :: rest => List.forall_mem_cons.mpr
      ⟨signedWhereFits_preferSigned v, signedWhereFits_preferSignedEntries rest⟩

end

mutual

/-- Nothing changes in a tree that is in signed form. -/
theorem preferSigned_of_signedWhereFits : (v : Value) → v.SignedWhereFits → v.preferSigned = v
  | null, _ => rfl
  | bool _, _ => rfl
  | int _, _ => rfl
  | uint _, h => ofNat64_of_le (SignedWhereFits.uint_iff.mp h)
  | float _, _ => rfl
  | string _, _ => rfl
  | array items, h =>
      congrArg array (preferSignedItems_of_signedWhereFits items (SignedWhereFits.array_iff.mp h))
  | object entries, h =>
      congrArg object
        (preferSignedEntries_of_signedWhereFits entries (SignedWhereFits.object_iff.mp h))

theorem preferSignedItems_of_signedWhereFits : (items : List Value) →
    (∀ v ∈ items, v.SignedWhereFits) → preferSignedItems items = items
  | [], _ => rfl
  | v :: rest, h =>
      congrArg₂ List.cons (preferSigned_of_signedWhereFits v (h v List.mem_cons_self))
        (preferSignedItems_of_signedWhereFits rest (List.forall_mem_cons.mp h).2)

theorem preferSignedEntries_of_signedWhereFits : (entries : List (String × Value)) →
    (∀ e ∈ entries, e.2.SignedWhereFits) → preferSignedEntries entries = entries
  | [], _ => rfl
  | (key, v) :: rest, h =>
      congrArg₂ List.cons
        (congrArg (Prod.mk key) (preferSigned_of_signedWhereFits v (List.forall_mem_cons.mp h).1))
        (preferSignedEntries_of_signedWhereFits rest (List.forall_mem_cons.mp h).2)

end

/-- The trees in signed form are those that preferring it does not change. -/
theorem signedWhereFits_iff {v : Value} : v.SignedWhereFits ↔ v.preferSigned = v := by
  constructor
  · exact preferSigned_of_signedWhereFits v
  · intro h
    rw [← h]
    exact signedWhereFits_preferSigned v

end Value

/-! ## Reading makes no difference between the forms -/

/-- A reading gives the same result, errors included, for a tree and for its signed form. -/
def Decoding.IgnoresForm {α : Type} (read : Decoding α) : Prop :=
  ∀ v path, read ⟨v.preferSigned, path⟩ = read ⟨v, path⟩

namespace Decoding.IgnoresForm

variable {α β : Type} {read : Decoding α}

/-- What has to be shown of a reading: a number of either form, an array and an object are read as
their signed forms are. -/
theorem of_parts
    (hint : ∀ (n : UInt64) (m : Int64) path, m.toInt = n.toNat →
      read ⟨.int m, path⟩ = read ⟨.uint n, path⟩)
    (harray : ∀ items path,
      read ⟨.array (Value.preferSignedItems items), path⟩ = read ⟨.array items, path⟩)
    (hobject : ∀ entries path,
      read ⟨.object (Value.preferSignedEntries entries), path⟩ = read ⟨.object entries, path⟩) :
    read.IgnoresForm := by
  intro v path
  cases v with
  | uint n =>
      rw [Value.preferSigned]
      rcases Value.ofNat64_cases n with ⟨-, h⟩ | ⟨m, hm, h⟩ <;> rw [h]
      exact hint n m path hm
  | array items => exact harray items path
  | object entries => exact hobject entries path
  | _ => rfl

theorem map (h : read.IgnoresForm) (f : α → β) : IgnoresForm fun d => (read d).map f :=
  fun v path => congrArg (Except.map f) (h v path)

theorem bind (h : read.IgnoresForm) (next : CodingPath → α → Except CodingError β) :
    IgnoresForm fun d => read d >>= next d.path :=
  fun v path => congrArg (· >>= next path) (h v path)

end Decoding.IgnoresForm

section Reading

open Value (preferSignedItems preferSignedEntries)

theorem ignoresForm_decodeInteger (kind : IntKind) : Decoding.IgnoresForm (decodeInteger kind) :=
  .of_parts (fun n m path h => by simp only [decodeInteger, Value.integer?, h])
    (fun _ _ => rfl) fun _ _ => rfl

theorem ignoresForm_decodeFloat : Decoding.IgnoresForm decodeFloat :=
  .of_parts (fun n m path h => by simp only [decodeFloat, h]) (fun _ _ => rfl) fun _ _ => rfl

theorem ignoresForm_decodeString : Decoding.IgnoresForm decodeString :=
  .of_parts (fun _ _ _ _ => rfl) (fun _ _ => rfl) fun _ _ => rfl

theorem decodeItems_preferSignedItems {body : Decoding Datum} (hbody : body.IgnoresForm)
    (path : CodingPath) (index : Nat) (items : List Value) :
    decodeItems body path index (preferSignedItems items) = decodeItems body path index items := by
  induction items generalizing index with
  | nil => rfl
  | cons v rest ih => simp only [preferSignedItems, decodeItems, hbody v, ih]

theorem decodeEntries_preferSignedEntries {body : Decoding Datum} (hbody : body.IgnoresForm)
    (path : CodingPath) (entries : List (String × Value)) :
    decodeEntries body path (preferSignedEntries entries) = decodeEntries body path entries := by
  induction entries with
  | nil => rfl
  | cons e rest ih =>
      obtain ⟨key, v⟩ := e
      simp only [preferSignedEntries, decodeEntries, hbody v, ih]

/-- Nowhere inside the shape is a value tree taken as it is. -/
def Shape.valueFree : Shape → Bool
  | .value => false
  | .option inner => inner.valueFree
  | .box inner => inner.valueFree
  | .list inner => inner.valueFree
  | .map _ inner => inner.valueFree
  | _ => true

/-- The declared type that the shape refers to. -/
def Shape.name? : Shape → Option String
  | .named name => some name
  | .option inner => inner.name?
  | .box inner => inner.name?
  | .list inner => inner.name?
  | .map _ inner => inner.name?
  | _ => none

/-- A shape ignores the form of integers if the declared type that it refers to does. -/
theorem Shape.ignoresForm_decodeWith {named : String → Decoding Datum} {shape : Shape}
    (hshape : shape.valueFree = true)
    (hnamed : ∀ name, shape.name? = some name → (named name).IgnoresForm) :
    Decoding.IgnoresForm (shape.decodeWith named) := by
  induction shape with
  | bool => exact .of_parts (fun _ _ _ _ => rfl) (fun _ _ => rfl) fun _ _ => rfl
  | int kind => exact (ignoresForm_decodeInteger kind).map _
  | float32 => exact ignoresForm_decodeFloat.map _
  | float64 => exact ignoresForm_decodeFloat.map _
  | string => exact ignoresForm_decodeString.map _
  | char => exact ignoresForm_decodeString.bind fun path s => singleChar ⟨.null, path⟩ s
  | value => cases hshape
  | option inner ih =>
      -- null is its own signed form, and no other tree has null as its signed form
      intro v path
      have hinner := congrArg (Except.map Datum.some) (ih hshape hnamed v path)
      cases v with
      | uint n =>
          rw [Value.preferSigned] at hinner ⊢
          rcases Value.ofNat64_cases n with ⟨-, h⟩ | ⟨m, -, h⟩ <;> rw [h] at hinner ⊢
          exact hinner
      | null => rfl
      | _ => exact hinner
  | box inner ih => exact ih hshape hnamed
  | list inner ih =>
      refine .of_parts (fun _ _ _ _ => rfl) (fun items path => ?_) fun _ _ => rfl
      exact congrArg (Except.map Datum.list)
        (decodeItems_preferSignedItems (ih hshape hnamed) path 0 items)
  | map kind inner ih =>
      refine .of_parts (fun _ _ _ _ => rfl) (fun _ _ => rfl) fun entries path => ?_
      exact congrArg (Except.map Datum.map)
        (decodeEntries_preferSignedEntries (ih hshape hnamed) path entries)
  | phantom => exact fun _ _ => rfl
  | named name => exact hnamed name rfl

variable {body : Shape → Decoding Datum}

/-- A member is decoded alike from an object and from its signed form. -/
theorem Member.decode_preferSigned {m : Member} (h : (m.reading body).IgnoresForm)
    (entries : List (String × Value)) (path : CodingPath) :
    m.decode body ⟨preferSignedEntries entries, path⟩ = m.decode body ⟨entries, path⟩ := by
  rw [decode_eq, decode_eq, Value.get?_preferSignedEntries]
  cases Entries.get? entries m.key with
  | none => rfl
  | some v =>
      simp only [Option.map_some, readEntry, readOr, Value.isNull_preferSigned, h v]

theorem ignoresForm_readMembers {members : List Member}
    (hmembers : ∀ m ∈ members, (m.reading body).IgnoresForm) :
    (readMembers body members).IgnoresForm :=
  .of_parts (fun _ _ _ _ => rfl) (fun _ _ => rfl) fun entries path =>
    decodeMembers_eq_of_forall fun m hm => m.decode_preferSigned (hmembers m hm) entries path

/-- A declared type ignores the form of integers if its members do. -/
theorem Schema.ignoresForm_decode {schema : Schema}
    (hmembers : ∀ m ∈ schema.members, (m.reading body).IgnoresForm) :
    Decoding.IgnoresForm (schema.decode body) := by
  cases schema with
  | struct title members =>
      intro v path
      have hread : (readMembers body members).IgnoresForm := ignoresForm_readMembers hmembers
      rw [Schema.decode_struct, Schema.decode_struct, hread v path]
  | enum title variants =>
      refine .of_parts (fun _ _ _ _ => rfl) (fun _ _ => rfl) fun entries path => ?_
      match entries with
      | [] => rfl
      | e :: f :: rest =>
          -- the error gives the number of entries
          have hlength := Value.length_preferSignedEntries (e :: f :: rest)
          exact congrArg (fun n => (Except.error ⟨path, .invalidEnumShape n⟩ :
            Except CodingError Datum)) hlength
      | [(key, payload)] =>
          rw [preferSignedEntries, preferSignedEntries]
          cases hcase : variants.find? fun case => case.key == key with
          | none => rw [Schema.decode_enum_of_unknown hcase, Schema.decode_enum_of_unknown hcase]
          | some case =>
              obtain rfl : case.key = key := by simpa using List.find?_some hcase
              have hpayload := ignoresForm_readMembers fun m hm =>
                hmembers m (List.mem_flatMap.mpr ⟨case, List.mem_of_find?_eq_some hcase, hm⟩)
              rw [Schema.decode_enum hcase, Schema.decode_enum hcase, hpayload]

end Reading

/-! ## Writing takes the signed form -/

/-- What a body writes, wherever it is run, is in signed form. -/
def Encoding.WritesSigned (body : Encoding Unit) : Prop :=
  ∀ path v, body.Writes path v → v.SignedWhereFits

section Writing

namespace Encoding

theorem writesSigned_value {v : Value} (h : v.SignedWhereFits) : (value v).WritesSigned := by
  rintro path _ ⟨e, he, rfl⟩
  cases he
  exact h

theorem writesSigned_pure : WritesSigned (pure ()) := by
  rintro path _ ⟨e, he, rfl⟩
  cases he
  exact Value.signedWhereFits_iff.mpr rfl

theorem writesSigned_throw (err : CodingError) : WritesSigned (throw err) := by
  rintro path _ ⟨e, he, rfl⟩
  cases he

theorem writesSigned_fail (cause : CodingCause) : WritesSigned (fail cause) := by
  rintro path _ ⟨e, he, rfl⟩
  cases he

end Encoding

open Encoding

theorem writesSigned_encodeInteger (n : Int) : (encodeInteger n).WritesSigned := by
  unfold encodeInteger
  split
  · next hv => exact writesSigned_value (Value.signedWhereFits_of_ofInteger? hv)
  · exact writesSigned_fail _

/-- A shape is written in signed form if the declared type that it refers to is. -/
theorem Shape.writesSigned_encodeWith {named : String → Datum → Encoding Unit} {shape : Shape}
    (hshape : shape.valueFree = true)
    (hnamed : ∀ name, shape.name? = some name → ∀ x, (named name x).WritesSigned) (x : Datum) :
    (shape.encodeWith named x).WritesSigned := by
  induction shape generalizing x with
  | int kind =>
      cases x with
      | int n => exact writesSigned_encodeInteger n
      | _ => exact writesSigned_pure
  | value => cases hshape
  | option inner ih =>
      cases x with
      | none => exact writesSigned_value (Value.signedWhereFits_iff.mpr rfl)
      | some y => exact ih hshape hnamed y
      | _ => exact writesSigned_pure
  | box inner ih =>
      simp only [Shape.encodeWith]
      exact ih hshape hnamed x
  | list inner ih =>
      cases x with
      | list items =>
          simp only [Shape.encodeWith]
          split
          · next values hvalues =>
            refine writesSigned_value (Value.SignedWhereFits.array_iff.mpr fun v hv => ?_)
            obtain ⟨y, -, hy⟩ := exists_of_forall₂_right (encodeItems_eq_ok_iff.mp hvalues) hv
            exact ih hshape hnamed y .root v hy
          · exact writesSigned_throw _
      | _ => exact writesSigned_pure
  | map kind inner ih =>
      cases x with
      | map entries =>
          simp only [Shape.encodeWith]
          split
          · next values hvalues =>
            refine writesSigned_value (Value.SignedWhereFits.object_iff.mpr fun e he => ?_)
            obtain ⟨f, -, -, hf⟩ := exists_of_forall₂_right (encodeEntries_eq_ok_iff.mp hvalues)
              (Entries.mem_of_mem_ofList he)
            exact ih hshape hnamed f.2 .root e.2 hf
          · exact writesSigned_throw _
      | _ => exact writesSigned_pure
  | named name =>
      simp only [Shape.encodeWith]
      exact hnamed name rfl x
  | _ =>
      cases x <;> first
        | exact writesSigned_value (Value.signedWhereFits_iff.mpr rfl)
        | exact writesSigned_pure

variable {body : Shape → Datum → Encoding Unit}

/-- An object of members is in signed form if each member is. -/
theorem writesSigned_encodeMembers {members : List Member}
    (hmembers : ∀ m ∈ members, ∀ x, (m.writing body x).WritesSigned) (fields : List Datum) :
    WritesSigned (container >>= fun _ => encodeMembers body members fields) := by
  rintro path _ ⟨e, he, rfl⟩
  have hput : ∀ m ∈ members, ∀ x v, (m.writing body x).Writes (path.child m.key) v →
      ∀ entries : Entries Value, (∀ e ∈ entries, e.2.SignedWhereFits) →
        ∀ e ∈ entries.put m.key v, e.2.SignedWhereFits := by
    intro m hm x v hv entries hentries e he
    rcases Entries.mem_of_mem_put he with rfl | he
    · exact hmembers m hm x _ v hv
    · exact hentries e he
  have hrun : encodeMembers body members fields (Encoder.holding path []) = .ok () e := he
  obtain ⟨final, rfl, hfinal⟩ :=
    encodeMembers_invariant _ hput (List.forall_mem_nil _) hrun
  exact Value.SignedWhereFits.object_iff.mpr hfinal

/-- A declared type is written in signed form if its members are. -/
theorem Schema.writesSigned_encode {schema : Schema}
    (hmembers : ∀ m ∈ schema.members, ∀ x, (m.writing body x).WritesSigned) (x : Datum) :
    (schema.encode body x).WritesSigned := by
  cases schema with
  | struct title members =>
      cases x with
      | record fields => exact writesSigned_encodeMembers hmembers fields
      | _ => exact writesSigned_pure
  | enum title variants =>
      cases x with
      | variant ident fields =>
          simp only [Schema.encode]
          split
          · next case hcase =>
            have hpayload := writesSigned_encodeMembers (fun m hm => hmembers m
              (List.mem_flatMap.mpr ⟨case, List.mem_of_find?_eq_some hcase, hm⟩)) fields
            rintro path _ ⟨e, he, rfl⟩
            have hrun : nested case.key (container >>= fun _ =>
                encodeMembers body case.members fields) (Encoder.holding path []) = .ok () e := he
            -- the only entry is the payload
            obtain ⟨v, hv, rfl⟩ := nested_holding_eq_ok hrun
            exact Value.SignedWhereFits.object_iff.mpr
              (List.forall_mem_singleton.mpr (hpayload _ v hv))
          · rintro path _ ⟨e, he, rfl⟩
            cases he
            exact Value.SignedWhereFits.object_iff.mpr (List.forall_mem_nil _)
      | _ => exact writesSigned_pure

end Writing

/-! ## Declared types -/

/-- A helper makes no difference between the forms of an integer, and takes the signed form where
there is one. -/
structure Helper.IgnoresForm (helper : Helper) : Prop where
  decode : helper.decode.IgnoresForm
  encode : ∀ x, (helper.encode x).WritesSigned

namespace Registry

/-- A member of a declared type that a shape is built from; what a helper codes is left to the
helper. -/
inductive BuildsOn (types : Registry) : Shape → Member → Prop
  | here {shape : Shape} {name : String} {schema : Schema} {m : Member}
      (hname : shape.name? = some name) (hfind : types.find? name = some schema)
      (hm : m ∈ schema.members) : BuildsOn types shape m
  | inside {shape : Shape} {name : String} {schema : Schema} {m inner : Member}
      (hname : shape.name? = some name) (hfind : types.find? name = some schema)
      (hm : m ∈ schema.members) (hhelper : m.helper = none) (h : BuildsOn types m.shape inner) :
      BuildsOn types shape inner

/-- Nothing that the shape is built from takes a value tree as it is, and the helpers in it ignore
the form of integers. -/
structure TakesNoTree (types : Registry) (shape : Shape) : Prop where
  outside : shape.valueFree = true
  members : ∀ m, types.BuildsOn shape m → m.helper = none → m.shape.valueFree = true
  helpers : ∀ m helper, types.BuildsOn shape m → m.helper = some helper → helper.IgnoresForm

variable {types : Registry} {shape : Shape} {name : String}

theorem BuildsOn.hasMember {m : Member} (h : types.BuildsOn shape m) : types.HasMember m := by
  induction h with
  | here _ hfind hm => exact ⟨_, _, hfind, hm⟩
  | inside _ _ _ _ _ ih => exact ih

theorem BuildsOn.of_named {m : Member} (h : types.BuildsOn (.named name) m)
    (hname : shape.name? = some name) : types.BuildsOn shape m := by
  cases h with
  | here hself hfind hm =>
      cases hself
      exact .here hname hfind hm
  | inside hself hfind hm hhelper hinside =>
      cases hself
      exact .inside hname hfind hm hhelper hinside

namespace TakesNoTree

theorem named (h : types.TakesNoTree shape) (hname : shape.name? = some name) :
    types.TakesNoTree (.named name) where
  outside := rfl
  members := fun m hm => h.members m (hm.of_named hname)
  helpers := fun m helper hm => h.helpers m helper (hm.of_named hname)

variable {schema : Schema} {m : Member}

theorem member (h : types.TakesNoTree (.named name)) (hfind : types.find? name = some schema)
    (hm : m ∈ schema.members) (hhelper : m.helper = none) : types.TakesNoTree m.shape where
  outside := h.members m (.here rfl hfind hm) hhelper
  members := fun inner hinner => h.members inner (.inside rfl hfind hm hhelper hinner)
  helpers := fun inner helper hinner =>
    h.helpers inner helper (.inside rfl hfind hm hhelper hinner)

theorem ignoresForm_decodeNamed (h : types.TakesNoTree (.named name)) (bound : Nat) :
    Decoding.IgnoresForm (types.decodeNamed bound name) := by
  -- One level of declared types reads its members at the level below.
  induction bound generalizing name with
  | zero => exact fun _ _ => rfl
  | succ bound ih =>
      intro v path
      simp only [decodeNamed]
      split
      · next schema hfind =>
        refine Schema.ignoresForm_decode (fun m hm => ?_) v path
        unfold Member.reading
        split
        · next helper hhelper =>
          exact (h.helpers m helper (.here rfl hfind hm) hhelper).decode
        · next hnone =>
          have hshape := h.member hfind hm hnone
          exact Shape.ignoresForm_decodeWith hshape.outside fun _ hname => ih (hshape.named hname)
      · rfl

theorem writesSigned_encodeNamed (h : types.TakesNoTree (.named name)) (bound : Nat) (x : Datum) :
    (types.encodeNamed bound name x).WritesSigned := by
  induction bound generalizing name x with
  | zero => exact Encoding.writesSigned_pure
  | succ bound ih =>
      simp only [encodeNamed]
      split
      · next schema hfind =>
        refine Schema.writesSigned_encode (fun m hm y => ?_) x
        unfold Member.writing
        split
        · next helper hhelper =>
          exact (h.helpers m helper (.here rfl hfind hm) hhelper).encode y
        · next hnone =>
          have hshape := h.member hfind hm hnone
          exact Shape.writesSigned_encodeWith hshape.outside
            (fun _ hname => ih (hshape.named hname)) y
      · exact Encoding.writesSigned_pure

end TakesNoTree

/-- Where no value tree is taken as it is and helpers ignore the form of integers, a tree decodes as
its signed form does, errors included, and what encoding writes is in signed form. -/
theorem coding_ignores_integer_forms (h : types.TakesNoTree shape) :
    (∀ v path, types.decode shape ⟨v.preferSigned, path⟩ = types.decode shape ⟨v, path⟩) ∧
      ∀ x w, types.toValue shape x = .ok w → w.SignedWhereFits := by
  constructor
  · intro v path
    unfold decode
    rw [Value.depth_preferSigned]
    exact Shape.ignoresForm_decodeWith h.outside
      (fun _ hname => (h.named hname).ignoresForm_decodeNamed _) v path
  · intro x w hw
    exact Shape.writesSigned_encodeWith h.outside
      (fun _ hname => (h.named hname).writesSigned_encodeNamed _) x .root w
      (Encoding.toValue_eq_ok_iff.mp hw)

end Registry

theorem Helper.ignoresForm_even : Helper.even.IgnoresForm where
  decode := (ignoresForm_decodeInteger .i64).map _
  encode := fun x => by
    cases x with
    | int n =>
        simp only [Helper.even]
        split
        · exact writesSigned_encodeInteger n
        · exact Encoding.writesSigned_fail _
    | _ => exact Encoding.writesSigned_pure

namespace Parcel

theorem takesNoTree : types.TakesNoTree (.named "Parcel") where
  outside := rfl
  members := fun m hm _ => by
    have hfree : members.all (fun m => m.shape.valueFree) = true := rfl
    exact List.all_eq_true.mp hfree m (mem_members hm.hasMember)
  helpers := fun m helper hm hhelper => by
    obtain rfl := eq_even ⟨m, hm.hasMember, hhelper⟩
    exact Helper.ignoresForm_even

/-- A parcel is read alike from unsigned numbers and from signed ones, and written with signed
ones. -/
theorem parcel_ignores_integer_forms :
    types.decode (.named "Parcel") ⟨.object [("count", .int 2), ("to", .string "Oz"),
        ("weight", .int 4)], ⟨["cart"]⟩⟩ =
      types.decode (.named "Parcel") ⟨.object [("count", .uint 2), ("to", .string "Oz"),
        ("weight", .uint 4)], ⟨["cart"]⟩⟩ ∧
    types.toValue (.named "Parcel") (.record [.string "Oz", .int 4, .int 2, .none, .bool true]) =
      .ok (.object [("count", .int 2), ("stamp", .bool true), ("to", .string "Oz"),
        ("weight", .int 4)]) ∧
    (Value.object [("count", .int 2), ("stamp", .bool true), ("to", .string "Oz"),
      ("weight", .int 4)]).SignedWhereFits := by
  obtain ⟨hread, hwritten⟩ := Registry.coding_ignores_integer_forms takesNoTree
  have hwrite : types.toValue (.named "Parcel")
      (.record [.string "Oz", .int 4, .int 2, .none, .bool true]) =
        .ok (.object [("count", .int 2), ("stamp", .bool true), ("to", .string "Oz"),
          ("weight", .int 4)]) := rfl
  exact ⟨hread (.object [("count", .uint 2), ("to", .string "Oz"), ("weight", .uint 4)]) _,
    hwrite, hwritten _ _ hwrite⟩

end Parcel

end KeyedCoding
