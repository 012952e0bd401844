import KeyedCoding.Coding.Text
import KeyedCoding.Proofs.Json.Nesting

/-!
# Value trees through JSON text

A value tree is written as text and read back.  Without finite floats what comes back is the tree
made canonical, from compact and from indented text alike, as long as no more than 127 arrays and
objects stand inside each other; a deeper tree is written all the same, but its text is refused.
-/

namespace KeyedCoding

/-- A tree in which no float has a JSON form. -/
inductive Value.WithoutFloats : Value → Prop
  | null : WithoutFloats .null
  | bool (b : Bool) : WithoutFloats (.bool b)
  | int (n : Int64) : WithoutFloats (.int n)
  | uint (n : UInt64) : WithoutFloats (.uint n)
  | float (x : Binary64) (h : x.isFinite = false) : WithoutFloats (.float x)
  | string (s : String) : WithoutFloats (.string s)
  | array {items : List Value} (h : ∀ v ∈ items, WithoutFloats v) : WithoutFloats (.array items)
  | object {entries : List (String × Value)} (h : ∀ e ∈ entries, WithoutFloats e.2) :
      WithoutFloats (.object entries)

namespace Value

/-! ## The JSON tree of a value tree -/

mutual

theorem depth_toJson : (v : Value) → v.toJson.depth = v.depth
  | null => rfl
  | bool _ => rfl
  | int n => rfl
  | uint _ => rfl
  | float x => by
      simp only [toJson, Json.ofBinary]
      split <;> rfl
  | string _ => rfl
  | array items => congrArg (· + 1) (depthItems_toJson items)
  | object entries => congrArg (· + 1) (depthEntries_toJson entries)

theorem depthItems_toJson : (items : List Value) →
    Json.depthItems (toJsonItems items) = depthItems items
  | [] => rfl
  | v :: rest => congrArg₂ max (depth_toJson v) (depthItems_toJson rest)

theorem depthEntries_toJson : (entries : List (String × Value)) →
    Json.depthEntries (toJsonEntries entries) = depthEntries entries
  | [] => rfl
  | (_, v) :: rest => congrArg₂ max (depth_toJson v) (depthEntries_toJson rest)

end

theorem toJsonItems_eq_map (items : List Value) : toJsonItems items = items.map toJson := by
  induction items with
  | nil => rfl
  | cons v rest ih => rw [toJsonItems, ih, List.map_cons]

theorem toJsonEntries_eq_map (entries : List (String × Value)) :
    toJsonEntries entries = entries.map fun e => (e.1, e.2.toJson) := by
  induction entries with
  | nil => rfl
  | cons e rest ih => rw [toJsonEntries, ih, List.map_cons]

theorem plain_ofInt64 (n : Int64) : (Json.number (JsonNumber.ofInt64 n)).Plain := by
  unfold JsonNumber.ofInt64
  split
  · next hneg => exact .negative n hneg
  · exact .natural _

/-- The JSON tree of a tree without finite floats has no floats, and keeps the order of keys. -/
theorem plain_toJson {v : Value} (hv : v.WellFormed) (hfloats : v.WithoutFloats) :
    v.toJson.Plain := by
  -- The induction is on the order of keys; `hfloats` is taken apart where there are parts.
  induction hv with
  | null => exact .null
  | bool b => exact .bool b
  | int n => exact plain_ofInt64 n
  | uint n => exact .natural n
  | float x =>
      cases hfloats with
      | float _ hfinite =>
          rw [toJson, Json.ofBinary, dif_neg (by simp [hfinite])]
          exact .null
  | string s => exact .string s
  | @array items _ ih =>
      cases hfloats with
      | array hitems =>
          rw [toJson, toJsonItems_eq_map]
          refine .array fun j hj => ?_
          obtain ⟨v, hv, rfl⟩ := List.mem_map.mp hj
          exact ih v hv (hitems v hv)
  | @object entries hsorted _ ih =>
      cases hfloats with
      | object hentries =>
          rw [toJson, toJsonEntries_eq_map]
          refine .object ?_ fun e he => ?_
          · have hkeys : Entries.keys (entries.map fun e => (e.1, e.2.toJson)) =
                Entries.keys entries := by
              rw [Entries.keys, List.map_map]
              rfl
            rw [Entries.Sorted, hkeys]
            exact hsorted
          · obtain ⟨f, hf, rfl⟩ := List.mem_map.mp he
            exact ih f hf (hentries f hf)

/-! ## Reading a text back -/

/-- Text in any layout is read back as the canonical tree, or refused for its depth. -/
theorem ofText_lay {l : Layout} (hl : l.Blank) {v : Value} (hv : v.WellFormed)
    (hfloats : v.WithoutFloats) {text : String} (htext : text.toList = Json.lay l 0 v.toJson) :
    (v.depth ≤ 127 → ofText text = .ok v.canonical) ∧
      (127 < v.depth → ∃ line column,
        ofText text =
          .error ⟨.root, .json (Json.FaultAt.message ⟨.nestedTooDeep, line, column⟩)⟩) := by
  obtain ⟨hread, hrefuse⟩ := Json.read_lay hl (plain_toJson hv hfloats) htext
  rw [depth_toJson] at hread hrefuse
  constructor
  · intro hdepth
    rw [ofText, hread hdepth]
    exact congrArg Except.ok (ofJson_toJson v)
  · intro hdepth
    obtain ⟨line, column, hfault⟩ := hrefuse hdepth
    exact ⟨line, column, by rw [ofText, hfault]⟩

end Value

namespace Registry

theorem fromText_value_of_ok (types : Registry) {text : String} {v : Value}
    (h : Value.ofText text = .ok v) : types.fromText .value text = .ok (.value v) := by
  rw [fromText, h]
  rfl

theorem fromText_value_of_error (types : Registry) {text : String} {err : CodingError}
    (h : Value.ofText text = .error err) : types.fromText .value text = .error err := by
  rw [fromText, h]
  rfl

/-- A value tree without finite floats comes back canonical from compact and from indented text if
at most 127 arrays and objects stand inside each other; otherwise both texts are refused at the
root. -/
theorem fromText_toText_eq_canonical (types : Registry) {v : Value} (hv : v.WellFormed)
    (hfloats : v.WithoutFloats) :
    ∃ compact indented, types.toText .value (.value v) = .ok compact ∧
      types.toPrettyText .value (.value v) = .ok indented ∧
      (v.depth ≤ 127 → types.fromText .value compact = .ok (.value v.canonical) ∧
        types.fromText .value indented = .ok (.value v.canonical)) ∧
      (127 < v.depth →
        (∃ line column, types.fromText .value compact =
          .error ⟨.root, .json (Json.FaultAt.message ⟨.nestedTooDeep, line, column⟩)⟩) ∧
        ∃ line column, types.fromText .value indented =
          .error ⟨.root, .json (Json.FaultAt.message ⟨.nestedTooDeep, line, column⟩)⟩) := by
  have hcompact := Value.ofText_lay Layout.blank_compact hv hfloats
    (Json.toList_compact 0 v.toJson)
  have hindented := Value.ofText_lay Layout.blank_indented hv hfloats
    (Json.toList_pretty 0 v.toJson)
  refine ⟨v.compactText, v.prettyText, rfl, rfl, fun hdepth => ?_, fun hdepth => ?_⟩
  · exact ⟨types.fromText_value_of_ok (hcompact.1 hdepth),
      types.fromText_value_of_ok (hindented.1 hdepth)⟩
  · obtain ⟨line, column, hrefused⟩ := hcompact.2 hdepth
    obtain ⟨line', column', hrefused'⟩ := hindented.2 hdepth
    exact ⟨⟨line, column, types.fromText_value_of_error hrefused⟩,
      ⟨line', column', types.fromText_value_of_error hrefused'⟩⟩

end Registry

/-! ## A tree with a little of everything -/

namespace Assorted

/-- A text with a quote, a control character and a character beyond the basic plane. -/
def text : String := "\"\x01😀"

/-- The greatest signed number and the one behind it, both unsigned, and a number that is none. -/
def leaves : List Value :=
  [.uint 9223372036854775807, .uint 9223372036854775808, .float Binary64.nan, .string text]

/-- The leaves in an array, beside an empty object. -/
def tree : Value := .object [("\n", .array leaves), ("b", .object [])]

/-- What JSON text tells of the tree. -/
def told : Value :=
  .object [("\n", .array [.int 9223372036854775807, .uint 9223372036854775808, .null,
    .string text]), ("b", .object [])]

theorem canonical_tree : tree.canonical = told := by rfl

theorem wellFormed_tree : tree.WellFormed := by
  have hleaves : ∀ v ∈ leaves, v.WellFormed := by
    simp only [leaves, List.forall_mem_cons, List.not_mem_nil, false_implies, implies_true,
      and_true]
    exact ⟨.uint _, .uint _, .float _, .string _⟩
  refine .object (show List.Pairwise (· < ·) ["\n", "b"] by decide) ?_
  simp only [List.forall_mem_cons, List.not_mem_nil, false_implies, implies_true, and_true]
  exact ⟨.array hleaves, .object .nil (by simp)⟩

theorem withoutFloats_tree : tree.WithoutFloats := by
  have hleaves : ∀ v ∈ leaves, v.WithoutFloats := by
    simp only [leaves, List.forall_mem_cons, List.not_mem_nil, false_implies, implies_true,
      and_true]
    exact ⟨.uint _, .uint _, .float _ (by decide), .string _⟩
  refine .object ?_
  simp only [List.forall_mem_cons, List.not_mem_nil, false_implies, implies_true, and_true]
  exact ⟨.array hleaves, .object (by simp)⟩

/-- Both texts of the tree tell the same. -/
theorem fromText_toText_tree :
    tree.WellFormed ∧ tree.WithoutFloats ∧ tree.depth ≤ 127 ∧
    ∃ compact indented, (Registry.mk []).toText .value (.value tree) = .ok compact ∧
      (Registry.mk []).toPrettyText .value (.value tree) = .ok indented ∧
      (Registry.mk []).fromText .value compact = .ok (.value told) ∧
      (Registry.mk []).fromText .value indented = .ok (.value told) := by
  have hdepth : tree.depth ≤ 127 := by decide
  obtain ⟨compact, indented, hcompact, hindented, hback, -⟩ :=
    Registry.fromText_toText_eq_canonical (Registry.mk []) wellFormed_tree withoutFloats_tree
  rw [canonical_tree] at hback
  exact ⟨wellFormed_tree, withoutFloats_tree, hdepth, compact, indented, hcompact, hindented,
    hback hdepth⟩

end Assorted

end KeyedCoding
