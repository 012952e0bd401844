import KeyedCoding.Proofs.Coding.Tagged

/-!
# Maps in any order

A map is written entry by entry, in whatever order it gives its entries.  The order is lost when the
trees of the entries are put together: whether it succeeds and what it writes depend on the entries
alone, and are the same for a map that keeps its entries by key.  Reading goes the other way round.
An object gives its entries by key, whichever map they are read for, and the least key that fails
says how.
-/

namespace KeyedCoding

/-! ## Writing -/

namespace Registry

/-- The object of a map: its keys are those of the map, and each holds what its element is written
as on its own. -/
structure HoldsOwn (types : Registry) (inner : Shape) (entries : List (String × Datum))
    (object : Entries Value) : Prop where
  sorted : object.Sorted
  keys : object.keys.Perm (Entries.keys entries)
  own : ∀ e ∈ entries, ∃ v, types.toValue inner e.2 = .ok v ∧ object.get? e.1 = some v

variable {types : Registry} {inner : Shape} {entries entries' : List (String × Datum)}

namespace HoldsOwn

variable {object object' : Entries Value}

/-- The order of the map's entries plays no part. -/
theorem of_perm (h : types.HoldsOwn inner entries object) (horder : entries.Perm entries') :
    types.HoldsOwn inner entries' object where
  sorted := h.sorted
  keys := h.keys.trans (horder.map Prod.fst)
  own := fun e he => h.own e (horder.mem_iff.mpr he)

/-- A map has one object. -/
theorem unique (h : types.HoldsOwn inner entries object)
    (h' : types.HoldsOwn inner entries object') : object = object' := by
  refine h.sorted.ext h'.sorted fun key => ?_
  by_cases hkey : key ∈ Entries.keys entries
  · obtain ⟨e, he, rfl⟩ := List.mem_map.mp hkey
    obtain ⟨v, hv, hget⟩ := h.own e he
    obtain ⟨v', hv', hget'⟩ := h'.own e he
    rw [hv] at hv'
    rw [hget, hget', Except.ok.inj hv']
  · rw [Entries.get?_eq_none_iff.mpr fun hmem => hkey (h.keys.mem_iff.mp hmem),
      Entries.get?_eq_none_iff.mpr fun hmem => hkey (h'.keys.mem_iff.mp hmem)]

/-- The trees of entries with different keys are put together to the object of the map. -/
theorem of_encodeEntries {values : List (String × Value)} (hkeys : (Entries.keys entries).Nodup)
    (h : encodeEntries (types.encode inner) entries = .ok values) :
    types.HoldsOwn inner entries (Entries.ofList values) := by
  have hmatched := encodeEntries_eq_ok_iff.mp h
  have hsame : Entries.keys values = Entries.keys entries :=
    map_eq_map_of_forall₂ (hmatched.imp fun _ _ hef => hef.1.symm)
  have hput : (Entries.ofList values).Perm values := Entries.perm_ofList (hsame ▸ hkeys)
  have hsorted := Entries.sorted_ofList values
  refine ⟨hsorted, hsame ▸ hput.map Prod.fst, fun e he => ?_⟩
  obtain ⟨⟨key, v⟩, hf, rfl, hv⟩ := exists_of_forall₂_left hmatched he
  exact ⟨v, Encoding.toValue_eq_ok_iff.mpr hv,
    (Entries.mem_iff_get? hsorted.nodup_keys).mp (hput.mem_iff.mpr hf)⟩

end HoldsOwn

/-- A map is written wherever the encoder stands and whatever it holds. -/
theorem encode_map_eq (types : Registry) (kind : MapKind) (inner : Shape)
    (entries : List (String × Datum)) (e : Encoder) :
    types.encode (.map kind inner) (.map entries) e =
      match types.toValue (.map kind inner) (.map entries) with
      | .ok w => .ok () (e.hold w)
      | .error err => .error err e := by
  rw [toValue, encode_map]
  cases encodeEntries (types.encode inner) entries <;> rfl

theorem toValue_map_eq (types : Registry) (kind : MapKind) (inner : Shape)
    (entries : List (String × Datum)) :
    types.toValue (.map kind inner) (.map entries) =
      (encodeEntries (types.encode inner) entries).map Value.ofPairs := by
  rw [toValue, encode_map]
  cases encodeEntries (types.encode inner) entries <;> rfl

/-- Every element of a map that is written is written on its own. -/
theorem exists_toValue_map_eq_ok_iff (kind : MapKind) :
    (∃ w, types.toValue (.map kind inner) (.map entries) = .ok w) ↔
      ∀ e ∈ entries, ∃ v, types.toValue inner e.2 = .ok v := by
  rw [toValue_map_eq, exists_map_eq_ok_iff]
  constructor
  · rintro ⟨values, h⟩ e he
    obtain ⟨f, -, -, hf⟩ := exists_of_forall₂_left (encodeEntries_eq_ok_iff.mp h) he
    exact ⟨f.2, Encoding.toValue_eq_ok_iff.mpr hf⟩
  · intro h
    cases hrun : encodeEntries (types.encode inner) entries with
    | ok values => exact ⟨values, rfl⟩
    | error err =>
        obtain ⟨e, he, hfails⟩ := encodeEntries_eq_error hrun
        obtain ⟨v, hv⟩ := h e he
        have herr : types.toValue inner e.2 = .error err := hfails.toValue_eq
        rw [hv] at herr
        cases herr

/-- What a map with different keys is written as. -/
theorem toValue_map_eq_ok_iff {kind : MapKind} (hkeys : (Entries.keys entries).Nodup) {w : Value} :
    types.toValue (.map kind inner) (.map entries) = .ok w ↔
      ∃ object, w = .object object ∧ types.HoldsOwn inner entries object := by
  constructor
  · intro h
    rw [toValue_map_eq] at h
    obtain ⟨values, hvalues, rfl⟩ := map_eq_ok_iff.mp h
    exact ⟨_, rfl, .of_encodeEntries hkeys hvalues⟩
  · rintro ⟨object, rfl, hobject⟩
    -- every element is written, so the map is, and its object is the only one
    have hwritten : ∀ e ∈ entries, ∃ v, types.toValue inner e.2 = .ok v := fun e he =>
      (hobject.own e he).imp fun _ hv => hv.1
    obtain ⟨w, hw⟩ := (exists_toValue_map_eq_ok_iff kind).mpr hwritten
    rw [hw]
    rw [toValue_map_eq] at hw
    obtain ⟨values, hvalues, rfl⟩ := map_eq_ok_iff.mp hw
    rw [Value.ofPairs, (HoldsOwn.of_encodeEntries hkeys hvalues).unique hobject]

theorem toValue_map_eq_error {kind : MapKind} {err : CodingError}
    (h : types.toValue (.map kind inner) (.map entries) = .error err) :
    ∃ e ∈ entries, types.toValue inner e.2 = .error err := by
  rw [toValue_map_eq] at h
  obtain ⟨e, he, hfails⟩ := encodeEntries_eq_error (map_eq_error_iff.mp h)
  exact ⟨e, he, hfails.toValue_eq⟩

end Registry

/-! ## Reading -/

/-- Entries in key order fail with the least key that fails. -/
theorem decodeEntries_eq_error_iff {body : Decoding Datum} {entries : Entries Value}
    {path : CodingPath} {err : CodingError} (hsorted : entries.Sorted) :
    decodeEntries body path entries = .error err ↔
      ∃ e ∈ entries, body ⟨e.2, path.child e.1⟩ = .error err ∧
        ∀ b ∈ entries, b.1 < e.1 → ∃ y, body ⟨b.2, path.child b.1⟩ = .ok y := by
  simp only [decodeEntries_eq_mapM, mapM_eq_error_iff, map_eq_error_iff, exists_map_eq_ok_iff]
  constructor
  · rintro ⟨before, e, behind, rfl, herr, hbefore⟩
    refine ⟨e, List.mem_append_right _ List.mem_cons_self, herr, fun b hb hlt => ?_⟩
    -- the keys behind are not less
    rcases List.mem_append.mp hb with hb | hb
    · exact hbefore b hb
    · have hle := (List.pairwise_cons.mp (List.pairwise_append.mp hsorted.pairwise).2.1).1
      rcases List.mem_cons.mp hb with rfl | hb
      · exact absurd hlt (String.lt_irrefl _)
      · exact absurd (String.lt_trans hlt (hle b hb)) (String.lt_irrefl _)
  · rintro ⟨e, he, herr, hbelow⟩
    obtain ⟨before, behind, rfl⟩ := List.append_of_mem he
    have hlt := (List.pairwise_append.mp hsorted.pairwise).2.2
    exact ⟨before, e, behind, rfl, herr, fun b hb =>
      hbelow b (List.mem_append_left _ hb) (hlt b hb e List.mem_cons_self)⟩

/-! ## Maps that keep an order and maps that do not -/

namespace Registry

/-- Two orders of the entries of a map, and the order by key, are written alike. -/
structure WritesInAnyOrder (types : Registry) (inner : Shape)
    (entries entries' : List (String × Datum)) : Prop where
  alike : ∀ w, types.toValue (.map .hashed inner) (.map entries) = .ok w ↔
    types.toValue (.map .hashed inner) (.map entries') = .ok w
  /-- The map that keeps the same entries by key is written alike. -/
  ordered : ∀ w, types.toValue (.map .hashed inner) (.map entries) = .ok w ↔
    types.toValue (.map .ordered inner) (.map (Entries.ofList entries)) = .ok w
  ok_iff : ∀ w, types.toValue (.map .hashed inner) (.map entries) = .ok w ↔
    ∃ object, w = .object object ∧ types.HoldsOwn inner entries object
  written_iff : (∃ w, types.toValue (.map .hashed inner) (.map entries) = .ok w) ↔
    ∀ e ∈ entries, ∃ v, types.toValue inner e.2 = .ok v
  /-- The error is that of an element, in any order. -/
  error : ∀ err, types.toValue (.map .hashed inner) (.map entries) = .error err ∨
      types.toValue (.map .hashed inner) (.map entries') = .error err ∨
      types.toValue (.map .ordered inner) (.map (Entries.ofList entries)) = .error err →
    ∃ e ∈ entries, types.toValue inner e.2 = .error err

/-- An object is read by key, whichever map it is read for. -/
structure ReadsByKey (types : Registry) (inner : Shape) (object : Entries Value)
    (path : CodingPath) : Prop where
  alike : types.decode (.map .hashed inner) ⟨.object object, path⟩ =
    types.decode (.map .ordered inner) ⟨.object object, path⟩
  /-- The map has the keys of the object, each with what is read there. -/
  ok_iff : ∀ x, types.decode (.map .hashed inner) ⟨.object object, path⟩ = .ok x ↔
    ∃ entries, x = .map entries ∧ List.Forall₂
      (fun e f => e.1 = f.1 ∧ types.decode inner ⟨e.2, path.child e.1⟩ = .ok f.2) object entries
  /-- The error is that of the least key that fails. -/
  error_iff : ∀ err, types.decode (.map .hashed inner) ⟨.object object, path⟩ = .error err ↔
    ∃ e ∈ object, types.decode inner ⟨e.2, path.child e.1⟩ = .error err ∧
      ∀ b ∈ object, b.1 < e.1 → ∃ y, types.decode inner ⟨b.2, path.child b.1⟩ = .ok y

variable {inner : Shape}

theorem writesInAnyOrder (types : Registry) {entries entries' : List (String × Datum)}
    (hkeys : (Entries.keys entries).Nodup) (horder : entries.Perm entries') :
    types.WritesInAnyOrder inner entries entries' := by
  have hsame : ∀ {kind listed w}, entries.Perm listed →
      (types.toValue (.map .hashed inner) (.map entries) = .ok w ↔
        types.toValue (.map kind inner) (.map listed) = .ok w) := by
    intro kind listed w hlisted
    have hnodup : (Entries.keys listed).Nodup := (hlisted.map Prod.fst).nodup_iff.mp hkeys
    rw [toValue_map_eq_ok_iff hkeys, toValue_map_eq_ok_iff hnodup]
    exact exists_congr fun object => and_congr_right fun _ =>
      ⟨fun h => h.of_perm hlisted, fun h => h.of_perm hlisted.symm⟩
  have hsorted : entries.Perm (Entries.ofList entries) := (Entries.perm_ofList hkeys).symm
  refine ⟨fun w => hsame horder, fun w => hsame hsorted, fun w => toValue_map_eq_ok_iff hkeys,
    exists_toValue_map_eq_ok_iff .hashed, ?_⟩
  rintro err (h | h | h)
  · exact toValue_map_eq_error h
  · obtain ⟨e, he, herr⟩ := toValue_map_eq_error h
    exact ⟨e, horder.mem_iff.mpr he, herr⟩
  · obtain ⟨e, he, herr⟩ := toValue_map_eq_error h
    exact ⟨e, hsorted.mem_iff.mpr he, herr⟩

theorem readsByKey (types : Registry) {object : Entries Value} (hsorted : object.Sorted)
    (path : CodingPath) : types.ReadsByKey inner object path := by
  refine ⟨?_, fun x => ?_, fun err => ?_⟩
  · rw [decode_map, decode_map]
  · rw [decode_map, map_eq_ok_iff]
    simp only [decodeEntries_eq_ok_iff]
    exact exists_congr fun entries => and_comm.trans (and_congr_left fun _ => eq_comm)
  · rw [decode_map, map_eq_error_iff, decodeEntries_eq_error_iff hsorted]

/-- Maps are written without regard to the order of their entries, wherever the encoder stands, and
read by key. -/
theorem maps_coded_in_any_order (types : Registry) (inner : Shape) :
    (∀ (entries entries' : List (String × Datum)), (Entries.keys entries).Nodup →
      entries.Perm entries' → types.WritesInAnyOrder inner entries entries') ∧
    (∀ (kind : MapKind) (entries : List (String × Datum)) (e : Encoder),
      types.encode (.map kind inner) (.map entries) e =
        match types.toValue (.map kind inner) (.map entries) with
        | .ok w => .ok () (e.hold w)
        | .error err => .error err e) ∧
    ∀ (object : Entries Value) (path : CodingPath), object.Sorted →
      types.ReadsByKey inner object path :=
  ⟨fun _ _ hkeys horder => types.writesInAnyOrder hkeys horder,
    fun kind entries e => types.encode_map_eq kind inner entries e,
    fun _ path hsorted => types.readsByKey hsorted path⟩

end Registry

namespace Purse

/-- Two coins by name are written as one tree in either order, and of two trees that are no coins
the one with the lesser name is reported. -/
theorem named_coins_coded_in_any_order :
    types.toValue (.map .hashed (.named "Coin"))
        (.map [("right", .record [.int 2]), ("left", .record [.int 4])]) =
      .ok (.object [("left", .object [("amount", .int 4)]),
        ("right", .object [("amount", .int 2)])]) ∧
    types.toValue (.map .hashed (.named "Coin"))
        (.map [("left", .record [.int 4]), ("right", .record [.int 2])]) =
      .ok (.object [("left", .object [("amount", .int 4)]),
        ("right", .object [("amount", .int 2)])]) ∧
    types.decode (.map .hashed (.named "Coin"))
        ⟨.object [("left", .null), ("right", .bool true)], ⟨["desk"]⟩⟩ =
      .error ⟨⟨["desk", "left"]⟩, .typeMismatch "object" "null"⟩ := by
  obtain ⟨hwrites, -, hreads⟩ := Registry.maps_coded_in_any_order types (.named "Coin")
  have hcoins := hwrites [("right", .record [.int 2]), ("left", .record [.int 4])]
    [("left", .record [.int 4]), ("right", .record [.int 2])] (by decide) (.swap _ _ [])
  have hsorted : Entries.Sorted [("left", Value.null), ("right", .bool true)] := by
    unfold Entries.Sorted
    decide
  have hfirst : types.toValue (.map .hashed (.named "Coin"))
      (.map [("right", .record [.int 2]), ("left", .record [.int 4])]) =
        .ok (.object [("left", .object [("amount", .int 4)]),
          ("right", .object [("amount", .int 2)])]) := rfl
  refine ⟨hfirst, (hcoins.alike _).mp hfirst, ((hreads _ ⟨["desk"]⟩ hsorted).error_iff _).mpr
    ⟨("left", .null), List.mem_cons_self, rfl, fun b hb hlt => ?_⟩⟩
  rcases List.mem_cons.mp hb with rfl | hb
  · exact absurd hlt (String.lt_irrefl _)
  · obtain rfl := List.mem_singleton.mp hb
    exact absurd hlt (by decide)

end Purse

end KeyedCoding
