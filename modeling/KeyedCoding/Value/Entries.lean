/-!
# Entries of an object

An object is an association list in strictly increasing key order.  Keys are compared by code
points.  `Entries.put` keeps the order and replaces the value of a key that is present, so the
entries of an object are determined by what `Entries.get?` answers.
-/

namespace KeyedCoding

universe u v

/-- Key-value pairs, held in strictly increasing key order. -/
abbrev Entries (α : Type u) := List (String × α)

namespace Entries

variable {α : Type u} {β : Type v}

/-- The value held at `key`. -/
def get? : Entries α → String → Option α
  | [], _ => none
  | (k, x) :: rest, key => if k = key then some x else get? rest key

/-- Hold `x` at `key`, in place of what was held there. -/
def put : Entries α → String → α → Entries α
  | [], key, x => [(key, x)]
  | (k, y) :: rest, key, x =>
      if key < k then (key, x) :: (k, y) :: rest
      else if key = k then (key, x) :: rest
      else (k, y) :: put rest key x

/-- Put the pairs of a list one after the other: of two pairs with one key the later stays. -/
def ofList (pairs : List (String × α)) : Entries α :=
  pairs.foldl (fun held pair => put held pair.1 pair.2) []

/-- The keys, in order. -/
def keys (entries : Entries α) : List String :=
  entries.map Prod.fst

/-- The representation invariant: keys increase strictly. -/
def Sorted (entries : Entries α) : Prop :=
  entries.keys.Pairwise (· < ·)

@[simp] theorem get?_nil (key : String) : get? ([] : Entries α) key = none := rfl

theorem get?_put_self (entries : Entries α) (key : String) (x : α) :
    get? (put entries key x) key = some x := by
  induction entries with
  | nil => simp [put, get?]
  | cons head rest ih =>
      obtain ⟨k, y⟩ := head
      by_cases hlt : key < k
      · simp [put, hlt, get?]
      · by_cases heq : key = k
        · simp [put, heq, get?]
        · have hne : k ≠ key := fun h => heq h.symm
          simp [put, hlt, heq, get?, hne, ih]

theorem get?_put_of_ne (entries : Entries α) {key other : String} (x : α) (h : other ≠ key) :
    get? (put entries key x) other = get? entries other := by
  have h' : key ≠ other := fun e => h e.symm
  induction entries with
  | nil => simp [put, get?, h']
  | cons head rest ih =>
      obtain ⟨k, y⟩ := head
      by_cases hlt : key < k
      · simp [put, hlt, get?, h']
      · by_cases heq : key = k
        · subst heq
          simp [put, get?, h']
        · by_cases hk : k = other
          · subst hk
            simp [put, hlt, heq, get?]
          · simp [put, hlt, heq, get?, hk, ih]

/-- What is held at a key is one of the pairs. -/
theorem mem_of_get? {entries : Entries α} {key : String} {x : α}
    (h : get? entries key = some x) : (key, x) ∈ entries := by
  induction entries with
  | nil => simp at h
  | cons head rest ih =>
      obtain ⟨k, y⟩ := head
      simp only [get?] at h
      by_cases hk : k = key
      · subst hk
        simp only [if_true, Option.some.injEq] at h
        subst h
        exact List.mem_cons_self
      · simp only [hk, if_false] at h
        exact List.mem_cons_of_mem _ (ih h)

/-- Putting adds its key and keeps every other. -/
theorem mem_keys_put {entries : Entries α} {key other : String} {x : α} :
    other ∈ (put entries key x).keys ↔ other = key ∨ other ∈ entries.keys := by
  induction entries with
  | nil => simp [put, keys]
  | cons head rest ih =>
      obtain ⟨k, y⟩ := head
      by_cases hlt : key < k
      · simp [put, hlt, keys]
      · by_cases heq : key = k
        · simp [put, heq, keys]
        · simp only [keys, put, hlt, heq, if_false, List.map_cons, List.mem_cons] at ih ⊢
          rw [ih]
          exact or_left_comm

private theorem lt_of_not_lt_of_ne {a b : String} (h : ¬ a < b) (hne : a ≠ b) : b < a :=
  String.not_le.mp fun hle => hne (String.le_antisymm hle (String.not_lt.mp h))

/-- Putting keeps the order. -/
theorem sorted_put {entries : Entries α} (h : entries.Sorted) (key : String) (x : α) :
    (put entries key x).Sorted := by
  induction entries with
  | nil => simp [put, Sorted, keys]
  | cons head rest ih =>
      obtain ⟨k, y⟩ := head
      obtain ⟨hk, hrest⟩ := List.pairwise_cons.mp h
      by_cases hlt : key < k
      · simp only [put, hlt, if_true]
        refine List.pairwise_cons.mpr ⟨fun other hmem => ?_, h⟩
        rcases List.mem_cons.mp hmem with rfl | hmem
        · exact hlt
        · exact String.lt_trans hlt (hk other hmem)
      · by_cases heq : key = k
        · subst heq
          simp only [put, hlt, if_false, if_true]
          exact h
        · simp only [put, hlt, heq, if_false]
          refine List.pairwise_cons.mpr ⟨fun other hmem => ?_, ih hrest⟩
          rcases mem_keys_put.mp hmem with rfl | hmem
          · exact lt_of_not_lt_of_ne hlt heq
          · exact hk other hmem

/-- Entries put together from pairs are in order, whatever the order of the pairs. -/
theorem sorted_ofList (pairs : List (String × α)) : (ofList pairs).Sorted := by
  suffices ∀ held : Entries α, held.Sorted →
      (pairs.foldl (fun held pair => put held pair.1 pair.2) held).Sorted from
    this [] List.Pairwise.nil
  induction pairs with
  | nil => exact fun _ h => h
  | cons pair rest ih => exact fun held h => ih _ (sorted_put h pair.1 pair.2)

end Entries

end KeyedCoding
