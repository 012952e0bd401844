import KeyedCoding.Value
import Mathlib.Data.List.Forall2
import Mathlib.Data.List.Induction

/-!
# Entries put together

Pairs put into an object one after the other: pairs in key order stay as they are, and two lists of
pairs that match key by key become entries that match key by key.
-/

namespace KeyedCoding

universe u v

namespace Entries

variable {α : Type u} {β : Type v}

theorem get?_eq_none_iff {entries : Entries α} {key : String} :
    entries.get? key = none ↔ key ∉ entries.keys := by
  induction entries with
  | nil => simp [keys]
  | cons head rest ih =>
      obtain ⟨k, x⟩ := head
      by_cases hk : k = key
      · simp [get?, keys, hk]
      · simp only [get?, hk, if_false, ih, keys, List.map_cons, List.mem_cons, not_or]
        exact ⟨fun h => ⟨fun heq => hk heq.symm, h⟩, fun h => h.2⟩

/-- A key above all others goes to the end. -/
theorem put_of_forall_lt {entries : Entries α} {key : String} (x : α)
    (h : ∀ k ∈ entries.keys, k < key) : put entries key x = entries ++ [(key, x)] := by
  induction entries with
  | nil => rfl
  | cons head rest ih =>
      obtain ⟨k, y⟩ := head
      have hk : k < key := h k (by simp [keys])
      have hnot : ¬ key < k := fun hlt => String.lt_irrefl k (String.lt_trans hk hlt)
      have hne : key ≠ k := fun heq => String.lt_irrefl k (heq ▸ hk)
      have hrest : ∀ k ∈ keys rest, k < key := by
        intro k' hk'
        exact h k' (List.mem_cons_of_mem _ hk')
      simp only [put, hnot, hne, if_false, ih hrest, List.cons_append]

/-- What is held after a pair was put is that pair or was held before. -/
theorem mem_of_mem_put {entries : Entries α} {key : String} {x : α} {e : String × α}
    (h : e ∈ put entries key x) : e = (key, x) ∨ e ∈ entries := by
  induction entries with
  | nil => exact .inl (List.mem_singleton.mp h)
  | cons head rest ih =>
      obtain ⟨k, y⟩ := head
      by_cases hlt : key < k
      · simp only [put, hlt, if_true] at h
        exact List.mem_cons.mp h
      · by_cases heq : key = k
        · simp only [put, hlt, if_false, if_pos heq] at h
          exact (List.mem_cons.mp h).imp_right (List.mem_cons_of_mem _)
        · simp only [put, hlt, heq, if_false] at h
          rcases List.mem_cons.mp h with rfl | hrest
          · exact .inr List.mem_cons_self
          · exact (ih hrest).imp_right (List.mem_cons_of_mem _)

theorem ofList_concat (pairs : List (String × α)) (key : String) (x : α) :
    ofList (pairs ++ [(key, x)]) = put (ofList pairs) key x := by
  simp only [ofList, List.foldl_append, List.foldl_cons, List.foldl_nil]

/-- Everything that is held after pairs were put together is one of the pairs. -/
theorem mem_of_mem_ofList {pairs : List (String × α)} {e : String × α} (h : e ∈ ofList pairs) :
    e ∈ pairs := by
  induction pairs using List.reverseRecOn with
  | nil => exact h
  | append_singleton before pair ih =>
      obtain ⟨k, x⟩ := pair
      rw [ofList_concat] at h
      rw [List.mem_append, List.mem_singleton]
      exact (mem_of_mem_put h).symm.imp_left ih

/-- A key holds what the last of its pairs gave it. -/
theorem get?_ofList (pairs : List (String × α)) (key : String) :
    (ofList pairs).get? key = pairs.reverse.lookup key := by
  induction pairs using List.reverseRecOn with
  | nil => rfl
  | append_singleton before pair ih =>
      obtain ⟨k, x⟩ := pair
      rw [ofList_concat, List.reverse_append, List.reverse_singleton, List.singleton_append,
        List.lookup_cons]
      by_cases hk : key = k
      · subst hk
        rw [get?_put_self, beq_self_eq_true]
      · rw [get?_put_of_ne _ x hk, ih, beq_false_of_ne hk]

/-- A key that is not held yet is added. -/
theorem perm_put {entries : Entries α} {key : String} (x : α) (h : key ∉ entries.keys) :
    (put entries key x).Perm ((key, x) :: entries) := by
  induction entries with
  | nil => exact .refl _
  | cons head rest ih =>
      obtain ⟨k, y⟩ := head
      simp only [keys, List.map_cons, List.mem_cons, not_or] at h
      by_cases hlt : key < k
      · simp only [put, hlt, if_true]
        exact .refl _
      · simp only [put, hlt, h.1, if_false]
        exact ((ih h.2).cons (k, y)).trans (.swap _ _ _)

/-- Pairs with different keys are put together without a loss. -/
theorem perm_ofList {pairs : List (String × α)} (h : (keys pairs).Nodup) :
    (ofList pairs).Perm pairs := by
  induction pairs using List.reverseRecOn with
  | nil => exact .refl _
  | append_singleton before pair ih =>
      obtain ⟨k, x⟩ := pair
      rw [keys, List.map_append] at h
      obtain ⟨hbefore, -, hk⟩ := List.nodup_append.mp h
      have hnew : k ∉ keys (ofList before) := fun hmem =>
        hk k (List.map_subset Prod.fst (fun _ => mem_of_mem_ofList) hmem) k
          List.mem_cons_self rfl
      rw [ofList_concat]
      calc (ofList before).put k x
        _ |>.Perm ((k, x) :: ofList before) := perm_put x hnew
        _ |>.Perm ((k, x) :: before) := (ih hbefore).cons (k, x)
        _ |>.Perm (before ++ [(k, x)]) := (List.perm_append_singleton _ _).symm

theorem Sorted.nodup_keys {entries : Entries α} (h : entries.Sorted) : entries.keys.Nodup :=
  List.Pairwise.imp String.ne_of_lt h

theorem Sorted.pairwise {entries : Entries α} (h : entries.Sorted) :
    entries.Pairwise fun e f => e.1 < f.1 :=
  List.pairwise_map.mp (show (entries.map Prod.fst).Pairwise (· < ·) from h)

/-- Where no key repeats, the pairs are what the keys hold. -/
theorem mem_iff_get? {entries : Entries α} (h : entries.keys.Nodup) {key : String} {x : α} :
    (key, x) ∈ entries ↔ entries.get? key = some x := by
  refine ⟨fun hmem => ?_, mem_of_get?⟩
  induction entries with
  | nil => cases hmem
  | cons head rest ih =>
      obtain ⟨k, y⟩ := head
      simp only [keys, List.map_cons, List.nodup_cons] at h
      rcases List.mem_cons.mp hmem with heq | hrest
      · cases heq
        exact if_pos rfl
      · have hk : k ≠ key := fun heq => h.1 (heq ▸ List.mem_map_of_mem hrest)
        exact (if_neg hk).trans (ih h.2 hrest)

/-- Entries in key order are determined by what the keys hold. -/
theorem Sorted.ext {entries entries' : Entries α} (h : entries.Sorted) (h' : entries'.Sorted)
    (hget : ∀ key, entries.get? key = entries'.get? key) : entries = entries' := by
  have hmem : ∀ e, e ∈ entries ↔ e ∈ entries' := fun (key, x) => by
    rw [mem_iff_get? h.nodup_keys, mem_iff_get? h'.nodup_keys, hget]
  have hne : ∀ {e f : String × α}, e.1 < f.1 → e ≠ f := fun hlt heq =>
    String.ne_of_lt hlt (congrArg Prod.fst heq)
  have hperm : entries.Perm entries' :=
    (List.perm_ext_iff_of_nodup (h.pairwise.imp hne) (h'.pairwise.imp hne)).mpr hmem
  exact hperm.eq_of_pairwise
    (fun _ _ _ _ hlt hgt => absurd (String.lt_trans hlt hgt) (String.lt_irrefl _))
    h.pairwise h'.pairwise

/-- Pairs in key order are put together as they are. -/
theorem ofList_of_sorted {entries : Entries α} (h : entries.Sorted) : ofList entries = entries := by
  suffices ∀ held : Entries α, Sorted (held ++ entries) →
      entries.foldl (fun held pair => put held pair.1 pair.2) held = held ++ entries from
    this [] h
  clear h
  induction entries with
  | nil => simp
  | cons pair rest ih =>
      intro held hsorted
      have hbefore : ∀ k ∈ keys held, k < pair.1 := by
        intro k hk
        simp only [Sorted, keys, List.map_append] at hsorted
        exact (List.pairwise_append.mp hsorted).2.2 k hk pair.1 (by simp)
      have hstep : put held pair.1 pair.2 = held ++ [pair] := put_of_forall_lt pair.2 hbefore
      rw [List.foldl_cons, hstep, ih (held ++ [pair]) (by simpa using hsorted)]
      simp

/-- Pairs that have one key and are related. -/
def Matched (R : α → β → Prop) (e : String × α) (f : String × β) : Prop :=
  e.1 = f.1 ∧ R e.2 f.2

theorem forall₂_put {R : α → β → Prop} {entries : Entries α} {entries' : Entries β}
    (h : List.Forall₂ (Matched R) entries entries') (key : String) {x : α} {y : β} (hxy : R x y) :
    List.Forall₂ (Matched R) (put entries key x) (put entries' key y) := by
  induction h with
  | nil => exact .cons ⟨rfl, hxy⟩ .nil
  | @cons e f rest rest' hef hrest ih =>
      obtain ⟨k, a⟩ := e
      obtain ⟨k', b⟩ := f
      obtain ⟨hk, hab⟩ := hef
      simp only at hk
      subst hk
      by_cases hlt : key < k
      · simp only [put, hlt, if_true]
        exact .cons ⟨rfl, hxy⟩ (.cons ⟨rfl, hab⟩ hrest)
      · by_cases heq : key = k
        · subst heq
          simp only [put, hlt, if_false, if_true]
          exact .cons ⟨rfl, hxy⟩ hrest
        · simp only [put, hlt, heq, if_false]
          exact .cons ⟨rfl, hab⟩ ih

/-- Lists of pairs that match key by key are put together to entries that match key by key. -/
theorem forall₂_ofList {R : α → β → Prop} {pairs : List (String × α)} {pairs' : List (String × β)}
    (h : List.Forall₂ (Matched R) pairs pairs') :
    List.Forall₂ (Matched R) (ofList pairs) (ofList pairs') := by
  suffices ∀ (held : Entries α) (held' : Entries β), List.Forall₂ (Matched R) held held' →
      List.Forall₂ (Matched R)
        (pairs.foldl (fun held pair => put held pair.1 pair.2) held)
        (pairs'.foldl (fun held pair => put held pair.1 pair.2) held') from
    this [] [] .nil
  induction h with
  | nil => exact fun _ _ hheld => hheld
  | @cons e f _ _ hef _ ih =>
      intro held held' hheld
      obtain ⟨k, a⟩ := e
      obtain ⟨k', b⟩ := f
      obtain ⟨hk, hab⟩ := hef
      simp only at hk
      subst hk
      exact ih _ _ (forall₂_put hheld k hab)

end Entries

/-! ## Well-formed trees -/

/-- A tree in which the entries of every object are in key order. -/
inductive Value.WellFormed : Value → Prop
  | null : WellFormed .null
  | bool (b : Bool) : WellFormed (.bool b)
  | int (n : Int64) : WellFormed (.int n)
  | uint (n : UInt64) : WellFormed (.uint n)
  | float (x : Binary64) : WellFormed (.float x)
  | string (s : String) : WellFormed (.string s)
  | array {items : List Value} (h : ∀ v ∈ items, WellFormed v) : WellFormed (.array items)
  | object {entries : List (String × Value)} (hsorted : Entries.Sorted entries)
      (h : ∀ e ∈ entries, WellFormed e.2) : WellFormed (.object entries)

theorem Value.WellFormed.of_mem_object {entries : List (String × Value)}
    (h : (Value.object entries).WellFormed) {e : String × Value} (he : e ∈ entries) :
    e.2.WellFormed := by
  cases h with
  | object _ hentries => exact hentries e he

end KeyedCoding
