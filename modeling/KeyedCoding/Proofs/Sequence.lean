import Mathlib.Data.List.Forall2
import Mathlib.Data.List.Nodup

/-!
# Results in sequence

What a step of a sequence gives, and what it leaves to the steps behind it: a sequence over a list
gives the results of all its steps, or fails with the first step that fails.  Lists that belong
together element by element are related by `List.Forall₂`.
-/

namespace KeyedCoding

variable {ε α β γ : Type}

/-! ## Lists side by side -/

theorem exists_of_forall₂_right {R : α → β → Prop} {as : List α} {bs : List β}
    (h : List.Forall₂ R as bs) {b : β} (hb : b ∈ bs) : ∃ a ∈ as, R a b := by
  induction h with
  | nil => cases hb
  | @cons a b' as bs hab _ ih =>
      rcases List.mem_cons.mp hb with rfl | hb
      · exact ⟨a, List.mem_cons_self, hab⟩
      · obtain ⟨a', ha', hR⟩ := ih hb
        exact ⟨a', List.mem_cons_of_mem _ ha', hR⟩

theorem exists_of_forall₂_left {R : α → β → Prop} {as : List α} {bs : List β}
    (h : List.Forall₂ R as bs) {a : α} (ha : a ∈ as) : ∃ b ∈ bs, R a b :=
  exists_of_forall₂_right h.flip ha

theorem forall₂_comp {R : α → β → Prop} {S : β → γ → Prop} {as : List α}
    {bs : List β} {cs : List γ} (h : List.Forall₂ R as bs) (h' : List.Forall₂ S bs cs) :
    List.Forall₂ (fun a c => ∃ b, R a b ∧ S b c) as cs := by
  induction h generalizing cs with
  | nil =>
      cases h'
      exact .nil
  | cons hab _ ih =>
      cases h' with
      | cons hbc hrest => exact .cons ⟨_, hab, hbc⟩ (ih hrest)

theorem map_eq_map_of_forall₂ {f : α → γ} {g : β → γ} {as : List α} {bs : List β}
    (h : List.Forall₂ (fun a b => g b = f a) as bs) : bs.map g = as.map f := by
  induction h with
  | nil => rfl
  | cons hab _ ih => rw [List.map_cons, List.map_cons, hab, ih]

theorem map_filter_eq_of_forall₂ {taking : α → Bool} {keeping : β → Bool} {f : α → γ}
    {g : β → γ} {as : List α} {bs : List β}
    (h : List.Forall₂ (fun a b => keeping b = taking a ∧ g b = f a) as bs) :
    (bs.filter keeping).map g = (as.filter taking).map f := by
  induction h with
  | nil => rfl
  | @cons a b as bs hab _ ih =>
      obtain ⟨hkept, hvalue⟩ := hab
      cases htaken : taking a with
      | true =>
          rw [htaken] at hkept
          rw [List.filter_cons_of_pos hkept, List.filter_cons_of_pos htaken, List.map_cons,
            List.map_cons, hvalue, ih]
      | false =>
          rw [htaken] at hkept
          rw [List.filter_cons_of_neg (by simp [hkept]), List.filter_cons_of_neg (by simp [htaken]),
            ih]

theorem map_eq_map_zip {f : α → γ} {as : List α} {bs : List β} (h : as.length = bs.length) :
    as.map f = (as.zip bs).map fun e => f e.1 := by
  have hfst := congrArg (List.map f) (List.map_fst_zip (Nat.le_of_eq h))
  rw [List.map_map] at hfst
  exact hfst.symm

/-- Lists side by side have what is looked for in the same place. -/
theorem find?_rel_of_forall₂ {R : α → β → Prop} {sought : α → Bool} {wanted : β → Bool}
    {as : List α} {bs : List β}
    (h : List.Forall₂ (fun a b => R a b ∧ wanted b = sought a) as bs) :
    Option.Rel R (as.find? sought) (bs.find? wanted) := by
  induction h with
  | nil => exact .none
  | @cons a b as bs hab _ ih =>
      rw [List.find?_cons, List.find?_cons, hab.2]
      cases sought a with
      | true => exact .some hab.1
      | false => exact ih

/-- Elements that are numbered in a row are numbered by their positions. -/
theorem zipIdx_map_of_range' {f : α → β} {number : α → Nat} {as : List α} {n : Nat}
    (h : as.map number = List.range' n as.length) :
    (as.map f).zipIdx n = as.map fun a => (f a, number a) := by
  induction as generalizing n with
  | nil => rfl
  | cons a rest ih =>
      rw [List.map_cons, List.length_cons, List.range'_succ, List.cons.injEq] at h
      rw [List.map_cons, List.zipIdx_cons, ih h.2, List.map_cons, h.1]

/-! ## Looking up by a key -/

theorem find?_key_of_nodup {key : α → String} {l : List α} (h : (l.map key).Nodup)
    {a : α} (ha : a ∈ l) : l.find? (fun b => key b == key a) = some a := by
  induction l with
  | nil => cases ha
  | cons b rest ih =>
      rw [List.map_cons, List.nodup_cons] at h
      rcases List.mem_cons.mp ha with rfl | ha
      · simp
      · have hne : key b ≠ key a := fun heq => h.1 (heq ▸ List.mem_map_of_mem ha)
        rw [List.find?_cons_of_neg (by simpa using hne)]
        exact ih h.2 ha

theorem nodup_map_of_eq {f : α → β} {g : α → γ} {make : γ → β} {as : List α}
    (hmake : Function.Injective make) (hf : ∀ a ∈ as, f a = make (g a)) (hg : (as.map g).Nodup) :
    (as.map f).Nodup := by
  have hmade : as.map f = (as.map g).map make := by
    rw [List.map_map]
    exact List.map_congr_left hf
  rw [hmade]
  exact hg.map hmake

theorem lookup_cons_of_ne [BEq γ] [LawfulBEq γ] {sought key : γ} (hne : sought ≠ key) (b : β)
    (entries : List (γ × β)) : ((key, b) :: entries).lookup sought = entries.lookup sought := by
  rw [List.lookup_cons, beq_false_of_ne hne]

theorem lookup_map_of_nodup [BEq γ] [LawfulBEq γ] {key : α → γ} {held : α → β} {as : List α}
    (h : (as.map key).Nodup) {a : α} (ha : a ∈ as) :
    (as.map fun a => (key a, held a)).lookup (key a) = some (held a) := by
  induction as with
  | nil => cases ha
  | cons b rest ih =>
      rw [List.map_cons, List.nodup_cons] at h
      rw [List.map_cons]
      rcases List.mem_cons.mp ha with rfl | ha
      · exact List.lookup_cons_self
      · have hne : key a ≠ key b := by
          intro heq
          exact h.1 (heq ▸ List.mem_map_of_mem ha)
        rw [lookup_cons_of_ne hne]
        exact ih h.2 ha

/-! ## One step and the next -/

theorem bind_eq_ok_iff {r : Except ε α} {f : α → Except ε β} {b : β} :
    (r >>= f) = .ok b ↔ ∃ a, r = .ok a ∧ f a = .ok b := by
  cases r <;> simp [bind, Except.bind]

theorem bind_eq_error_iff {r : Except ε α} {f : α → Except ε β} {e : ε} :
    (r >>= f) = .error e ↔ r = .error e ∨ ∃ a, r = .ok a ∧ f a = .error e := by
  cases r <;> simp [bind, Except.bind]

theorem map_eq_ok_iff {r : Except ε α} {f : α → β} {b : β} :
    r.map f = .ok b ↔ ∃ a, r = .ok a ∧ f a = b := by
  cases r <;> simp [Except.map]

theorem map_eq_error_iff {r : Except ε α} {f : α → β} {err : ε} :
    r.map f = .error err ↔ r = .error err := by
  cases r <;> simp [Except.map]

/-- A step whose result is kept under a key. -/
theorem map_mk_eq_ok_iff {r : Except ε α} {key : γ} {f : γ × α} :
    r.map (Prod.mk key) = .ok f ↔ key = f.1 ∧ r = .ok f.2 := by
  obtain ⟨key', a⟩ := f
  simp only [map_eq_ok_iff, Prod.mk.injEq]
  constructor
  · rintro ⟨b, hr, hkey, rfl⟩
    exact ⟨hkey, hr⟩
  · rintro ⟨hkey, hr⟩
    exact ⟨a, hr, hkey, rfl⟩

theorem exists_map_eq_ok_iff {r : Except ε α} {f : α → β} :
    (∃ b, r.map f = .ok b) ↔ ∃ a, r = .ok a := by
  cases r <;> simp [Except.map]

/-! ## Over a list -/

theorem mapM_eq_ok_iff {f : α → Except ε β} {as : List α} {bs : List β} :
    as.mapM f = .ok bs ↔ List.Forall₂ (fun a b => f a = .ok b) as bs := by
  induction as generalizing bs with
  | nil =>
      rw [List.mapM_nil, List.forall₂_nil_left_iff]
      exact ⟨fun h => (Except.ok.inj h).symm, fun h => h ▸ rfl⟩
  | cons a rest ih =>
      rw [List.mapM_cons]
      constructor
      · intro h
        obtain ⟨b, hb, h⟩ := bind_eq_ok_iff.mp h
        obtain ⟨bs', hbs, h⟩ := bind_eq_ok_iff.mp h
        cases h
        exact .cons hb (ih.mp hbs)
      · intro h
        cases h with
        | cons hb hbs =>
            rw [hb, ih.mpr hbs]
            rfl

theorem forall₂_of_mapM_some {f : α → Option β} {as : List α} {bs : List β}
    (h : as.mapM f = some bs) : List.Forall₂ (fun a b => f a = some b) as bs := by
  induction as generalizing bs with
  | nil =>
      simp only [List.mapM_nil, Option.pure_def, Option.some.injEq] at h
      subst h
      exact .nil
  | cons a rest ih =>
      simp only [List.mapM_cons, Option.bind_eq_bind, Option.pure_def, Option.bind_eq_some_iff,
        Option.some.injEq] at h
      obtain ⟨b, hb, bs', hbs, rfl⟩ := h
      exact .cons hb (ih hbs)

theorem mapM_eq_some_map {f : α → Option β} {g : α → β} {as : List α}
    (h : ∀ a ∈ as, f a = some (g a)) : as.mapM f = some (as.map g) := by
  induction as with
  | nil => rfl
  | cons a rest ih =>
      rw [List.forall_mem_cons] at h
      rw [List.mapM_cons, h.1, ih h.2]
      rfl

/-- A sequence fails with the first of its steps that fails. -/
theorem mapM_eq_error_iff {f : α → Except ε β} {as : List α} {err : ε} :
    as.mapM f = .error err ↔
      ∃ before a behind, as = before ++ a :: behind ∧ f a = .error err ∧
        ∀ b ∈ before, ∃ y, f b = .ok y := by
  induction as with
  | nil => simp [pure, Except.pure]
  | cons a rest ih =>
      -- either this step fails, or it gives a result and one behind it fails first
      simp only [List.mapM_cons, bind_eq_error_iff, pure, Except.pure, reduceCtorEq, and_false,
        exists_false, or_false]
      constructor
      · rintro (ha | ⟨y, hy, hrest⟩)
        · exact ⟨[], a, rest, rfl, ha, by simp⟩
        · obtain ⟨before, a', behind, rfl, ha', hbefore⟩ := ih.mp hrest
          exact ⟨a :: before, a', behind, rfl, ha', List.forall_mem_cons.mpr ⟨⟨y, hy⟩, hbefore⟩⟩
      · rintro ⟨before, a', behind, has, ha', hbefore⟩
        cases before with
        | nil =>
            rw [List.nil_append, List.cons.injEq] at has
            exact .inl (has.1 ▸ ha')
        | cons b before =>
            rw [List.cons_append, List.cons.injEq] at has
            obtain ⟨rfl, rfl⟩ := has
            rw [List.forall_mem_cons] at hbefore
            obtain ⟨⟨y, hy⟩, hbefore⟩ := hbefore
            exact .inr ⟨y, hy, ih.mpr ⟨before, a', behind, rfl, ha', hbefore⟩⟩

theorem exists_mem_of_mapM_eq_error {f : α → Except ε β} {as : List α} {err : ε}
    (h : as.mapM f = .error err) : ∃ a ∈ as, f a = .error err := by
  obtain ⟨before, a, behind, rfl, ha, -⟩ := mapM_eq_error_iff.mp h
  exact ⟨a, List.mem_append_right _ List.mem_cons_self, ha⟩

theorem exists_mapM_eq_ok_iff {f : α → Except ε β} {as : List α} :
    (∃ bs, as.mapM f = .ok bs) ↔ ∀ a ∈ as, ∃ b, f a = .ok b := by
  constructor
  · rintro ⟨bs, h⟩ a ha
    exact (exists_of_forall₂_left (mapM_eq_ok_iff.mp h) ha).imp fun _ hb => hb.2
  · intro h
    cases hrun : as.mapM f with
    | ok bs => exact ⟨bs, rfl⟩
    | error err =>
        obtain ⟨a, ha, herr⟩ := exists_mem_of_mapM_eq_error hrun
        obtain ⟨b, hb⟩ := h a ha
        rw [hb] at herr
        cases herr

end KeyedCoding
