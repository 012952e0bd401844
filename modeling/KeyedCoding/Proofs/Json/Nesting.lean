import KeyedCoding.Proofs.Json.Layout
import KeyedCoding.Proofs.Json.Leaves

/-!
# Reading nested JSON text

Text that is laid out by blanks is read back as the tree it was written from, if the arrays and
objects in it are not nested deeper than the reader goes down; otherwise it is refused for that.
Both are one statement: `Json.Gives` says what comes of reading, and follows a reader from one step
to the next.
-/

namespace KeyedCoding

namespace Json

open Cursor

/-! ## Trees -/

mutual

/-- Number of arrays and objects on the longest way down. -/
def depth : Json → Nat
  | array items => depthItems items + 1
  | object entries => depthEntries entries + 1
  | _ => 0

/-- The greatest depth among items. -/
def depthItems : List Json → Nat
  | [] => 0
  | j :: rest => max (depth j) (depthItems rest)

/-- The greatest depth among entries. -/
def depthEntries : List (String × Json) → Nat
  | [] => 0
  | (_, j) :: rest => max (depth j) (depthEntries rest)

end

/-- A tree without floats in which the entries of every object are in key order. -/
inductive Plain : Json → Prop
  | null : Plain .null
  | bool (b : Bool) : Plain (.bool b)
  | natural (n : UInt64) : Plain (.number (.natural n))
  | negative (n : Int64) (h : n.toInt < 0) : Plain (.number (.negative n h))
  | string (s : String) : Plain (.string s)
  | array {items : List Json} (h : ∀ j ∈ items, Plain j) : Plain (.array items)
  | object {entries : List (String × Json)} (hsorted : Entries.Sorted entries)
      (h : ∀ e ∈ entries, Plain e.2) : Plain (.object entries)

/-! ## What comes of reading -/

/-- A datum that is given only if it is not too deep. -/
def fitting {α : Type} (depth limit : Nat) (a : α) : Option α :=
  if depth ≤ limit then some a else none

section Fitting

variable {α β γ : Type}

theorem fitting_zero (limit : Nat) (a : α) : fitting 0 limit a = some a := by
  rw [fitting, if_pos (Nat.zero_le limit)]

theorem fitting_of_lt {depth limit : Nat} (h : limit < depth) (a : α) :
    fitting depth limit a = none := by
  rw [fitting, if_neg (by omega)]

theorem fitting_succ (depth limit : Nat) (f : α → β) (a : α) :
    fitting (depth + 1) (limit + 1) (f a) = (fitting depth limit a).bind fun a => some (f a) := by
  unfold fitting
  by_cases h : depth ≤ limit
  · rw [if_pos h, if_pos (by omega)]
    rfl
  · rw [if_neg h, if_neg (by omega)]
    rfl

theorem fitting_max (d e limit : Nat) (f : α → β → γ) (a : α) (b : β) :
    fitting (max d e) limit (f a b) =
      (fitting d limit a).bind fun a => (fitting e limit b).bind fun b => some (f a b) := by
  unfold fitting
  by_cases hd : d ≤ limit
  · by_cases he : e ≤ limit
    · rw [if_pos hd, if_pos he, if_pos (by omega)]
      rfl
    · rw [if_pos hd, if_neg he, if_neg (by omega)]
      rfl
  · rw [if_neg hd, if_neg (by omega)]
    rfl

end Fitting

/-- Reading gives a datum and leaves a rest, or it gives nothing because something is nested too
deep. -/
def Gives {α : Type} (r : Except FaultAt (Behind α)) (tail : List Char) : Option α → Prop
  | some a => ∃ s, r = .ok (a, s) ∧ s.rest = tail
  | none => ∃ line column, r = .error ⟨.nestedTooDeep, line, column⟩

section Gives

variable {α β : Type}

/-- A further step reads on where the first one stopped, and is not reached from too deep. -/
theorem Gives.bind {r : Except FaultAt (Behind α)} {mid tail : List Char} {x : Option α}
    {f : Behind α → Except FaultAt (Behind β)} {g : α → Option β} (h : Gives r mid x)
    (hf : ∀ a s, s.rest = mid → Gives (f (a, s)) tail (g a)) : Gives (r >>= f) tail (x.bind g) := by
  cases x with
  | some a =>
      obtain ⟨s, rfl, hs⟩ := h
      exact hf a s hs
  | none =>
      obtain ⟨line, column, rfl⟩ := h
      exact ⟨line, column, rfl⟩

end Gives

/-! ## Where a number stops -/

theorem stops_nil : Stops [] := by
  intro c hc
  cases hc

theorem stops_cons {c : Char} (h : digit? c = none ∧ c ≠ '.' ∧ c ≠ 'e' ∧ c ≠ 'E')
    (rest : List Char) : Stops (c :: rest) := by
  intro d hd
  rw [List.head?_cons, Option.some.injEq] at hd
  exact hd ▸ h

theorem isBlank_cases {c : Char} (h : isBlank c = true) :
    c = ' ' ∨ c = '\n' ∨ c = '\t' ∨ c = '\r' := by
  simpa [isBlank, or_assoc] using h

/-- A number does not go on into blanks or an end. -/
theorem stops_blanks {blanks : List Char} (hblanks : ∀ b ∈ blanks, isBlank b = true) {c : Char}
    (hc : digit? c = none ∧ c ≠ '.' ∧ c ≠ 'e' ∧ c ≠ 'E') (rest : List Char) :
    Stops (blanks ++ c :: rest) := by
  cases blanks with
  | nil => exact stops_cons hc rest
  | cons b more =>
      refine stops_cons ?_ _
      rcases isBlank_cases (hblanks b List.mem_cons_self) with rfl | rfl | rfl | rfl <;> decide

/-! ## Where a value starts -/

theorem ne_of_isDigit {c : Char} (h : c.isDigit = true) :
    isBlank c = false ∧ c ≠ ']' ∧ c ≠ 'n' ∧ c ≠ 't' ∧ c ≠ 'f' ∧ c ≠ '-' ∧ c ≠ '"' ∧ c ≠ '[' ∧
      c ≠ '\x7b' := by
  refine ⟨?_, ?_, ?_, ?_, ?_, ?_, ?_, ?_, ?_⟩
  · by_contra hblank
    rcases isBlank_cases (by simpa using hblank) with rfl | rfl | rfl | rfl <;> cases h
  all_goals
    rintro rfl
    cases h

theorem exists_digit (n : UInt64) :
    ∃ c rest, (numberText (.natural n)).toList = c :: rest ∧ c.isDigit = true := by
  rw [numberText, Nat.toString_eq_repr, Nat.toList_repr]
  cases hdigits : Nat.toDigits 10 n.toNat with
  | nil => exact absurd hdigits Nat.toDigits_ne_nil
  | cons c rest =>
      have hmem : c ∈ Nat.toDigits 10 n.toNat := by
        rw [hdigits]
        exact List.mem_cons_self
      exact ⟨c, rest, rfl, Nat.isDigit_of_mem_toDigits (by omega) (by omega) hmem⟩

/-- A value starts with neither a blank nor the end of a list. -/
theorem lay_eq_cons (l : Layout) (level : Nat) {j : Json} (h : j.Plain) :
    ∃ c rest, lay l level j = c :: rest ∧ isBlank c = false ∧ c ≠ ']' := by
  cases h with
  | null => exact ⟨'n', ['u', 'l', 'l'], by rw [lay]; decide, by decide, by decide⟩
  | bool b =>
      cases b with
      | true => exact ⟨'t', ['r', 'u', 'e'], by rw [lay]; decide, by decide, by decide⟩
      | false => exact ⟨'f', ['a', 'l', 's', 'e'], by rw [lay]; decide, by decide, by decide⟩
  | natural n =>
      obtain ⟨c, rest, hdigits, hc⟩ := exists_digit n
      exact ⟨c, rest, by rw [lay, hdigits], (ne_of_isDigit hc).1, (ne_of_isDigit hc).2.1⟩
  | negative n hn =>
      exact ⟨'-', _, by rw [lay, toList_numberText_negative], by decide, by decide⟩
  | string s => exact ⟨'"', _, by rw [lay, toList_quote], by decide, by decide⟩
  | @array items _ =>
      cases items with
      | nil => exact ⟨'[', [']'], by rw [lay], by decide, by decide⟩
      | cons j rest => exact ⟨'[', _, by rw [lay], by decide, by decide⟩
  | @object entries _ _ =>
      cases entries with
      | nil => exact ⟨'\x7b', ['\x7d'], by rw [lay], by decide, by decide⟩
      | cons e rest => exact ⟨'\x7b', _, by rw [lay], by decide, by decide⟩

theorem rest_skipBlanks_lay_self {l : Layout} {level : Nat} {j : Json} (h : j.Plain) {s : Cursor}
    {tail : List Char} (hs : s.rest = lay l level j ++ tail) :
    s.skipBlanks.rest = lay l level j ++ tail := by
  obtain ⟨c, rest, hlay, hc, -⟩ := lay_eq_cons l level h
  rw [hlay, List.cons_append] at hs ⊢
  exact rest_skipBlanks_self hs hc

/-- Blanks are passed over up to a value. -/
theorem rest_skipBlanks_lay {l : Layout} {level : Nat} {j : Json} (h : j.Plain) {s : Cursor}
    {blanks tail : List Char} (hs : s.rest = blanks ++ (lay l level j ++ tail))
    (hblanks : ∀ b ∈ blanks, isBlank b = true) : s.skipBlanks.rest = lay l level j ++ tail := by
  obtain ⟨c, rest, hlay, hc, -⟩ := lay_eq_cons l level h
  rw [hlay, List.cons_append] at hs ⊢
  exact rest_skipBlanks hs hblanks hc

/-- A reader takes the text of a tree off its input if the tree is not deeper than a limit, and
refuses it otherwise. -/
def ReadsLaid (l : Layout) (limit : Nat) (item : Cursor → Except FaultAt (Behind Json)) : Prop :=
  ∀ {j : Json} {level : Nat} {s : Cursor} {tail : List Char}, j.Plain → Stops tail →
    s.skipBlanks.rest = lay l level j ++ tail → Gives (item s) tail (fitting j.depth limit j)

/-! ## Items -/

section Items

variable {item : Cursor → Except FaultAt (Behind Json)} {fuel : Nat} {s : Cursor}

theorem items_end {tail : List Char} (h : s.skipBlanks.rest = ']' :: tail) (first : Bool) :
    Gives (items item (fuel + 1) first s) tail (some []) := by
  refine ⟨s.skipBlanks.skip, ?_, rest_skip h⟩
  simp only [items, peek_eq h]

theorem items_first {c : Char} {rest : List Char} (h : s.skipBlanks.rest = c :: rest)
    (hc : c ≠ ']') :
    items item (fuel + 1) true s = item s.skipBlanks >>= fun (j, s) =>
      items item fuel false s >>= fun (rest, s) => .ok (j :: rest, s) := by
  simp only [items, peek_eq h]
  rfl

theorem items_next {c : Char} {more rest : List Char} (h : s.skipBlanks.rest = ',' :: more)
    (hnext : s.skipBlanks.skip.skipBlanks.rest = c :: rest) (hc : c ≠ ']') :
    items item (fuel + 1) false s = item s.skipBlanks.skip.skipBlanks >>= fun (j, s) =>
      items item fuel false s >>= fun (rest, s) => .ok (j :: rest, s) := by
  simp only [items, peek_eq h, peek_eq hnext]
  rfl

variable {l : Layout} {limit : Nat}

theorem stops_layItems (hl : l.Blank) (level below : Nat) (js : List Json) (tail : List Char) :
    Stops (layItems l level js ++ (l.line below ++ ']' :: tail)) := by
  cases js with
  | nil => exact stops_blanks (hl.line below) (by decide) tail
  | cons j rest => exact stops_cons (by decide) _

/-- An item and those behind it are as deep as the deeper of the two. -/
theorem gives_items {level : Nat} {j : Json} {rest : List Json} {mid tail : List Char}
    (hitem : ReadsLaid l limit item) (hj : j.Plain) (hstops : Stops mid)
    (hs : s.skipBlanks.rest = lay l level j ++ mid)
    (hrest : ∀ t : Cursor, t.rest = mid →
      Gives (items item fuel false t) tail (fitting (depthItems rest) limit rest)) :
    Gives (item s >>= fun (j, s) => items item fuel false s >>= fun (rest, s) => .ok (j :: rest, s))
      tail (fitting (depthItems (j :: rest)) limit (j :: rest)) := by
  rw [depthItems, fitting_max]
  refine (hitem hj hstops hs).bind fun j t ht => ?_
  refine (hrest t ht).bind fun rest u hu => ?_
  exact ⟨u, rfl, hu⟩

/-- Further items are read up to the end of their list. -/
theorem items_lay (hl : l.Blank) (hitem : ReadsLaid l limit item) {js : List Json}
    (hjs : ∀ j ∈ js, j.Plain) {level below : Nat} {tail : List Char} (hfuel : js.length < fuel)
    (hs : s.rest = layItems l level js ++ (l.line below ++ ']' :: tail)) :
    Gives (items item fuel false s) tail (fitting (depthItems js) limit js) := by
  induction js generalizing fuel s with
  | nil =>
      obtain ⟨fuel, rfl⟩ := Nat.exists_eq_succ_of_ne_zero (Nat.ne_of_gt hfuel)
      rw [depthItems, fitting_zero]
      exact items_end (rest_skipBlanks hs (hl.line below) (by decide)) false
  | cons j rest ih =>
      obtain ⟨fuel, rfl⟩ := Nat.exists_eq_succ_of_ne_zero (Nat.ne_of_gt (Nat.zero_lt_of_lt hfuel))
      rw [List.forall_mem_cons] at hjs
      rw [layItems, List.cons_append, List.append_assoc, List.append_assoc] at hs
      -- The reader passes blanks once behind the comma and once more where the item starts.
      have hcomma := rest_skipBlanks_self hs (by decide)
      have hlay := rest_skipBlanks_lay hjs.1 (rest_skip hcomma) (hl.line level)
      have hlay' := rest_skipBlanks_lay_self hjs.1 hlay
      obtain ⟨c, more, hstart, -, hc⟩ := lay_eq_cons l level hjs.1
      rw [items_next hcomma (by rw [hlay, hstart, List.cons_append]) hc]
      refine gives_items hitem hjs.1 (stops_layItems hl level below rest tail) hlay' fun t ht => ?_
      exact ih hjs.2 (by simpa using hfuel) ht

/-- The items of an array are read from what stands behind its bracket. -/
theorem items_lay_first (hl : l.Blank) (hitem : ReadsLaid l limit item) {j : Json}
    {rest : List Json} (hj : j.Plain) (hrest : ∀ j ∈ rest, j.Plain) {level below : Nat}
    {tail : List Char} (hfuel : rest.length < fuel)
    (hs : s.rest = l.line level ++ (lay l level j ++ (layItems l level rest
      ++ (l.line below ++ ']' :: tail)))) :
    Gives (items item (fuel + 1) true s) tail
      (fitting (depthItems (j :: rest)) limit (j :: rest)) := by
  have hlay := rest_skipBlanks_lay hj hs (hl.line level)
  have hlay' := rest_skipBlanks_lay_self hj hlay
  obtain ⟨c, more, hstart, -, hc⟩ := lay_eq_cons l level hj
  rw [items_first (by rw [hlay, hstart, List.cons_append]) hc]
  exact gives_items hitem hj (stops_layItems hl level below rest tail) hlay' fun t ht =>
    items_lay hl hitem hrest hfuel ht

end Items

/-! ## Entries -/

section Entries

variable {item : Cursor → Except FaultAt (Behind Json)} {fuel : Nat} {s : Cursor}

theorem members_end {tail : List Char} (h : s.skipBlanks.rest = '\x7d' :: tail) (first : Bool) :
    Gives (members item (fuel + 1) first s) tail (some []) := by
  refine ⟨s.skipBlanks.skip, ?_, rest_skip h⟩
  simp only [members, peek_eq h]

theorem members_first {rest : List Char} (h : s.skipBlanks.rest = '"' :: rest) :
    members item (fuel + 1) true s = entry item s.skipBlanks >>= fun (e, s) =>
      members item fuel false s >>= fun (rest, s) => .ok (e :: rest, s) := by
  simp only [members, peek_eq h]
  rfl

theorem members_next {more rest : List Char} (h : s.skipBlanks.rest = ',' :: more)
    (hnext : s.skipBlanks.skip.skipBlanks.rest = '"' :: rest) :
    members item (fuel + 1) false s = entry item s.skipBlanks.skip.skipBlanks >>= fun (e, s) =>
      members item fuel false s >>= fun (rest, s) => .ok (e :: rest, s) := by
  simp only [members, peek_eq h, peek_eq hnext]
  rfl

variable {l : Layout} {limit : Nat}

/-- The text of an entry, with what stands behind it. -/
def layEntry (l : Layout) (level : Nat) (key : String) (j : Json) (tail : List Char) : List Char :=
  '"' :: ((escapeChars key.toList).toList ++ '"' :: ':' :: (l.gap ++ (lay l level j ++ tail)))

theorem layEntry_eq (l : Layout) (level : Nat) (key : String) (j : Json) (tail : List Char) :
    (quote key).toList ++ ':' :: (l.gap ++ (lay l level j ++ tail)) =
      layEntry l level key j tail := by
  rw [toList_quote, layEntry, List.cons_append, List.append_assoc, List.singleton_append]

/-- An entry is as deep as its value. -/
theorem gives_entry (hl : l.Blank) (hitem : ReadsLaid l limit item) {level : Nat} {key : String}
    {j : Json} {tail : List Char} (hj : j.Plain) (hstops : Stops tail)
    (hs : s.rest = layEntry l level key j tail) :
    Gives (entry item s) tail ((fitting j.depth limit j).bind fun j => some (key, j)) := by
  obtain ⟨t, hkey, ht⟩ := string?_eq (rest_skip hs)
  have hcolon := rest_skipBlanks_self ht (by decide)
  have hlay := rest_skipBlanks_lay hj (rest_skip hcolon) hl.gap
  have hentry : entry item s = item t.skipBlanks.skip >>= fun (j, s) => .ok ((key, j), s) := by
    simp only [entry, hkey, bind, Except.bind, peek_eq hcolon]
  rw [hentry]
  refine (hitem hj hstops hlay).bind fun j u hu => ?_
  exact ⟨u, rfl, hu⟩

theorem stops_layEntries (hl : l.Blank) (level below : Nat) (es : List (String × Json))
    (tail : List Char) : Stops (layEntries l level es ++ (l.line below ++ '\x7d' :: tail)) := by
  cases es with
  | nil => exact stops_blanks (hl.line below) (by decide) tail
  | cons e rest => exact stops_cons (by decide) _

/-- An entry and those behind it are as deep as the deeper of the two. -/
theorem gives_members (hl : l.Blank) {level : Nat} {key : String} {j : Json}
    {rest : List (String × Json)} {mid tail : List Char} (hitem : ReadsLaid l limit item)
    (hj : j.Plain) (hstops : Stops mid) (hs : s.rest = layEntry l level key j mid)
    (hrest : ∀ t : Cursor, t.rest = mid →
      Gives (members item fuel false t) tail (fitting (depthEntries rest) limit rest)) :
    Gives (entry item s >>= fun (e, s) =>
        members item fuel false s >>= fun (rest, s) => .ok (e :: rest, s))
      tail (fitting (depthEntries ((key, j) :: rest)) limit ((key, j) :: rest)) := by
  rw [depthEntries, fitting_max _ _ _ (fun j rest => (key, j) :: rest)]
  -- The value is given first, but the reader of entries gives it together with its key.
  have hbind : ((fitting j.depth limit j).bind fun j =>
      (fitting (depthEntries rest) limit rest).bind fun rest => some ((key, j) :: rest)) =
      ((fitting j.depth limit j).bind fun j => some (key, j)).bind fun e =>
        (fitting (depthEntries rest) limit rest).bind fun rest => some (e :: rest) := by
    rw [Option.bind_assoc]
    rfl
  rw [hbind]
  refine (gives_entry hl hitem hj hstops hs).bind fun e t ht => ?_
  refine (hrest t ht).bind fun rest u hu => ?_
  exact ⟨u, rfl, hu⟩

/-- Further entries are read up to the end of their object. -/
theorem members_lay (hl : l.Blank) (hitem : ReadsLaid l limit item) {es : List (String × Json)}
    (hes : ∀ e ∈ es, e.2.Plain) {level below : Nat} {tail : List Char} (hfuel : es.length < fuel)
    (hs : s.rest = layEntries l level es ++ (l.line below ++ '\x7d' :: tail)) :
    Gives (members item fuel false s) tail (fitting (depthEntries es) limit es) := by
  induction es generalizing fuel s with
  | nil =>
      obtain ⟨fuel, rfl⟩ := Nat.exists_eq_succ_of_ne_zero (Nat.ne_of_gt hfuel)
      rw [depthEntries, fitting_zero]
      exact members_end (rest_skipBlanks hs (hl.line below) (by decide)) false
  | cons e rest ih =>
      obtain ⟨key, j⟩ := e
      obtain ⟨fuel, rfl⟩ := Nat.exists_eq_succ_of_ne_zero (Nat.ne_of_gt (Nat.zero_lt_of_lt hfuel))
      rw [List.forall_mem_cons] at hes
      have hs : s.rest = ',' :: (l.line level ++ layEntry l level key j
          (layEntries l level rest ++ (l.line below ++ '\x7d' :: tail))) := by
        rw [hs, layEntries, ← layEntry_eq]
        simp
      have hcomma := rest_skipBlanks_self hs (by decide)
      have hquote := rest_skipBlanks (rest_skip hcomma) (hl.line level) (by decide)
      rw [members_next hcomma hquote]
      refine gives_members hl hitem hes.1 (stops_layEntries hl level below rest tail) hquote
        fun t ht => ?_
      exact ih hes.2 (by simpa using hfuel) ht

/-- The entries of an object are read from what stands behind its bracket. -/
theorem members_lay_first (hl : l.Blank) (hitem : ReadsLaid l limit item) {key : String} {j : Json}
    {rest : List (String × Json)} (hj : j.Plain) (hrest : ∀ e ∈ rest, e.2.Plain)
    {level below : Nat} {tail : List Char} (hfuel : rest.length < fuel)
    (hs : s.rest = l.line level ++ layEntry l level key j (layEntries l level rest
      ++ (l.line below ++ '\x7d' :: tail))) :
    Gives (members item (fuel + 1) true s) tail
      (fitting (depthEntries ((key, j) :: rest)) limit ((key, j) :: rest)) := by
  have hquote := rest_skipBlanks hs (hl.line level) (by decide)
  rw [members_first hquote]
  exact gives_members hl hitem hj (stops_layEntries hl level below rest tail) hquote fun t ht =>
    members_lay hl hitem hrest hfuel ht

end Entries

/-! ## Values -/

section Values

variable {l : Layout} {level limit : Nat} {s : Cursor} {tail : List Char}
  {nested : Option (Cursor → Except FaultAt (Behind Json))}

/-- A value that holds no other is read wherever it stands. -/
theorem valueWith_leaf {j : Json} (hj : j.Plain) (hdepth : j.depth = 0) (hstops : Stops tail)
    (hs : s.skipBlanks.rest = lay l level j ++ tail) :
    Gives (valueWith nested s) tail (some j) := by
  cases hj with
  | null =>
      have hs : s.skipBlanks.rest = 'n' :: (['u', 'l', 'l'] ++ tail) := hs
      obtain ⟨t, hword, ht⟩ := word_eq (rest_skip hs)
      exact ⟨t, by simp only [valueWith, peek_eq hs, hword, bind, Except.bind], ht⟩
  | bool b =>
      cases b with
      | true =>
          have hs : s.skipBlanks.rest = 't' :: (['r', 'u', 'e'] ++ tail) := hs
          obtain ⟨t, hword, ht⟩ := word_eq (rest_skip hs)
          exact ⟨t, by simp only [valueWith, peek_eq hs, hword, bind, Except.bind], ht⟩
      | false =>
          have hs : s.skipBlanks.rest = 'f' :: (['a', 'l', 's', 'e'] ++ tail) := hs
          obtain ⟨t, hword, ht⟩ := word_eq (rest_skip hs)
          exact ⟨t, by simp only [valueWith, peek_eq hs, hword, bind, Except.bind], ht⟩
  | natural n =>
      rw [lay] at hs
      obtain ⟨t, hnumber, ht⟩ := number?_natural hs hstops
      obtain ⟨c, rest, hdigits, hc⟩ := exists_digit n
      obtain ⟨-, -, hn, ht', hf, hminus, hquote, hbracket, hbrace⟩ := ne_of_isDigit hc
      rw [hdigits, List.cons_append] at hs
      -- The reader looks for a digit last, when nothing else starts with the character.
      have hdigit : (digit? c).isSome = true := by rw [digit?_of_isDigit hc]; rfl
      refine ⟨t, ?_, ht⟩
      simp only [valueWith, peek_eq hs, hdigit, if_true, hnumber, bind, Except.bind]
  | negative n hn =>
      rw [lay, toList_numberText_negative, List.cons_append] at hs
      obtain ⟨t, hnumber, ht⟩ := number?_negative hn (rest_skip hs) hstops
      exact ⟨t, by simp only [valueWith, peek_eq hs, hnumber, bind, Except.bind], ht⟩
  | string text =>
      rw [lay, toList_quote, List.cons_append, List.append_assoc, List.singleton_append] at hs
      obtain ⟨t, hstring, ht⟩ := string?_eq (rest_skip hs)
      exact ⟨t, by simp only [valueWith, peek_eq hs, hstring, bind, Except.bind], ht⟩
  | array h => simp [depth] at hdepth
  | object hsorted h => simp [depth] at hdepth

theorem gives_failAhead {c : Char} {rest : List Char} (h : s.rest = c :: rest) {α : Type} :
    Gives (s.failAhead .nestedTooDeep : Except FaultAt (Behind α)) tail none := by
  unfold failAhead
  rw [h]
  split
  · next heq => cases heq
  · exact ⟨_, _, rfl⟩
  · exact ⟨_, _, rfl⟩

/-- Where nothing may be nested, any array and any object is too deep. -/
theorem valueWith_none : ReadsLaid l 0 (valueWith none) := by
  intro j level s tail hj hstops hs
  cases hj with
  | @array items h =>
      rw [depth, fitting_of_lt (Nat.succ_pos _)]
      obtain ⟨rest, hrest⟩ : ∃ rest, s.skipBlanks.rest = '[' :: rest := by
        cases items <;> exact ⟨_, by rw [hs, lay, List.cons_append]⟩
      simp only [valueWith, peek_eq hrest]
      exact gives_failAhead hrest
  | @object entries hsorted h =>
      rw [depth, fitting_of_lt (Nat.succ_pos _)]
      obtain ⟨rest, hrest⟩ : ∃ rest, s.skipBlanks.rest = '\x7b' :: rest := by
        cases entries <;> exact ⟨_, by rw [hs, lay, List.cons_append]⟩
      simp only [valueWith, peek_eq hrest]
      exact gives_failAhead hrest
  | _ =>
      change Gives _ tail (fitting 0 _ _)
      rw [fitting_zero]
      exact valueWith_leaf (by constructor) rfl hstops hs

theorem length_le_layItems (l : Layout) (level : Nat) (js : List Json) :
    js.length ≤ (layItems l level js).length := by
  induction js with
  | nil => simp
  | cons j rest ih =>
      simp only [layItems, List.length_cons, List.length_append]
      omega

theorem length_le_layEntries (l : Layout) (level : Nat) (es : List (String × Json)) :
    es.length ≤ (layEntries l level es).length := by
  induction es with
  | nil => simp
  | cons e rest ih =>
      obtain ⟨key, j⟩ := e
      simp only [layEntries, List.length_cons, List.length_append]
      omega

variable {item : Cursor → Except FaultAt (Behind Json)}

/-- An array is one level deeper than what its items may be. -/
theorem valueWith_array (hl : l.Blank) (hitem : ReadsLaid l limit item) {js : List Json}
    (hjs : ∀ j ∈ js, j.Plain) (hs : s.skipBlanks.rest = lay l level (.array js) ++ tail) :
    Gives (valueWith (some item) s) tail
      (fitting (Json.array js).depth (limit + 1) (.array js)) := by
  have hitems : Gives (items item (s.skipBlanks.rest.length + 1) true s.skipBlanks.skip) tail
      (fitting (depthItems js) limit js) := by
    cases js with
    | nil =>
        have hend := rest_skipBlanks_self (rest_skip hs) (by decide)
        rw [depthItems, fitting_zero]
        exact items_end hend true
    | cons j rest =>
        rw [List.forall_mem_cons] at hjs
        rw [lay, List.cons_append] at hs
        simp only [List.append_assoc, List.singleton_append] at hs
        refine items_lay_first hl hitem hjs.1 hjs.2 ?_ (rest_skip hs)
        -- Every further item has a comma, so the length of the text is fuel enough.
        have hle := length_le_layItems l (level + 1) rest
        rw [hs]
        simp only [List.length_cons, List.length_append]
        omega
  obtain ⟨rest, hrest⟩ : ∃ rest, s.skipBlanks.rest = '[' :: rest := by
    cases js <;> exact ⟨_, by rw [hs, lay, List.cons_append]⟩
  rw [depth, fitting_succ]
  simp only [valueWith, peek_eq hrest]
  refine hitems.bind fun js t ht => ?_
  exact ⟨t, rfl, ht⟩

/-- An object is one level deeper than what its entries may be; entries in key order stay as they
are. -/
theorem valueWith_object (hl : l.Blank) (hitem : ReadsLaid l limit item)
    {es : List (String × Json)} (hsorted : Entries.Sorted es) (hes : ∀ e ∈ es, e.2.Plain)
    (hs : s.skipBlanks.rest = lay l level (.object es) ++ tail) :
    Gives (valueWith (some item) s) tail
      (fitting (Json.object es).depth (limit + 1) (.object es)) := by
  have hentries : Gives (members item (s.skipBlanks.rest.length + 1) true s.skipBlanks.skip) tail
      (fitting (depthEntries es) limit es) := by
    cases es with
    | nil =>
        have hend := rest_skipBlanks_self (rest_skip hs) (by decide)
        rw [depthEntries, fitting_zero]
        exact members_end hend true
    | cons e rest =>
        obtain ⟨key, j⟩ := e
        rw [List.forall_mem_cons] at hes
        have hs : s.skipBlanks.rest = '\x7b' :: (l.line (level + 1) ++ layEntry l (level + 1) key j
            (layEntries l (level + 1) rest ++ (l.line level ++ '\x7d' :: tail))) := by
          rw [hs, lay, ← layEntry_eq]
          simp
        refine members_lay_first hl hitem hes.1 hes.2 ?_ (rest_skip hs)
        have hle := length_le_layEntries l (level + 1) rest
        rw [hs, layEntry]
        simp only [List.length_cons, List.length_append]
        omega
  obtain ⟨rest, hrest⟩ : ∃ rest, s.skipBlanks.rest = '\x7b' :: rest := by
    cases es <;> exact ⟨_, by rw [hs, lay, List.cons_append]⟩
  rw [depth, fitting_succ _ _ Json.object]
  simp only [valueWith, peek_eq hrest]
  -- What is read is put in key order, in which it was written.
  have hsame : (fitting (depthEntries es) limit es).bind (fun es => some (Json.object es)) =
      (fitting (depthEntries es) limit es).bind
        (fun es => some (Json.object (Entries.ofList es))) := by
    unfold fitting
    split
    · simp [Entries.ofList_of_sorted hsorted]
    · rfl
  rw [hsame]
  refine hentries.bind fun es t ht => ?_
  exact ⟨t, rfl, ht⟩

/-- A reader of nested values makes a reader that goes down one level more. -/
theorem valueWith_some (hl : l.Blank) (hitem : ReadsLaid l limit item) :
    ReadsLaid l (limit + 1) (valueWith (some item)) := by
  intro j level s tail hj hstops hs
  cases hj with
  | array h => exact valueWith_array hl hitem h hs
  | object hsorted h => exact valueWith_object hl hitem hsorted h hs
  | _ =>
      change Gives _ tail (fitting 0 _ _)
      rw [fitting_zero]
      exact valueWith_leaf (by constructor) rfl hstops hs

/-- The reader of values takes every tree that is no deeper than it goes down. -/
theorem value_lay (hl : l.Blank) (limit : Nat) : ReadsLaid l limit (value limit) := by
  -- The reader is built from the limit upwards, each level around the one below it.
  induction limit with
  | zero => exact valueWith_none
  | succ limit ih => exact valueWith_some hl ih

end Values

/-! ## Whole texts -/

/-- A whole text is read back, or refused for its depth. -/
theorem read_lay {l : Layout} (hl : l.Blank) {level : Nat} {j : Json} (hj : j.Plain)
    {text : String} (htext : text.toList = lay l level j) :
    (j.depth ≤ depthLimit → read text = .ok j) ∧
      (depthLimit < j.depth →
        ∃ line column, read text = .error ⟨.nestedTooDeep, line, column⟩) := by
  have hstart : (Cursor.start text).rest = lay l level j ++ [] := by
    rw [List.append_nil]
    exact htext
  have hgives := value_lay hl depthLimit hj stops_nil (rest_skipBlanks_lay_self hj hstart)
  constructor
  · intro hdepth
    rw [fitting, if_pos hdepth] at hgives
    obtain ⟨s, hvalue, hs⟩ := hgives
    have hend : s.skipBlanks.peek = none := by
      rw [peek, skipBlanks, rest_dropBlanks, hs]
      rfl
    simp only [read, hvalue, bind, Except.bind, hend]
  · intro hdepth
    rw [fitting_of_lt hdepth] at hgives
    obtain ⟨line, column, hvalue⟩ := hgives
    exact ⟨line, column, by simp only [read, hvalue, bind, Except.bind]⟩

end Json

end KeyedCoding
