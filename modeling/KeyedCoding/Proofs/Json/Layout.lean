import KeyedCoding.Json.Reader
import KeyedCoding.Json.Writer
import KeyedCoding.Proofs.Value.Canonical

/-!
# Layouts of JSON text

Compact and indented text differ only in the blanks that stand before items and behind colons.
`Json.lay` writes a tree by a layout, which says what these blanks are, and both forms of text are
instances of it.  What is read back is then stated once, for every layout made of blanks.
-/

namespace KeyedCoding

/-! ## Writing by a layout -/

/-- What stands between the parts of a text. -/
structure Layout where
  /-- Before an item or an end at a level. -/
  line : Nat → List Char
  /-- Behind the colon of an entry. -/
  gap : List Char

namespace Layout

/-- No blanks at all. -/
def compact : Layout := ⟨fun _ => [], []⟩

/-- A line for each item, and one blank behind a colon. -/
def indented : Layout := ⟨fun level => (Json.newLine level).toList, [' ']⟩

/-- A layout made of blanks. -/
structure Blank (l : Layout) : Prop where
  line : ∀ level, ∀ c ∈ l.line level, Json.Cursor.isBlank c = true
  gap : ∀ c ∈ l.gap, Json.Cursor.isBlank c = true

theorem blank_compact : compact.Blank := ⟨by simp [compact], by simp [compact]⟩

theorem blank_indented : indented.Blank := by
  constructor
  · intro level c hc
    simp only [indented, Json.newLine, String.toList_append, String.toList_ofList,
      List.mem_append] at hc
    rcases hc with hc | hc
    · have hnewline : c = '\n' := by simpa using hc
      rw [hnewline]
      decide
    · rw [List.eq_of_mem_replicate hc]
      decide
  · intro c hc
    have hspace : c = ' ' := by simpa [indented] using hc
    rw [hspace]
    decide

end Layout

namespace Json

mutual

/-- The text of a tree by a layout at a level. -/
def lay (l : Layout) (level : Nat) : Json → List Char
  | null => "null".toList
  | bool true => "true".toList
  | bool false => "false".toList
  | number n => (numberText n).toList
  | string s => (quote s).toList
  | array [] => ['[', ']']
  | array (j :: rest) =>
      '[' :: (l.line (level + 1) ++ (lay l (level + 1) j ++ (layItems l (level + 1) rest
        ++ (l.line level ++ [']']))))
  | object [] => ['\x7b', '\x7d']
  | object ((key, j) :: rest) =>
      '\x7b' :: (l.line (level + 1) ++ ((quote key).toList ++ ':' :: (l.gap ++ (lay l (level + 1) j
        ++ (layEntries l (level + 1) rest ++ (l.line level ++ ['\x7d']))))))

/-- Further items, each behind a comma. -/
def layItems (l : Layout) (level : Nat) : List Json → List Char
  | [] => []
  | j :: rest => ',' :: (l.line level ++ (lay l level j ++ layItems l level rest))

/-- Further entries, each behind a comma. -/
def layEntries (l : Layout) (level : Nat) : List (String × Json) → List Char
  | [] => []
  | (key, j) :: rest =>
      ',' :: (l.line level ++ ((quote key).toList ++ ':' :: (l.gap ++ (lay l level j
        ++ layEntries l level rest))))

end

mutual

/-- Compact text has the compact layout, at any level. -/
theorem toList_compact (level : Nat) : (j : Json) → (compact j).toList = lay .compact level j
  | null => by simp [compact, lay]
  | bool true => by simp [compact, lay]
  | bool false => by simp [compact, lay]
  | number n => by simp [compact, lay]
  | string s => by simp [compact, lay]
  | array [] => by simp [compact, compactItems, lay]
  | array (j :: rest) => by
      -- What stands behind the bracket is the text of further items without their first comma.
      have hitems := toList_compactItems (level + 1) (j :: rest)
      simp [compact, lay, hitems, layItems, Layout.compact]
  | object [] => by simp [compact, compactEntries, lay]
  | object ((key, j) :: rest) => by
      have hentries := toList_compactEntries (level + 1) ((key, j) :: rest)
      simp [compact, lay, hentries, layEntries, Layout.compact]

/-- All items are further items but for the comma before the first one. -/
theorem toList_compactItems (level : Nat) : (items : List Json) →
    (compactItems items).toList = (layItems .compact level items).tail
  | [] => by simp [compactItems, layItems]
  | [j] => by simp [compactItems, layItems, toList_compact level j, Layout.compact]
  | j :: k :: rest => by
      have hitems := toList_compactItems level (k :: rest)
      simp [compactItems, layItems, toList_compact level j, hitems, Layout.compact]

/-- All entries are further entries but for the comma before the first one. -/
theorem toList_compactEntries (level : Nat) : (entries : List (String × Json)) →
    (compactEntries entries).toList = (layEntries .compact level entries).tail
  | [] => by simp [compactEntries, layEntries]
  | [(key, j)] => by simp [compactEntries, layEntries, toList_compact level j, Layout.compact]
  | (key, j) :: (other, k) :: rest => by
      have hentries := toList_compactEntries level ((other, k) :: rest)
      simp [compactEntries, layEntries, toList_compact level j, hentries, Layout.compact]

end

mutual

/-- Indented text has the indented layout. -/
theorem toList_pretty (level : Nat) : (j : Json) → (pretty level j).toList = lay .indented level j
  | null => by simp [pretty, lay]
  | bool true => by simp [pretty, lay]
  | bool false => by simp [pretty, lay]
  | number n => by simp [pretty, lay]
  | string s => by simp [pretty, lay]
  | array [] => by simp [pretty, lay]
  | array (j :: rest) => by
      simp [pretty, lay, toList_pretty (level + 1) j, toList_prettyItems (level + 1) rest,
        Layout.indented]
  | object [] => by simp [pretty, lay]
  | object ((key, j) :: rest) => by
      simp [pretty, lay, toList_pretty (level + 1) j, toList_prettyEntries (level + 1) rest,
        Layout.indented]

theorem toList_prettyItems (level : Nat) : (items : List Json) →
    (prettyItems level items).toList = layItems .indented level items
  | [] => by simp [prettyItems, layItems]
  | j :: rest => by
      simp [prettyItems, layItems, toList_pretty level j, toList_prettyItems level rest,
        Layout.indented]

theorem toList_prettyEntries (level : Nat) : (entries : List (String × Json)) →
    (prettyEntries level entries).toList = layEntries .indented level entries
  | [] => by simp [prettyEntries, layEntries]
  | (key, j) :: rest => by
      simp [prettyEntries, layEntries, toList_pretty level j, toList_prettyEntries level rest,
        Layout.indented]

end

end Json

end KeyedCoding
