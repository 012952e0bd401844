import KeyedCoding.Derivation.Strategy
import Mathlib.Data.List.Basic

/-!
# Strategies and the words of a name

The strategies that look for words find them by separators or by changes of case, with flags that
run along the characters.  A name can be spelled from its words in four ways; `Spelling.write` says
how, without any of these loops.  Every strategy gives the same key for all four spellings of the
same words, and four of the strategies give the spelling that they are called after.  Words have at
least two characters: where one letter is a word, two capitals in a row do not show the boundary.
-/

namespace KeyedCoding

open KeyStrategy

/-! ## Small letters -/

theorem isLower_iff {c : Char} : c.isLower = true ↔ 97 ≤ c.toNat ∧ c.toNat ≤ 122 := by
  show (decide ('a' ≤ c) && decide (c ≤ 'z')) = true ↔ _
  rw [Bool.and_eq_true, decide_eq_true_iff, decide_eq_true_iff]
  exact Iff.rfl

theorem isUpper_iff {c : Char} : c.isUpper = true ↔ 65 ≤ c.toNat ∧ c.toNat ≤ 90 :=
  decide_eq_true_iff

theorem toLower_of_not_isUpper {c : Char} (hc : c.isUpper = false) : c.toLower = c :=
  dif_neg (of_decide_eq_false hc)

theorem toUpper_of_not_isLower {c : Char} (hc : c.isLower = false) : c.toUpper = c := by
  refine dif_neg fun h => ?_
  rw [isLower_iff.mpr h] at hc
  cases hc

/-- A small letter stands 32 places behind its capital. -/
theorem toNat_toLower {c : Char} (hc : c.isUpper = true) : c.toLower.toNat = c.toNat + 32 := by
  have hrange := isUpper_iff.mp hc
  have hval : c.toLower.val = c.val + ('a'.val - 'A'.val) := by
    delta Char.toLower
    rw [dif_pos (of_decide_eq_true hc)]
  have hshift : ('a'.val - 'A'.val).toNat = 32 := by decide
  rw [← Char.toNat_val, hval, UInt32.toNat_add, Char.toNat_val, hshift]
  omega

theorem toNat_toUpper {c : Char} (hc : c.isLower = true) : c.toUpper.toNat + 32 = c.toNat := by
  have hrange := isLower_iff.mp hc
  have hbound : 'a'.val ≤ c.val ∧ c.val ≤ 'z'.val := hrange
  have hval : c.toUpper.val = c.val + ('A'.val - 'a'.val) := by
    delta Char.toUpper
    rw [dif_pos hbound]
  -- the places are subtracted by adding what is left of them in a word
  have hshift : ('A'.val - 'a'.val).toNat = 4294967264 := by decide
  rw [← Char.toNat_val, hval, UInt32.toNat_add, Char.toNat_val, hshift]
  omega

theorem isUpper_of_isLower {c : Char} (hc : c.isLower = true) : c.isUpper = false := by
  have hlower := isLower_iff.mp hc
  rw [← Bool.not_eq_true, isUpper_iff]
  omega

theorem isUpper_toUpper {c : Char} (hc : c.isLower = true) : c.toUpper.isUpper = true := by
  have hlower := isLower_iff.mp hc
  have hshift := toNat_toUpper hc
  rw [isUpper_iff]
  omega

theorem isLower_toLower {c : Char} (hc : c.isUpper = true) : c.toLower.isLower = true := by
  have hupper := isUpper_iff.mp hc
  rw [isLower_iff, toNat_toLower hc]
  omega

theorem toLower_of_isLower {c : Char} (hc : c.isLower = true) : c.toLower = c :=
  toLower_of_not_isUpper (isUpper_of_isLower hc)

theorem toLower_toUpper {c : Char} (hc : c.isLower = true) : c.toUpper.toLower = c := by
  apply Char.toNat_inj.mp
  rw [toNat_toLower (isUpper_toUpper hc), toNat_toUpper hc]

/-- In small letters, a character and its capital are the same. -/
theorem toLower_toUpper_eq (c : Char) : c.toUpper.toLower = c.toLower := by
  cases hc : c.isLower with
  | true => rw [toLower_toUpper hc, toLower_of_isLower hc]
  | false => rw [toUpper_of_not_isLower hc]

theorem toUpper_toUpper (c : Char) : c.toUpper.toUpper = c.toUpper := by
  refine toUpper_of_not_isLower ?_
  cases hc : c.isLower with
  | true =>
      rw [← Bool.not_eq_true]
      intro hlower
      have hupper := isUpper_toUpper hc
      rw [isUpper_of_isLower hlower] at hupper
      cases hupper
  | false => rw [toUpper_of_not_isLower hc, hc]

theorem isSeparator_of_isUpper {c : Char} (hc : c.isUpper = true) : isSeparator c = false := by
  have hne : c ≠ '_' ∧ c ≠ '-' := by constructor <;> (rintro rfl; revert hc; decide)
  simp [isSeparator, hne.1, hne.2]

/-- A small letter or digit is neither a separator nor a capital. -/
theorem isSeparator_of_endsWord {c : Char} (hc : endsWord c = true) :
    isSeparator c = false ∧ c.isUpper = false := by
  have hne : c ≠ '_' ∧ c ≠ '-' := by constructor <;> (rintro rfl; revert hc; decide)
  refine ⟨by simp [isSeparator, hne.1, hne.2], ?_⟩
  rcases Bool.or_eq_true_iff.mp hc with hlower | hdigit
  · exact isUpper_of_isLower hlower
  · have hrange : 48 ≤ c.toNat ∧ c.toNat ≤ 57 := Char.isDigit_iff_toNat.mp hdigit
    rw [← Bool.not_eq_true, isUpper_iff]
    omega

/-! ## Words and spellings -/

/-- A word of a name: a small letter and at least one more small letter or digit. -/
structure Word where
  first : Char
  rest : List Char
  isLower_first : first.isLower = true
  endsWord_rest : ∀ c ∈ rest, c.isLower = true ∨ c.isDigit = true
  rest_ne_nil : rest ≠ []

namespace Word

/-- The word as it is. -/
def text (w : Word) : String := String.ofList (w.first :: w.rest)

/-- The word with a capital. -/
def capitalised (w : Word) : String := String.ofList (w.first.toUpper :: w.rest)

end Word

/-- The ways to spell a name from its words. -/
inductive Spelling where
  | snake
  | kebab
  | camel
  | pascal
deriving DecidableEq, Repr

namespace Spelling

/-- A name from its words: divided by underscores or hyphens, or run together with capitals, which
the first word may do without. -/
def write : Spelling → List Word → String
  | snake, words => "_".intercalate (words.map Word.text)
  | kebab, words => "-".intercalate (words.map Word.text)
  | pascal, words => String.join (words.map Word.capitalised)
  | camel, [] => ""
  | camel, word :: words => word.text ++ String.join (words.map Word.capitalised)

/-- The characters of the first word. -/
def opening : Spelling → Word → List Char
  | snake, w | kebab, w | camel, w => w.first :: w.rest
  | pascal, w => w.first.toUpper :: w.rest

/-- The characters of a later word with what divides it from the one before. -/
def following : Spelling → Word → List Char
  | snake, w => '_' :: w.first :: w.rest
  | kebab, w => '-' :: w.first :: w.rest
  | camel, w | pascal, w => w.first.toUpper :: w.rest

/-- Words that are divided by a character. -/
theorem intercalate_text (mark : Char) (w : Word) (words : List Word) :
    [mark].intercalate ((w :: words).map fun w => w.first :: w.rest) =
      w.first :: w.rest ++ words.flatMap fun w => mark :: w.first :: w.rest := by
  induction words generalizing w with
  | nil => simp
  | cons next words ih =>
      have hnext := ih next
      rw [List.map_cons] at hnext
      rw [List.map_cons, List.map_cons, List.intercalate_cons_cons, hnext, List.flatMap_cons]
      simp

/-- A name spelled from words begins with the first one, and the others follow. -/
theorem toList_write (sp : Spelling) (w : Word) (words : List Word) :
    (sp.write (w :: words)).toList = sp.opening w ++ words.flatMap sp.following := by
  have htext : (w :: words).map (String.toList ∘ Word.text) =
      (w :: words).map fun w => w.first :: w.rest :=
    List.map_congr_left fun w _ => String.toList_ofList
  have hcapitalised : ∀ words : List Word, (words.map Word.capitalised).flatMap String.toList =
      words.flatMap fun w => w.first.toUpper :: w.rest := by
    intro words
    rw [List.flatMap_map]
    exact List.flatMap_congr fun w _ => String.toList_ofList
  cases sp with
  | snake =>
      rw [write, String.toList_intercalate, List.map_map, htext]
      exact intercalate_text '_' w words
  | kebab =>
      rw [write, String.toList_intercalate, List.map_map, htext]
      exact intercalate_text '-' w words
  | camel =>
      rw [write, String.toList_append, String.toList_join, hcapitalised, Word.text,
        String.toList_ofList]
      rfl
  | pascal =>
      rw [write, String.toList_join, hcapitalised, List.flatMap_cons]
      rfl

end Spelling

namespace Word

variable (w : Word)

theorem endsWord_of_mem : ∀ c ∈ w.rest, endsWord c = true := by
  intro c hc
  simpa [endsWord] using w.endsWord_rest c hc

theorem endsWord_first : endsWord w.first = true := by simp [endsWord, w.isLower_first]

end Word

/-! ## Dividing words -/

section Dividing

variable {other mark : Char} (hother : isSeparator other = true) (hmark : isSeparator mark = true)

include hother

/-- Small letters and digits stay, and a capital behind them starts a word. -/
theorem divideWords_cons {c : Char} (hc : endsWord c = true) (ended : Bool) (rest : List Char) :
    divideWords other mark ended (c :: rest) = c :: divideWords other mark true rest := by
  obtain ⟨hseparator, hupper⟩ := isSeparator_of_endsWord hc
  have hne : c ≠ other := by
    rintro rfl
    rw [hother] at hseparator
    cases hseparator
  simp [divideWords, hne, hupper, hc]

theorem divideWords_append {cs : List Char} (hcs : ∀ c ∈ cs, endsWord c = true)
    (rest : List Char) :
    divideWords other mark true (cs ++ rest) = cs ++ divideWords other mark true rest := by
  induction cs with
  | nil => rfl
  | cons c cs ih =>
      rw [List.forall_mem_cons] at hcs
      rw [List.cons_append, divideWords_cons hother hcs.1, ih hcs.2, List.cons_append]

/-- Behind a word without a capital a capital starts the next one. -/
theorem divideWords_text (w : Word) (ended : Bool) (rest : List Char) :
    divideWords other mark ended (w.first :: w.rest ++ rest) =
      w.first :: w.rest ++ divideWords other mark true rest := by
  rw [List.cons_append, divideWords_cons hother w.endsWord_first,
    divideWords_append hother w.endsWord_of_mem, List.cons_append]

/-- A word with a capital loses it, and is divided from a word before it. -/
theorem divideWords_capitalised (w : Word) (ended : Bool) (rest : List Char) :
    divideWords other mark ended (w.first.toUpper :: w.rest ++ rest) =
      (if ended then [mark] else []) ++
        (w.first :: w.rest ++ divideWords other mark true rest) := by
  have hupper := isUpper_toUpper w.isLower_first
  have hne : w.first.toUpper ≠ other := by
    intro heq
    rw [← heq, isSeparator_of_isUpper hupper] at hother
    cases hother
  -- The capital leaves the flag down; the second character of the word raises it again.
  obtain ⟨c, cs, hrest⟩ := List.exists_cons_of_ne_nil w.rest_ne_nil
  have hcs := w.endsWord_of_mem
  rw [hrest, List.forall_mem_cons] at hcs
  have htail : divideWords other mark false (w.rest ++ rest) =
      w.rest ++ divideWords other mark true rest := by
    rw [hrest, List.cons_append, divideWords_cons hother hcs.1, divideWords_append hother hcs.2,
      List.cons_append]
  simp [divideWords, hne, hupper, toLower_toUpper w.isLower_first, htail]

include hmark

/-- Either separator becomes the mark, and a capital behind it starts no further word. -/
theorem divideWords_separator (hne : other ≠ mark) {c : Char} (hc : isSeparator c = true)
    (ended : Bool) (rest : List Char) :
    divideWords other mark ended (c :: rest) = mark :: divideWords other mark false rest := by
  have hcases : ∀ c, isSeparator c = true → c = '_' ∨ c = '-' := by
    intro c hc
    simpa [isSeparator] using hc
  rcases hcases other hother with rfl | rfl <;> rcases hcases mark hmark with rfl | rfl <;>
    rcases hcases c hc with rfl | rfl <;> first | exact absurd rfl hne | rfl

/-- A later word, however it is spelled, is divided from the one before by the mark. -/
theorem divideWords_following (hne : other ≠ mark) (sp : Spelling) (w : Word)
    (rest : List Char) :
    divideWords other mark true (sp.following w ++ rest) =
      mark :: w.first :: w.rest ++ divideWords other mark true rest := by
  cases sp with
  | snake | kebab =>
      rw [Spelling.following, List.cons_append, divideWords_separator hother hmark hne rfl,
        divideWords_text hother]
      rfl
  | camel | pascal =>
      rw [Spelling.following, divideWords_capitalised hother]
      rfl

/-- However a name is spelled, its words come out divided by the mark. -/
theorem divideWords_spelled (hne : other ≠ mark) (sp : Spelling) (w : Word) (words : List Word) :
    divideWords other mark false (sp.opening w ++ words.flatMap sp.following) =
      w.first :: w.rest ++ words.flatMap fun w => mark :: w.first :: w.rest := by
  have hlater : divideWords other mark true (words.flatMap sp.following) =
      words.flatMap fun w => mark :: w.first :: w.rest := by
    induction words with
    | nil => rfl
    | cons next words ih =>
        rw [List.flatMap_cons, divideWords_following hother hmark hne, ih, List.flatMap_cons]
  cases sp with
  | snake | kebab | camel => rw [Spelling.opening, divideWords_text hother, hlater]
  | pascal =>
      rw [Spelling.opening, divideWords_capitalised hother, hlater]
      rfl

end Dividing

/-! ## Running words together -/

theorem joinWords_append {cs : List Char} (hcs : ∀ c ∈ cs, endsWord c = true)
    (rest : List Char) : joinWords false (cs ++ rest) = cs ++ joinWords false rest := by
  induction cs with
  | nil => rfl
  | cons c cs ih =>
      rw [List.forall_mem_cons] at hcs
      simp [joinWords, (isSeparator_of_endsWord hcs.1).1, ih hcs.2]

/-- A later word, however it is spelled, gets or keeps its capital. -/
theorem joinWords_following (sp : Spelling) (w : Word) (rest : List Char) :
    joinWords false (sp.following w ++ rest) =
      w.first.toUpper :: w.rest ++ joinWords false rest := by
  have hfirst := (isSeparator_of_endsWord w.endsWord_first).1
  have hcapital := isSeparator_of_isUpper (isUpper_toUpper w.isLower_first)
  have htail := joinWords_append w.endsWord_of_mem rest
  cases sp with
  | snake | kebab =>
      have hmark : isSeparator '_' = true ∧ isSeparator '-' = true := ⟨rfl, rfl⟩
      simp [Spelling.following, joinWords, hmark, htail, hfirst]
  | camel | pascal => simp [Spelling.following, joinWords, hcapital, htail]

/-- However a name is spelled, its words come out with capitals, the first letter as asked for. -/
theorem camel_spelled {change : Char → Char} (hchange : ∀ c, change c.toUpper = change c)
    (sp : Spelling) (w : Word) (words : List Word) :
    KeyStrategy.camel change (sp.opening w ++ words.flatMap sp.following) =
      change w.first :: w.rest ++ words.flatMap fun w => w.first.toUpper :: w.rest := by
  have hlater : joinWords false (words.flatMap sp.following) =
      words.flatMap fun w => w.first.toUpper :: w.rest := by
    induction words with
    | nil => rfl
    | cons next words ih =>
        rw [List.flatMap_cons, joinWords_following, ih, List.flatMap_cons]
  have hfirst := (isSeparator_of_endsWord w.endsWord_first).1
  have hcapital := isSeparator_of_isUpper (isUpper_toUpper w.isLower_first)
  have htail := joinWords_append w.endsWord_of_mem (words.flatMap sp.following)
  rw [hlater] at htail
  cases sp with
  | snake | kebab | camel => simp [Spelling.opening, KeyStrategy.camel, hfirst, htail]
  | pascal =>
      simp [Spelling.opening, KeyStrategy.camel, hcapital, htail, hchange]

/-! ## The strategies -/

namespace Spelling

/-- The strategy that a spelling is the result of. -/
def strategy : Spelling → KeyStrategy
  | snake => .snakeCase
  | kebab => .kebabCase
  | camel => .camelCase
  | pascal => .pascalCase

/-- From any spelling of words a strategy gives its own. -/
theorem apply_strategy_write (target sp : Spelling) (words : List Word) :
    target.strategy.apply (sp.write words) = target.write words := by
  apply String.toList_inj.mp
  cases words with
  | nil => cases target <;> cases sp <;> rfl
  | cons w words =>
      rw [toList_write]
      cases target with
      | snake | kebab =>
          simp only [strategy, apply, KeyStrategy.snake, KeyStrategy.kebab, String.toList_ofList,
            toList_write]
          exact divideWords_spelled rfl rfl (by decide) sp w words
      | camel =>
          simp only [strategy, apply, String.toList_ofList, toList_write]
          rw [camel_spelled toLower_toUpper_eq, toLower_of_isLower w.isLower_first]
          rfl
      | pascal =>
          simp only [strategy, apply, String.toList_ofList, toList_write]
          exact camel_spelled toUpper_toUpper sp w words

end Spelling

/-- The key that a strategy makes of a name depends on the words of the name alone, not on the way
they are spelled. -/
theorem KeyStrategy.apply_write_of_words (sp : Spelling) (words : List Word) :
    snakeCase.apply (sp.write words) = "_".intercalate (words.map Word.text) ∧
    kebabCase.apply (sp.write words) = "-".intercalate (words.map Word.text) ∧
    pascalCase.apply (sp.write words) = String.join (words.map Word.capitalised) ∧
    camelCase.apply (sp.write words) = Spelling.camel.write words ∧
    screamingSnakeCase.apply (sp.write words) =
      ("_".intercalate (words.map Word.text)).toUpper ∧
    (∀ through : Spelling, sp.strategy.apply (through.strategy.apply (sp.write words)) =
      sp.write words) := by
  have hsnake := Spelling.apply_strategy_write .snake sp words
  refine ⟨hsnake, Spelling.apply_strategy_write .kebab sp words,
    Spelling.apply_strategy_write .pascal sp words, Spelling.apply_strategy_write .camel sp words,
    ?_, fun through => ?_⟩
  · -- the capitals are put on what dividing by underscores gives
    have hlist : (KeyStrategy.snake (sp.write words).toList) =
        ("_".intercalate (words.map Word.text)).toList := by
      have := congrArg String.toList hsnake
      simpa only [Spelling.strategy, apply, String.toList_ofList, Spelling.write] using this
    apply String.toList_inj.mp
    simp only [apply, hlist, String.toList_ofList, String.toUpper, String.toList_map]
  · rw [Spelling.apply_strategy_write through sp, Spelling.apply_strategy_write sp through]

namespace Heading

/-- The words of a heading. -/
def heading : List Word :=
  [⟨'f', ['i', 'r', 's', 't'], by decide, by simp, by decide⟩,
    ⟨'l', ['i', 'n', 'e', '2'], by decide, by simp, by decide⟩]

/-- However a heading is spelled, every strategy gives its own spelling of it. -/
theorem heading_spelled :
    Spelling.snake.write heading = "first_line2" ∧ Spelling.kebab.write heading = "first-line2" ∧
    Spelling.camel.write heading = "firstLine2" ∧ Spelling.pascal.write heading = "FirstLine2" ∧
    ∀ sp : Spelling, snakeCase.apply (sp.write heading) = "first_line2" ∧
      kebabCase.apply (sp.write heading) = "first-line2" ∧
      pascalCase.apply (sp.write heading) = "FirstLine2" ∧
      camelCase.apply (sp.write heading) = "firstLine2" ∧
      screamingSnakeCase.apply (sp.write heading) = "FIRST_LINE2" := by
  refine ⟨by decide, by decide, by decide, by decide, fun sp => ?_⟩
  obtain ⟨hsnake, hkebab, hpascal, hcamel, hscreaming, -⟩ :=
    KeyStrategy.apply_write_of_words sp heading
  refine ⟨?_, ?_, ?_, ?_, ?_⟩
  · rw [hsnake]
    decide
  · rw [hkebab]
    decide
  · rw [hpascal]
    decide
  · rw [hcamel]
    decide
  · apply String.toList_inj.mp
    rw [hscreaming, String.toUpper, String.toList_map]
    decide

end Heading

end KeyedCoding
