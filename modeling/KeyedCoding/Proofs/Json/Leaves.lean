import KeyedCoding.Json.Reader
import KeyedCoding.Json.Writer
import Mathlib.Data.List.TakeDrop

/-!
# Reading leaves of JSON text

What the reader makes of the text of a word, a whole number or a string, with more text behind it.
The place in the text never decides what is read, so a cursor is looked at only through the
characters ahead of it.  A number ends only where no digit, point or exponent follows.
-/

namespace KeyedCoding

namespace Json

/-! ## Cursors by the characters ahead -/

namespace Cursor

theorem rest_past (s : Cursor) (c : Char) (rest : List Char) : (s.past c rest).rest = rest := by
  unfold past
  split <;> rfl

theorem rest_skip {s : Cursor} {c : Char} {rest : List Char} (h : s.rest = c :: rest) :
    s.skip.rest = rest := by
  unfold skip
  rw [h]
  exact rest_past s c rest

theorem next_eq {s : Cursor} {c : Char} {rest : List Char} (h : s.rest = c :: rest) :
    s.next = some (c, s.skip) := by
  unfold next skip
  rw [h]

theorem peek_eq {s : Cursor} {c : Char} {rest : List Char} (h : s.rest = c :: rest) :
    s.peek = some c := by
  rw [peek, h, List.head?_cons]

theorem rest_dropBlanks (rest : List Char) (line column : Nat) :
    (dropBlanks rest line column).rest = rest.dropWhile isBlank := by
  induction rest generalizing line column with
  | nil => rfl
  | cons c rest ih =>
      unfold dropBlanks
      by_cases hnewline : c = '\n'
      · have hblank : isBlank c = true := by
          rw [hnewline]
          decide
        rw [if_pos hnewline, ih, List.dropWhile_cons_of_pos hblank]
      · rw [if_neg hnewline]
        by_cases hblank : isBlank c = true
        · rw [if_pos hblank, ih, List.dropWhile_cons_of_pos hblank]
        · rw [if_neg hblank, List.dropWhile_cons_of_neg hblank]

/-- Blanks are passed over up to the first other character. -/
theorem rest_skipBlanks {s : Cursor} {blanks : List Char} {c : Char} {rest : List Char}
    (h : s.rest = blanks ++ c :: rest) (hblanks : ∀ b ∈ blanks, isBlank b = true)
    (hc : isBlank c = false) : s.skipBlanks.rest = c :: rest := by
  rw [skipBlanks, rest_dropBlanks, h, List.dropWhile_append_of_pos hblanks,
    List.dropWhile_cons_of_neg (by simp [hc])]

/-- Where no blank stands, none is passed over. -/
theorem rest_skipBlanks_self {s : Cursor} {c : Char} {rest : List Char} (h : s.rest = c :: rest)
    (hc : isBlank c = false) : s.skipBlanks.rest = c :: rest := by
  rw [skipBlanks, rest_dropBlanks, h, List.dropWhile_cons_of_neg (by simp [hc])]

end Cursor

open Cursor

/-! ## Words -/

theorem word_eq {expected tail : List Char} {s : Cursor} (h : s.rest = expected ++ tail) :
    ∃ s', word expected s = .ok s' ∧ s'.rest = tail := by
  induction expected generalizing s with
  | nil => exact ⟨s, rfl, h⟩
  | cons c rest ih =>
      rw [List.cons_append] at h
      obtain ⟨s', hs', hrest⟩ := ih (rest_skip h)
      refine ⟨s', ?_, hrest⟩
      rw [word, next_eq h]
      simpa using hs'

/-! ## Whole numbers -/

/-- A number does not go on into a text. -/
def Stops (tail : List Char) : Prop :=
  ∀ c, tail.head? = some c → digit? c = none ∧ c ≠ '.' ∧ c ≠ 'e' ∧ c ≠ 'E'

theorem digit?_of_isDigit {c : Char} (h : c.isDigit = true) : digit? c = some (c.toNat - 48) := by
  have hrange : '0' ≤ c ∧ c ≤ '9' := by simpa [Char.isDigit, Char.le_def] using h
  rw [digit?, if_pos hrange]

theorem peekDigit_of_stops {s : Cursor} {tail : List Char} (h : s.rest = tail)
    (hstops : Stops tail) : peekDigit s = none := by
  rw [peekDigit, peek, h]
  cases hhead : tail.head? with
  | none => rfl
  | some c => exact (hstops c hhead).1

theorem peek_ne_of_stops {s : Cursor} {tail : List Char} (h : s.rest = tail)
    (hstops : Stops tail) : s.peek ≠ some '.' ∧ s.peek ≠ some 'e' ∧ s.peek ≠ some 'E' := by
  rw [peek, h]
  refine ⟨fun hc => ?_, fun hc => ?_, fun hc => ?_⟩
  · exact (hstops _ hc).2.1 rfl
  · exact (hstops _ hc).2.2.1 rfl
  · exact (hstops _ hc).2.2.2 rfl

/-- Where no fraction or exponent follows, a number without sign is natural. -/
theorem numberTail_false {s : Cursor} {tail : List Char} (h : s.rest = tail)
    (hstops : Stops tail) (n : Nat) :
    numberTail false n s = .ok (.natural (UInt64.ofNat n), s) := by
  unfold numberTail
  have hpeek := peek_ne_of_stops h hstops
  split
  · next hpoint => exact absurd hpoint hpeek.1
  · next he => exact absurd he hpeek.2.1
  · next he => exact absurd he hpeek.2.2
  · rfl

theorem le_ofDigitChars (ds : List Char) (init : Nat) : init ≤ Nat.ofDigitChars 10 ds init := by
  induction ds generalizing init with
  | nil => simp
  | cons c ds ih =>
      rw [Nat.ofDigitChars_cons]
      have hstep := ih (10 * init + (c.toNat - '0'.toNat))
      omega

/-- Digits are collected to their number as long as it stays within the limit. -/
theorem integerDigits_eq {negative : Bool} {ds tail : List Char}
    (hds : ∀ c ∈ ds, c.isDigit = true) (hstops : Stops tail) {acc fuel : Nat} {s : Cursor}
    (hs : s.rest = ds ++ tail) (hfuel : ds.length ≤ fuel)
    (hlimit : Nat.ofDigitChars 10 ds acc ≤ significandLimit) :
    ∃ s', s'.rest = tail ∧ integerDigits negative fuel acc s =
      numberTail negative (Nat.ofDigitChars 10 ds acc) s' := by
  induction ds generalizing acc fuel s with
  | nil =>
      refine ⟨s, hs, ?_⟩
      cases fuel with
      | zero => simp [integerDigits]
      | succ fuel => simp [integerDigits, peekDigit_of_stops hs hstops]
  | cons c ds ih =>
      obtain ⟨fuel, rfl⟩ : ∃ f, fuel = f + 1 := by
        cases fuel with
        | zero => simp at hfuel
        | succ f => exact ⟨f, rfl⟩
      rw [List.forall_mem_cons] at hds
      rw [List.cons_append] at hs
      rw [Nat.ofDigitChars_cons] at hlimit ⊢
      have hpeek : peekDigit s = some (c.toNat - 48) := by
        rw [peekDigit, peek_eq hs]
        exact digit?_of_isDigit hds.1
      have hstep : 10 * acc + (c.toNat - '0'.toNat) = acc * 10 + (c.toNat - 48) := by
        rw [Nat.mul_comm]
        rfl
      rw [hstep] at hlimit ⊢
      -- Further digits only add to the number, so no step on the way exceeds the limit either.
      have hwithin : ¬ significandLimit < acc * 10 + (c.toNat - 48) := by
        have hle := le_ofDigitChars ds (acc * 10 + (c.toNat - 48))
        omega
      obtain ⟨s', hs', heq⟩ := ih hds.2 (rest_skip hs) (by simpa using hfuel) hlimit
      refine ⟨s', hs', ?_⟩
      rw [integerDigits, hpeek]
      simp only [hwithin, if_false]
      exact heq

/-- The digits of a positive number do not start with a zero. -/
theorem toDigits_eq_cons {n : Nat} (h : 0 < n) :
    ∃ c ds, Nat.toDigits 10 n = c :: ds ∧ c.toNat - 48 ≠ 0 := by
  induction n using Nat.strongRecOn with
  | ind n ih =>
      by_cases hlt : n < 10
      · refine ⟨n.digitChar, [], Nat.toDigits_of_lt_base hlt, ?_⟩
        rw [Nat.toNat_digitChar_sub_48_of_lt_ten hlt]
        omega
      · obtain ⟨c, ds, hdigits, hc⟩ := ih (n / 10) (by omega) (by omega)
        refine ⟨c, ds ++ [(n % 10).digitChar], ?_, hc⟩
        rw [Nat.toDigits_of_base_le (by omega) (by omega), hdigits, List.cons_append]

/-- The digits of a number are read as that number. -/
theorem number?_toDigits {negative : Bool} {n : Nat} {tail : List Char} {s : Cursor}
    (h : s.rest = Nat.toDigits 10 n ++ tail) (hstops : Stops tail) (hn : n ≤ significandLimit) :
    ∃ s', s'.rest = tail ∧ number? negative s = numberTail negative n s' := by
  -- A zero in front ends the number, so the reader treats it apart from other first digits.
  rcases Nat.eq_zero_or_pos n with rfl | hpos
  · rw [Nat.toDigits_zero, List.singleton_append] at h
    refine ⟨s.skip, rest_skip h, ?_⟩
    have hzero : digit? '0' = some 0 := by decide
    simp [number?, next_eq h, hzero, peekDigit_of_stops (rest_skip h) hstops]
  · obtain ⟨c, ds, hdigits, hc⟩ := toDigits_eq_cons hpos
    have hisDigit : ∀ d ∈ c :: ds, d.isDigit = true := by
      intro d hd
      rw [← hdigits] at hd
      exact Nat.isDigit_of_mem_toDigits (by omega) (by omega) hd
    rw [List.forall_mem_cons] at hisDigit
    have hvalue : Nat.ofDigitChars 10 ds (c.toNat - 48) = n := by
      have hall : Nat.ofDigitChars 10 (c :: ds) 0 = n := by
        rw [← hdigits]
        exact Nat.ofDigitChars_ten_toDigits
      rw [Nat.ofDigitChars_cons, Nat.mul_zero, Nat.zero_add] at hall
      exact hall
    rw [hdigits, List.cons_append] at h
    have hfuel : ds.length ≤ s.skip.rest.length := by
      rw [rest_skip h, List.length_append]
      omega
    obtain ⟨s', hs', heq⟩ : ∃ s', s'.rest = tail ∧
        integerDigits negative s.skip.rest.length (c.toNat - 48) s.skip =
          numberTail negative (Nat.ofDigitChars 10 ds (c.toNat - 48)) s' :=
      integerDigits_eq hisDigit.2 hstops (rest_skip h) hfuel (by rw [hvalue]; exact hn)
    refine ⟨s', hs', ?_⟩
    rw [hvalue] at heq
    rw [← heq]
    simp only [number?, next_eq h, digit?_of_isDigit hisDigit.1]

/-- A natural number is read from its digits. -/
theorem number?_natural {n : UInt64} {tail : List Char} {s : Cursor}
    (h : s.rest = (numberText (.natural n)).toList ++ tail) (hstops : Stops tail) :
    ∃ s', number? false s = .ok (.natural n, s') ∧ s'.rest = tail := by
  rw [numberText, Nat.toString_eq_repr, Nat.toList_repr] at h
  have hn : n.toNat ≤ significandLimit := by
    have hlt := n.toNat_lt
    show n.toNat ≤ 2 ^ 64 - 1
    omega
  obtain ⟨s', hs', heq⟩ := number?_toDigits h hstops hn
  refine ⟨s', ?_, hs'⟩
  rw [heq, numberTail_false hs' hstops, UInt64.ofNat_toNat]

theorem toList_numberText_negative (n : Int64) (h : n.toInt < 0) :
    (numberText (.negative n h)).toList = '-' :: Nat.toDigits 10 (-n.toInt).toNat := by
  have hneg : ¬ 0 ≤ n.toInt := by omega
  rw [numberText, Int.toString_eq_repr, Int.repr_eq_if, if_neg hneg, String.toList_append,
    Nat.toList_repr]
  rfl

/-- Where no fraction or exponent follows, the number behind a sign is negative. -/
theorem numberTail_true {s : Cursor} {tail : List Char} (h : s.rest = tail) (hstops : Stops tail)
    {n : Int64} (hn : n.toInt < 0) :
    numberTail true (-n.toInt).toNat s = .ok (.negative n hn, s) := by
  have hpeek := peek_ne_of_stops h hstops
  have hback : Int64.ofInt (-((-n.toInt).toNat : Int)) = n := by
    rw [Int.toNat_of_nonneg (by omega), Int.neg_neg, Int64.ofInt_toInt]
  have hbound : (-n.toInt).toNat ≤ Nat.pow 2 63 := by
    have hle := n.le_toInt
    show (-n.toInt).toNat ≤ 2 ^ 63
    omega
  unfold numberTail
  split
  · next hpoint => exact absurd hpoint hpeek.1
  · next he => exact absurd he hpeek.2.1
  · next he => exact absurd he hpeek.2.2
  · simp only [if_true, hback, hn, hbound, and_self, dif_pos]

/-- A negative number is read from its digits, behind its sign. -/
theorem number?_negative {n : Int64} (hn : n.toInt < 0) {tail : List Char} {s : Cursor}
    (h : s.rest = Nat.toDigits 10 (-n.toInt).toNat ++ tail) (hstops : Stops tail) :
    ∃ s', number? true s = .ok (.negative n hn, s') ∧ s'.rest = tail := by
  have hlimit : (-n.toInt).toNat ≤ significandLimit := by
    have hle := n.le_toInt
    show (-n.toInt).toNat ≤ 2 ^ 64 - 1
    omega
  obtain ⟨s', hs', heq⟩ := number?_toDigits h hstops hlimit
  refine ⟨s', ?_, hs'⟩
  rw [heq, numberTail_true hs' hstops hn]

/-! ## Strings -/

theorem hexDigit_spec : ∀ d < 16,
    hex? (hexDigit d) = some d ∧ hexDigit d ≠ '\n' ∧ (hexDigit d).utf8Size = 1 := by
  decide

theorem skipBytes_cons {c : Char} (hc : c ≠ '\n') (hsize : c.utf8Size = 1) (rest : List Char)
    (count line column : Nat) :
    skipBytes (c :: rest) (count + 1) line column = skipBytes rest count line (column + 1) := by
  rw [skipBytes, if_neg hc, hsize, if_pos (by omega), Nat.add_sub_cancel]

/-- Four hexadecimal digits of which the last two count. -/
theorem hexEscape_eq {a b : Nat} (ha : a < 16) (hb : b < 16) {tail : List Char} {s : Cursor}
    (h : s.rest = '0' :: '0' :: hexDigit a :: hexDigit b :: tail) :
    ∃ s', hexEscape s = .ok (a * 16 + b, s') ∧ s'.rest = tail := by
  obtain ⟨hhex, hline, hsize⟩ := hexDigit_spec a ha
  obtain ⟨hhex', hline', hsize'⟩ := hexDigit_spec b hb
  have hbytes : skipBytes s.rest 4 s.line s.column = some (s.line, s.column + 1 + 1 + 1 + 1) := by
    rw [h, skipBytes_cons (by decide) (by decide), skipBytes_cons (by decide) (by decide),
      skipBytes_cons hline hsize, skipBytes_cons hline' hsize', skipBytes]
  have hzero : hex? '0' = some 0 := by decide
  refine ⟨⟨tail, s.line, s.column + 1 + 1 + 1 + 1⟩, ?_, rfl⟩
  rw [hexEscape, hbytes, h]
  simp [hzero, hhex, hhex']

/-- A control character is read from the escape that it is written as. -/
theorem escape_control {c : Char} (hc : c.toNat < 32) {tail : List Char} {s : Cursor}
    (h : s.rest = 'u' :: '0' :: '0' :: hexDigit (c.toNat / 16) :: hexDigit (c.toNat % 16) :: tail) :
    ∃ s', escape s = .ok (c, s') ∧ s'.rest = tail := by
  obtain ⟨s', heq, hs'⟩ := hexEscape_eq (by omega) (by omega) (rest_skip h)
  refine ⟨s', ?_, hs'⟩
  have hvalue : c.toNat / 16 * 16 + c.toNat % 16 = c.toNat := by omega
  rw [hvalue] at heq
  -- A control character is no half of a surrogate pair.
  have hhigh : ¬ (0xDC00 ≤ c.toNat ∧ c.toNat ≤ 0xDFFF) := by omega
  have hlow : c.toNat < 0xD800 ∨ 0xDBFF < c.toNat := by omega
  simp only [escape, next_eq h, unicodeEscape, heq, bind, Except.bind, if_neg hhigh, if_pos hlow,
    Char.ofNat_toNat]

/-- The rest of a string behind one of its characters. -/
def andThen (c : Char) (read : Except FaultAt (Behind (List Char))) :
    Except FaultAt (Behind (List Char)) := do
  let (rest, s) ← read
  .ok (c :: rest, s)

theorem stringChars_escape {s : Cursor} {rest : List Char} (h : s.rest = '\\' :: rest) {c : Char}
    {s' : Cursor} (hescape : escape s.skip = .ok (c, s')) (fuel : Nat) :
    stringChars (fuel + 1) s = andThen c (stringChars fuel s') := by
  simp only [stringChars, next_eq h, hescape, andThen]
  rfl

/-- An escape of one character stands for what the reader takes it for. -/
theorem stringChars_short {x c : Char} {tail : List Char} {s : Cursor}
    (h : s.rest = '\\' :: x :: tail)
    (hx : ∀ t : Cursor, t.rest = x :: tail → escape t = .ok (c, t.skip)) (fuel : Nat) :
    ∃ s', s'.rest = tail ∧ stringChars (fuel + 1) s = andThen c (stringChars fuel s') :=
  ⟨s.skip.skip, rest_skip (rest_skip h), stringChars_escape h (hx s.skip (rest_skip h)) fuel⟩

theorem stringChars_plain {c : Char} {tail : List Char} {s : Cursor} (h : s.rest = c :: tail)
    (hquote : c ≠ '"') (hbackslash : c ≠ '\\') (hcontrol : ¬ c.toNat < 32) (fuel : Nat) :
    stringChars (fuel + 1) s = andThen c (stringChars fuel s.skip) := by
  simp only [stringChars, next_eq h, if_neg hcontrol, andThen]

/-- A character is read from the form that it is written in. -/
theorem stringChars_escapeChar (c : Char) {tail : List Char} {s : Cursor}
    (h : s.rest = (escapeChar c).toList ++ tail) (fuel : Nat) :
    ∃ s', s'.rest = tail ∧ stringChars (fuel + 1) s = andThen c (stringChars fuel s') := by
  unfold escapeChar at h
  split at h
  · exact stringChars_short (x := '"') h (fun t ht => by simp only [escape, next_eq ht]) fuel
  · exact stringChars_short (x := '\\') h (fun t ht => by simp only [escape, next_eq ht]) fuel
  · exact stringChars_short (x := 'b') h (fun t ht => by simp only [escape, next_eq ht]) fuel
  · exact stringChars_short (x := 't') h (fun t ht => by simp only [escape, next_eq ht]) fuel
  · exact stringChars_short (x := 'n') h (fun t ht => by simp only [escape, next_eq ht]) fuel
  · exact stringChars_short (x := 'f') h (fun t ht => by simp only [escape, next_eq ht]) fuel
  · exact stringChars_short (x := 'r') h (fun t ht => by simp only [escape, next_eq ht]) fuel
  · next hquote hbackslash _ _ _ _ _ =>
      by_cases hcontrol : c.toNat < 32
      · rw [if_pos hcontrol, String.toList_ofList] at h
        obtain ⟨s', hescape, hs'⟩ := escape_control hcontrol (rest_skip h)
        exact ⟨s', hs', stringChars_escape h hescape fuel⟩
      · rw [if_neg hcontrol, String.toList_singleton] at h
        exact ⟨s.skip, rest_skip h, stringChars_plain h hquote hbackslash hcontrol fuel⟩

theorem length_escapeChar_pos (c : Char) : 0 < (escapeChar c).toList.length := by
  unfold escapeChar
  split
  all_goals try decide
  split
  · simp
  · simp

theorem length_le_escapeChars (cs : List Char) : cs.length ≤ (escapeChars cs).toList.length := by
  induction cs with
  | nil => simp
  | cons c cs ih =>
      have hpos := length_escapeChar_pos c
      simp only [escapeChars, String.toList_append, List.length_append, List.length_cons]
      omega

/-- The characters of a string are read from their escapes up to the quote. -/
theorem stringChars_escapeChars (cs : List Char) {tail : List Char} {s : Cursor}
    (h : s.rest = (escapeChars cs).toList ++ '"' :: tail) {fuel : Nat} (hfuel : cs.length < fuel) :
    ∃ s', stringChars fuel s = .ok (cs, s') ∧ s'.rest = tail := by
  induction cs generalizing fuel s with
  | nil =>
      obtain ⟨fuel, rfl⟩ := Nat.exists_eq_succ_of_ne_zero (Nat.ne_of_gt hfuel)
      have hquote : s.rest = '"' :: tail := h
      exact ⟨s.skip, by simp only [stringChars, next_eq hquote], rest_skip hquote⟩
  | cons c cs ih =>
      obtain ⟨fuel, rfl⟩ := Nat.exists_eq_succ_of_ne_zero (Nat.ne_of_gt (Nat.zero_lt_of_lt hfuel))
      rw [escapeChars, String.toList_append, List.append_assoc] at h
      obtain ⟨s', hs', hstep⟩ := stringChars_escapeChar c h fuel
      obtain ⟨s'', hrest, hs''⟩ := ih hs' (by simpa using hfuel)
      refine ⟨s'', ?_, hs''⟩
      rw [hstep, hrest]
      rfl

theorem toList_quote (text : String) :
    (quote text).toList = '"' :: ((escapeChars text.toList).toList ++ ['"']) := by
  simp [quote]

/-- A string is read from what stands behind its opening quote. -/
theorem string?_eq {text : String} {tail : List Char} {s : Cursor}
    (h : s.rest = (escapeChars text.toList).toList ++ '"' :: tail) :
    ∃ s', string? s = .ok (text, s') ∧ s'.rest = tail := by
  have hfuel : text.toList.length < s.rest.length + 1 := by
    have hle := length_le_escapeChars text.toList
    rw [h, List.length_append]
    omega
  obtain ⟨s', heq, hs'⟩ := stringChars_escapeChars text.toList h hfuel
  refine ⟨s', ?_, hs'⟩
  simp only [string?, heq, bind, Except.bind, String.ofList_toList]

end Json

end KeyedCoding
