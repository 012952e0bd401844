import KeyedCoding.Json.Tree

/-!
# Reading JSON text

A reader over characters that keeps the line and the number of bytes consumed on it.  A fault
names its cause and the place where it was seen: behind the characters consumed so far, or one
byte further where a character is at fault, however many bytes that character has.  Arrays and
objects nest up to a fixed number of levels, and that number is what the recursion of `Json.value`
descends on.
-/

namespace KeyedCoding

namespace Json

/-- Causes for which text is refused. -/
inductive Fault where
  | endOfValue
  | endOfList
  | endOfObject
  | endOfString
  | expectedColon
  | expectedListEnd
  | expectedObjectEnd
  | expectedIdent
  | expectedValue
  | invalidEscape
  | invalidNumber
  | numberOutOfRange
  | controlCharacter
  | keyNotString
  | loneSurrogate
  | endOfHexEscape
  | trailingComma
  | trailingCharacters
  | nestedTooDeep
deriving DecidableEq, Repr

/-- The wording of a fault. -/
def Fault.message : Fault → String
  | endOfValue => "EOF while parsing a value"
  | endOfList => "EOF while parsing a list"
  | endOfObject => "EOF while parsing an object"
  | endOfString => "EOF while parsing a string"
  | expectedColon => "expected `:`"
  | expectedListEnd => "expected `,` or `]`"
  | expectedObjectEnd => "expected `,` or `\x7d`"
  | expectedIdent => "expected ident"
  | expectedValue => "expected value"
  | invalidEscape => "invalid escape"
  | invalidNumber => "invalid number"
  | numberOutOfRange => "number out of range"
  | controlCharacter => "control character (\\u0000-\\u001F) found while parsing a string"
  | keyNotString => "key must be a string"
  | loneSurrogate => "lone leading surrogate in hex escape"
  | endOfHexEscape => "unexpected end of hex escape"
  | trailingComma => "trailing comma"
  | trailingCharacters => "trailing characters"
  | nestedTooDeep => "recursion limit exceeded"

/-- A fault and its place. -/
structure FaultAt where
  fault : Fault
  line : Nat
  column : Nat
deriving DecidableEq, Repr

/-- The wording of a fault with its place. -/
def FaultAt.message (f : FaultAt) : String :=
  f.fault.message ++ " at line " ++ toString f.line ++ " column " ++ toString f.column

/-- The characters ahead and the place reached. -/
structure Cursor where
  rest : List Char
  line : Nat
  column : Nat
deriving Repr

namespace Cursor

/-- The start of a text. -/
def start (text : String) : Cursor := ⟨text.toList, 1, 0⟩

/-- The next character. -/
def peek (s : Cursor) : Option Char := s.rest.head?

/-- The place behind a character. -/
def past (s : Cursor) (c : Char) (rest : List Char) : Cursor :=
  if c = '\n' then ⟨rest, s.line + 1, 0⟩ else ⟨rest, s.line, s.column + c.utf8Size⟩

/-- The next character and the place behind it. -/
def next (s : Cursor) : Option (Char × Cursor) :=
  match s.rest with
  | [] => none
  | c :: rest => some (c, s.past c rest)

/-- The place behind the next character. -/
def skip (s : Cursor) : Cursor :=
  match s.rest with
  | [] => s
  | c :: rest => s.past c rest

/-- A fault seen behind what was consumed. -/
def fail {α : Type} (s : Cursor) (fault : Fault) : Except FaultAt α :=
  .error ⟨fault, s.line, s.column⟩

/-- A fault seen at the next byte, or at the end where there is none. -/
def failAhead {α : Type} (s : Cursor) (fault : Fault) : Except FaultAt α :=
  match s.rest with
  | [] => .error ⟨fault, s.line, s.column⟩
  | '\n' :: _ => .error ⟨fault, s.line + 1, 0⟩
  | _ :: _ => .error ⟨fault, s.line, s.column + 1⟩

/-- Whether a character is a blank between tokens. -/
def isBlank (c : Char) : Bool :=
  c == ' ' || c == '\n' || c == '\t' || c == '\r'

/-- The place behind the blanks at the front of `rest`. -/
def dropBlanks : List Char → Nat → Nat → Cursor
  | [], line, column => ⟨[], line, column⟩
  | c :: rest, line, column =>
      if c = '\n' then dropBlanks rest (line + 1) 0
      else if isBlank c then dropBlanks rest line (column + 1)
      else ⟨c :: rest, line, column⟩

/-- The place behind the blanks ahead. -/
def skipBlanks (s : Cursor) : Cursor := dropBlanks s.rest s.line s.column

end Cursor

/-- What was read, and the place behind it. -/
abbrev Behind (α : Type) := α × Cursor

/-- The rest of a word such as `null`. -/
def word : List Char → Cursor → Except FaultAt Cursor
  | [], s => .ok s
  | expected :: more, s =>
      match s.next with
      | none => s.fail .endOfValue
      | some (c, behind) => if c = expected then word more behind else s.failAhead .expectedIdent

/-! ## Numbers -/

/-- The value of a decimal digit. -/
def digit? (c : Char) : Option Nat :=
  if '0' ≤ c ∧ c ≤ '9' then some (c.toNat - 48) else none

/-- The next character as a digit. -/
def peekDigit (s : Cursor) : Option Nat := s.peek.bind digit?

/-- Greatest significand that is collected digit by digit. -/
def significandLimit : Nat := Nat.pow 2 64 - 1

/-- A number without sign, `significand · 10 ^ exponent`, scaled by one power of ten at a time.
Each step multiplies or divides by at most `10 ^ 308` and rounds; a step past the range is
refused. -/
def scaleParts (significand : Nat) (exponent : Int) : Option Binary64 :=
  let x := Binary64.ofRatio false significand 1
  if 308 < exponent then (if x.magnitude = 0 then some x else none)
  else if 0 ≤ exponent then
    let y := x.times (.powerOfTen exponent.toNat)
    if y.isFinite then some y else none
  else
    let lower := exponent.natAbs
    let rec descend : Nat → Nat → Binary64 → Binary64
      | 0, _, x => x
      | tries + 1, power, x =>
          if power ≤ 308 then x.dividedBy (.powerOfTen power)
          else if x.magnitude = 0 then x
          else descend tries (power - 308) (x.dividedBy (.powerOfTen 308))
    some (descend 4 lower x)

/-- A finite float, with its sign, from its parts. -/
def floatParts (negative : Bool) (significand : Nat) (exponent : Int) (s : Cursor) :
    Except FaultAt (Behind JsonNumber) :=
  match scaleParts significand exponent with
  | none => s.fail .numberOutOfRange
  | some x =>
      let signed := Binary64.ofMagnitude negative x.magnitude
      if h : signed.isFinite = true then .ok (.float signed h, s) else s.fail .numberOutOfRange

/-- The place behind the digits ahead. -/
def skipDigits : Nat → Cursor → Cursor
  | 0, s => s
  | fuel + 1, s => if (peekDigit s).isSome then skipDigits fuel s.skip else s

/-- Greatest exponent that is collected digit by digit. -/
def exponentLimit : Nat := Nat.pow 2 31 - 1

/-- Digits of an exponent; `none` once they pass the limit. -/
def exponentDigits : Nat → Nat → Cursor → Option Nat × Cursor
  | 0, acc, s => (some acc, s)
  | fuel + 1, acc, s =>
      match peekDigit s with
      | none => (some acc, s)
      | some d =>
          if exponentLimit < acc * 10 + d then (none, s.skip)
          else exponentDigits fuel (acc * 10 + d) s.skip

/-- An exponent part, from its letter on. -/
def exponentPart (negative : Bool) (significand : Nat) (before : Int) (s : Cursor) :
    Except FaultAt (Behind JsonNumber) :=
  let s := s.skip
  let (down, s) :=
    match s.peek with
    | some '+' => (false, s.skip)
    | some '-' => (true, s.skip)
    | _ => (false, s)
  match s.next with
  | none => s.fail .endOfValue
  | some (c, behind) =>
      match digit? c with
      | none => s.failAhead .invalidNumber
      | some d =>
          match exponentDigits behind.rest.length d behind with
          | (some e, s) =>
              floatParts negative significand (if down then before - e else before + e) s
          | (none, s) =>
              if significand ≠ 0 ∧ down = false then s.fail .numberOutOfRange
              else floatParts negative 0 0 (skipDigits s.rest.length s)

/-- What may follow the digits of a float. -/
def floatTail (negative : Bool) (significand : Nat) (exponent : Int) (s : Cursor) :
    Except FaultAt (Behind JsonNumber) :=
  match s.peek with
  | some 'e' | some 'E' => exponentPart negative significand exponent s
  | _ => floatParts negative significand exponent s

/-- Digits behind the point, collected while the significand stays within its limit. -/
def fractionDigits : Nat → Nat → Int → Cursor → Nat × Int × Cursor
  | 0, significand, exponent, s => (significand, exponent, s)
  | fuel + 1, significand, exponent, s =>
      match peekDigit s with
      | none => (significand, exponent, s)
      | some d =>
          if significandLimit < significand * 10 + d then
            (significand, exponent, skipDigits s.rest.length s)
          else fractionDigits fuel (significand * 10 + d) (exponent - 1) s.skip

/-- A fraction part, from its point on. -/
def fractionPart (negative : Bool) (significand : Nat) (before : Int) (s : Cursor) :
    Except FaultAt (Behind JsonNumber) :=
  let s := s.skip
  match peekDigit s with
  | none =>
      match s.peek with
      | some _ => s.failAhead .invalidNumber
      | none => s.failAhead .endOfValue
  | some _ =>
      let (significand, exponent, s) := fractionDigits s.rest.length significand before s
      floatTail negative significand exponent s

/-- A whole number, or the float that it starts. -/
def numberTail (negative : Bool) (significand : Nat) (s : Cursor) :
    Except FaultAt (Behind JsonNumber) :=
  match s.peek with
  | some '.' => fractionPart negative significand 0 s
  | some 'e' | some 'E' => exponentPart negative significand 0 s
  | _ =>
      if negative then
        let n := Int64.ofInt (-(significand : Int))
        if h : n.toInt < 0 ∧ significand ≤ Nat.pow 2 63 then .ok (.negative n h.1, s)
        else floatParts true significand 0 s
      else .ok (.natural (UInt64.ofNat significand), s)

/-- Digits of an integer beyond the limit: only their number counts. -/
def longInteger (negative : Bool) (significand : Nat) (s : Cursor) :
    Except FaultAt (Behind JsonNumber) :=
  let behind := skipDigits s.rest.length s
  let exponent : Int := (s.rest.length : Int) - behind.rest.length
  match behind.peek with
  | some '.' => fractionPart negative significand exponent behind
  | _ => floatTail negative significand exponent behind

/-- Digits of an integer. -/
def integerDigits (negative : Bool) : Nat → Nat → Cursor → Except FaultAt (Behind JsonNumber)
  | 0, significand, s => numberTail negative significand s
  | fuel + 1, significand, s =>
      match peekDigit s with
      | none => numberTail negative significand s
      | some d =>
          if significandLimit < significand * 10 + d then longInteger negative significand s
          else integerDigits negative fuel (significand * 10 + d) s.skip

/-- A number behind its sign. -/
def number? (negative : Bool) (s : Cursor) : Except FaultAt (Behind JsonNumber) :=
  match s.next with
  | none => s.fail .endOfValue
  | some (c, behind) =>
      match digit? c with
      | none => s.failAhead .invalidNumber
      | some 0 =>
          if (peekDigit behind).isSome then behind.failAhead .invalidNumber
          else numberTail negative 0 behind
      | some d => integerDigits negative behind.rest.length d behind

/-! ## Strings -/

/-- The value of a hexadecimal digit. -/
def hex? (c : Char) : Option Nat :=
  if '0' ≤ c ∧ c ≤ '9' then some (c.toNat - 48)
  else if 'a' ≤ c ∧ c ≤ 'f' then some (c.toNat - 87)
  else if 'A' ≤ c ∧ c ≤ 'F' then some (c.toNat - 55)
  else none

/-- The place `count` bytes further, which may lie inside a character; `none` past the end. -/
def skipBytes : List Char → Nat → Nat → Nat → Option (Nat × Nat)
  | _, 0, line, column => some (line, column)
  | [], _ + 1, _, _ => none
  | c :: rest, count + 1, line, column =>
      if c = '\n' then skipBytes rest count (line + 1) 0
      else if c.utf8Size ≤ count + 1 then
        skipBytes rest (count + 1 - c.utf8Size) line (column + c.utf8Size)
      else some (line, column + (count + 1))

/-- The place at the very end. -/
def endOf (s : Cursor) : Cursor :=
  s.rest.foldl (fun t c => t.past c []) s

/-- Four hexadecimal digits; the four bytes ahead are consumed also where they are none. -/
def hexEscape (s : Cursor) : Except FaultAt (Behind Nat) :=
  match skipBytes s.rest 4 s.line s.column with
  | none => (endOf s).fail .endOfString
  | some (line, column) =>
      match s.rest with
      | a :: b :: c :: d :: rest =>
          match hex? a, hex? b, hex? c, hex? d with
          | some a, some b, some c, some d =>
              .ok (((a * 16 + b) * 16 + c) * 16 + d, ⟨rest, line, column⟩)
          | _, _, _, _ => .error ⟨.invalidEscape, line, column⟩
      | _ => .error ⟨.invalidEscape, line, column⟩

/-- The second half of a surrogate pair. -/
def lowSurrogate (high : Nat) (s : Cursor) : Except FaultAt (Behind Char) :=
  match s.next with
  | none => s.fail .endOfString
  | some ('\\', s) =>
      match s.next with
      | none => s.fail .endOfString
      | some ('u', s) => do
          let (low, s) ← hexEscape s
          if low < 0xDC00 ∨ 0xDFFF < low then s.fail .loneSurrogate
          else .ok (Char.ofNat ((high - 0xD800) * 0x400 + (low - 0xDC00) + 0x10000), s)
      | some _ => s.failAhead .endOfHexEscape
  | some _ => s.failAhead .endOfHexEscape

/-- The character of a hexadecimal escape, from its digits on. -/
def unicodeEscape (s : Cursor) : Except FaultAt (Behind Char) := do
  let (n, s) ← hexEscape s
  if 0xDC00 ≤ n ∧ n ≤ 0xDFFF then s.fail .loneSurrogate
  else if n < 0xD800 ∨ 0xDBFF < n then .ok (Char.ofNat n, s)
  else lowSurrogate n s

/-- The character of an escape, behind its backslash. -/
def escape (s : Cursor) : Except FaultAt (Behind Char) :=
  match s.next with
  | none => s.fail .endOfString
  | some (c, behind) =>
      match c with
      | '"' => .ok ('"', behind)
      | '\\' => .ok ('\\', behind)
      | '/' => .ok ('/', behind)
      | 'b' => .ok ('\x08', behind)
      | 'f' => .ok ('\x0c', behind)
      | 'n' => .ok ('\n', behind)
      | 'r' => .ok ('\r', behind)
      | 't' => .ok ('\t', behind)
      | 'u' => unicodeEscape behind
      | _ => s.failAhead .invalidEscape

/-- The characters of a string, behind its opening quote. -/
def stringChars : Nat → Cursor → Except FaultAt (Behind (List Char))
  | 0, s => s.fail .endOfString
  | fuel + 1, s =>
      match s.next with
      | none => s.fail .endOfString
      | some ('"', s) => .ok ([], s)
      | some ('\\', s) => do
          let (c, s) ← escape s
          let (rest, s) ← stringChars fuel s
          .ok (c :: rest, s)
      | some (c, s) =>
          if c.toNat < 32 then s.fail .controlCharacter
          else do
            let (rest, s) ← stringChars fuel s
            .ok (c :: rest, s)

/-- A string behind its opening quote. -/
def string? (s : Cursor) : Except FaultAt (Behind String) := do
  let (chars, s) ← stringChars (s.rest.length + 1) s
  .ok (String.ofList chars, s)

/-! ## Arrays, objects and values -/

/-- Items of an array up to and including its end. -/
def items (item : Cursor → Except FaultAt (Behind Json)) :
    Nat → Bool → Cursor → Except FaultAt (Behind (List Json))
  | 0, _, s => s.fail .endOfList
  | fuel + 1, first, s =>
      let s := s.skipBlanks
      match s.peek with
      | none => s.failAhead .endOfList
      | some ']' => .ok ([], s.skip)
      | some c =>
          if first then do
            let (j, s) ← item s
            let (rest, s) ← items item fuel false s
            .ok (j :: rest, s)
          else if c = ',' then
            let s := s.skip.skipBlanks
            match s.peek with
            | none => s.failAhead .endOfValue
            | some ']' => s.failAhead .trailingComma
            | some _ => do
                let (j, s) ← item s
                let (rest, s) ← items item fuel false s
                .ok (j :: rest, s)
          else s.failAhead .expectedListEnd

/-- An entry, from the opening quote of its key on. -/
def entry (item : Cursor → Except FaultAt (Behind Json)) (s : Cursor) :
    Except FaultAt (Behind (String × Json)) := do
  let (key, s) ← string? s.skip
  let s := s.skipBlanks
  match s.peek with
  | none => s.failAhead .endOfObject
  | some ':' => do
      let (j, s) ← item s.skip
      .ok ((key, j), s)
  | some _ => s.failAhead .expectedColon

/-- Entries of an object up to and including its end, in the order of the text. -/
def members (item : Cursor → Except FaultAt (Behind Json)) :
    Nat → Bool → Cursor → Except FaultAt (Behind (List (String × Json)))
  | 0, _, s => s.fail .endOfObject
  | fuel + 1, first, s =>
      let s := s.skipBlanks
      match s.peek with
      | none => s.failAhead .endOfObject
      | some '\x7d' => .ok ([], s.skip)
      | some c =>
          if first then
            if c = '"' then do
              let (e, s) ← entry item s
              let (rest, s) ← members item fuel false s
              .ok (e :: rest, s)
            else s.failAhead .keyNotString
          else if c = ',' then
            let s := s.skip.skipBlanks
            match s.peek with
            | none => s.failAhead .endOfValue
            | some '"' => do
                let (e, s) ← entry item s
                let (rest, s) ← members item fuel false s
                .ok (e :: rest, s)
            | some '\x7d' => s.failAhead .trailingComma
            | some _ => s.failAhead .keyNotString
          else s.failAhead .expectedObjectEnd

/-- A value whose nested values are read by `nested`; none may follow where there is no reader. -/
def valueWith (nested : Option (Cursor → Except FaultAt (Behind Json))) (s : Cursor) :
    Except FaultAt (Behind Json) :=
  let s := s.skipBlanks
  match s.peek with
  | none => s.failAhead .endOfValue
  | some 'n' => do
      let s ← word ['u', 'l', 'l'] s.skip
      .ok (null, s)
  | some 't' => do
      let s ← word ['r', 'u', 'e'] s.skip
      .ok (bool true, s)
  | some 'f' => do
      let s ← word ['a', 'l', 's', 'e'] s.skip
      .ok (bool false, s)
  | some '-' => do
      let (n, s) ← number? true s.skip
      .ok (number n, s)
  | some '"' => do
      let (text, s) ← string? s.skip
      .ok (string text, s)
  | some '[' =>
      match nested with
      | none => s.failAhead .nestedTooDeep
      | some item => do
          let (js, s) ← items item (s.rest.length + 1) true s.skip
          .ok (array js, s)
  | some '\x7b' =>
      match nested with
      | none => s.failAhead .nestedTooDeep
      | some item => do
          let (es, s) ← members item (s.rest.length + 1) true s.skip
          .ok (object (Entries.ofList es), s)
  | some c =>
      if (digit? c).isSome then do
        let (n, s) ← number? false s
        .ok (number n, s)
      else s.failAhead .expectedValue

/-- A value with at most `depth` arrays and objects around its leaves. -/
def value : Nat → Cursor → Except FaultAt (Behind Json)
  | 0 => valueWith none
  | depth + 1 => valueWith (some (value depth))

/-- Most arrays and objects that may stand inside each other. -/
def depthLimit : Nat := 127

/-- The tree of a whole text. -/
def read (text : String) : Except FaultAt Json := do
  let (j, s) ← value depthLimit (Cursor.start text)
  let s := s.skipBlanks
  match s.peek with
  | none => .ok j
  | some _ => s.failAhead .trailingCharacters

end Json

end KeyedCoding
