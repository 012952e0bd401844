import KeyedCoding.Text.Printable

/-!
# Text between quotes

Two ways of quoting text.  `Quoted.shown` is what messages use to show text, `Quoted.literal` what
a string literal of generated code holds; they differ only in a zero character that a digit
follows, where a literal must not read on into the digit.
-/

namespace KeyedCoding

namespace Quoted

/-- Hexadecimal digits of a number, without leading zeros. -/
def hex (n : Nat) : List Char := Nat.toDigits 16 n

/-- An escape by code point. -/
def byCode (c : Char) : List Char :=
  ['\\', 'u', '\x7b'] ++ hex c.toNat ++ ['\x7d']

/-- A character between quotes, zero apart. -/
def escapeChar (c : Char) : List Char :=
  match c with
  | '\t' => ['\\', 't']
  | '\r' => ['\\', 'r']
  | '\n' => ['\\', 'n']
  | '\\' => ['\\', '\\']
  | '"' => ['\\', '"']
  | c => if Printable.holds c then [c] else byCode c

/-- Whether a digit of an octal escape comes next. -/
def octalAhead : List Char → Bool
  | [] => false
  | c :: _ => '0' ≤ c && c ≤ '7'

/-- Characters between quotes; `zero` gives the escape of a zero by what follows it. -/
def escapeChars (zero : List Char → List Char) : List Char → List Char
  | [] => []
  | c :: rest => (if c = '\x00' then zero rest else escapeChar c) ++ escapeChars zero rest

/-- Text as messages show it. -/
def shown (text : String) : String :=
  String.ofList (['"'] ++ escapeChars (fun _ => ['\\', '0']) text.toList ++ ['"'])

/-- Text as a string literal. -/
def literal (text : String) : String :=
  let zero := fun rest => if octalAhead rest then ['\\', 'x', '0', '0'] else ['\\', '0']
  String.ofList (['"'] ++ escapeChars zero text.toList ++ ['"'])

end Quoted

end KeyedCoding
