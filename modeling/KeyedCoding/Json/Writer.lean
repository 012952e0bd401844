import KeyedCoding.Json.Tree
import KeyedCoding.Number.Shortest

/-!
# Writing JSON text

Two layouts: compact, without any blank, and indented, where every entry has a line of its own
and two blanks per level.  Strings escape the quote, the backslash and the control characters
below U+0020 and nothing else.
-/

namespace KeyedCoding

namespace Json

/-- A lower-case hexadecimal digit. -/
def hexDigit (n : Nat) : Char :=
  if n < 10 then Char.ofNat (48 + n) else Char.ofNat (87 + n)

/-- A character inside a string. -/
def escapeChar (c : Char) : String :=
  match c with
  | '"' => "\\\""
  | '\\' => "\\\\"
  | '\x08' => "\\b"
  | '\t' => "\\t"
  | '\n' => "\\n"
  | '\x0c' => "\\f"
  | '\r' => "\\r"
  | c =>
      if c.toNat < 32 then
        String.ofList ['\\', 'u', '0', '0', hexDigit (c.toNat / 16), hexDigit (c.toNat % 16)]
      else String.singleton c

/-- The characters of a string, escaped one after the other. -/
def escapeChars : List Char → String
  | [] => ""
  | c :: rest => escapeChar c ++ escapeChars rest

/-- A string between quotes. -/
def quote (s : String) : String :=
  "\"" ++ escapeChars s.toList ++ "\""

/-- Where the positional form of a decimal ends on either side. -/
structure FloatLayout where
  lowest : Int
  highest : Int

/-- A decimal whose point lies at -4 to 16 is written positionally, any other with an exponent. -/
def floatLayout : FloatLayout := ⟨-4, 16⟩

/-- A decimal by the layout; a positional form always has a point, a positive exponent a sign. -/
def layDecimal (layout : FloatLayout) (d : Decimal) : String :=
  let count : Int := d.digits.length
  if layout.lowest ≤ d.point ∧ d.point ≤ layout.highest then
    if d.point ≤ 0 then
      "0." ++ String.ofList (List.replicate (-d.point).toNat '0' ++ d.digits)
    else if count ≤ d.point then
      String.ofList (d.digits ++ List.replicate (d.point - count).toNat '0') ++ ".0"
    else
      String.ofList (d.digits.take d.point.toNat) ++ "."
        ++ String.ofList (d.digits.drop d.point.toNat)
  else
    let exponent := d.point - 1
    let fraction :=
      if d.digits.length ≤ 1 then "" else "." ++ String.ofList (d.digits.drop 1)
    let sign := if 0 ≤ exponent then "+" else "-"
    String.ofList (d.digits.take 1) ++ fraction ++ "e" ++ sign ++ toString exponent.natAbs

/-- A finite binary number by its shortest decimal. -/
def floatText (x : Binary64) : String :=
  let sign := if x.negative then "-" else ""
  if x.magnitude = 0 then sign ++ "0.0"
  else sign ++ layDecimal floatLayout (Decimal.shortest Format.binary64 x.magnitude)

/-- A number. -/
def numberText : JsonNumber → String
  | .natural n => toString n.toNat
  | .negative n _ => toString n.toInt
  | .float x _ => floatText x

mutual

/-- Compact text. -/
def compact : Json → String
  | null => "null"
  | bool true => "true"
  | bool false => "false"
  | number n => numberText n
  | string s => quote s
  | array items => "[" ++ compactItems items ++ "]"
  | object entries => "\x7b" ++ compactEntries entries ++ "\x7d"

/-- Items divided by commas. -/
def compactItems : List Json → String
  | [] => ""
  | [j] => compact j
  | j :: rest => compact j ++ "," ++ compactItems rest

/-- Entries divided by commas. -/
def compactEntries : List (String × Json) → String
  | [] => ""
  | [(key, j)] => quote key ++ ":" ++ compact j
  | (key, j) :: rest => quote key ++ ":" ++ compact j ++ "," ++ compactEntries rest

end

/-- A new line indented by two blanks per level. -/
def newLine (level : Nat) : String :=
  "\n" ++ String.ofList (List.replicate (2 * level) ' ')

mutual

/-- Indented text at a level. -/
def pretty (level : Nat) : Json → String
  | null => "null"
  | bool true => "true"
  | bool false => "false"
  | number n => numberText n
  | string s => quote s
  | array [] => "[]"
  | array (j :: rest) =>
      "[" ++ newLine (level + 1) ++ pretty (level + 1) j ++ prettyItems (level + 1) rest
        ++ newLine level ++ "]"
  | object [] => "\x7b\x7d"
  | object ((key, j) :: rest) =>
      "\x7b" ++ newLine (level + 1) ++ quote key ++ ": " ++ pretty (level + 1) j
        ++ prettyEntries (level + 1) rest ++ newLine level ++ "\x7d"

/-- Further items, each on a line of its own. -/
def prettyItems (level : Nat) : List Json → String
  | [] => ""
  | j :: rest => "," ++ newLine level ++ pretty level j ++ prettyItems level rest

/-- Further entries, each on a line of its own. -/
def prettyEntries (level : Nat) : List (String × Json) → String
  | [] => ""
  | (key, j) :: rest =>
      "," ++ newLine level ++ quote key ++ ": " ++ pretty level j ++ prettyEntries level rest

end

end Json

end KeyedCoding
