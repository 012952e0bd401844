import KeyedCoding.Number.Binary
import KeyedCoding.Source.Lexer

/-!
# Literals

What the text of a literal token stands for.  Only texts that the lexer accepts are given to these
functions; on any other text their answer has no meaning.
-/

namespace KeyedCoding

/-- The kinds of literals. -/
inductive LiteralKind where
  | string
  | byteString
  /-- A string that ends with a zero byte. -/
  | zeroEnded
  | byte
  | char
  | int
  | float
  | bool
  /-- The mark of a literal that could not be read. -/
  | verbatim
deriving DecidableEq, Repr

namespace LiteralText

/-! ## Kinds -/

/-- Whether the digits of a number make it a float: it has a point or an exponent. -/
def isFloat (s : List Char) : Bool :=
  match s with
  | '0' :: 'x' :: _ | '0' :: 'o' :: _ | '0' :: 'b' :: _ => false
  | _ => (Lexer.floatDigits s).isSome

/-- The kind of a literal; a number may start with a minus sign. -/
def kind (text : String) : LiteralKind :=
  match text.toList with
  | '"' :: _ => .string
  | 'r' :: _ => .string
  | 'b' :: '\'' :: _ => .byte
  | 'b' :: _ => .byteString
  | 'c' :: _ => .zeroEnded
  | '\'' :: _ => .char
  | 't' :: _ | 'f' :: _ => .bool
  | '(' :: _ => .verbatim
  | '-' :: rest => if isFloat rest then .float else .int
  | s => if isFloat s then .float else .int

/-! ## Strings and characters -/

/-- The number that hexadecimal digits stand for. -/
def hexNumber (digits : List Char) : Nat :=
  digits.foldl (fun n c => n * 16 + (Lexer.hexValue? c).getD 0) 0

/-- The character of a short escape. -/
def shortEscape : Char → Char
  | 'n' => '\n'
  | 'r' => '\r'
  | 't' => '\t'
  | '0' => '\x00'
  | c => c

/-- The first character that an escape or a plain character stands for, and what follows. -/
def oneChar : List Char → Option (Char × List Char)
  | '\\' :: 'x' :: a :: b :: rest => some (Char.ofNat (hexNumber [a, b]), rest)
  | '\\' :: 'u' :: '\x7b' :: rest =>
      let digits := rest.takeWhile (· != '\x7d')
      some (Char.ofNat (hexNumber (digits.filter (· != '_'))), rest.drop (digits.length + 1))
  | '\\' :: c :: rest => some (shortEscape c, rest)
  | '\r' :: '\n' :: rest => some ('\n', rest)
  | c :: rest => some (c, rest)
  | [] => none

/-- Whether a line continuation swallows a character. -/
def isSwallowed (c : Char) : Bool := c == ' ' || c == '\t' || c == '\n' || c == '\r'

/-- The characters of a quoted string up to its closing quote. -/
def cookedValue : Nat → List Char → List Char
  | 0, _ => []
  | _, [] => []
  | _, '"' :: _ => []
  | fuel + 1, '\\' :: '\n' :: rest => cookedValue fuel (rest.dropWhile isSwallowed)
  | fuel + 1, '\\' :: '\r' :: rest => cookedValue fuel (rest.dropWhile isSwallowed)
  | fuel + 1, s =>
      match oneChar s with
      | some (c, rest) => c :: cookedValue fuel rest
      | none => []

/-- The characters of a raw string: those between the outermost quotes. -/
def rawValue (s : List Char) : List Char :=
  let marks := (s.takeWhile (· == '#')).length
  let body := s.drop (marks + 1)
  let closing := List.replicate marks '#'
  let rec upTo : List Char → List Char
    | [] => []
    | '"' :: rest => if closing.isPrefixOf rest then [] else '"' :: upTo rest
    | c :: rest => c :: upTo rest
  upTo body

/-- The string that a string literal stands for. -/
def stringValue (text : String) : String :=
  match text.toList with
  | 'r' :: rest => String.ofList (rawValue rest)
  | '"' :: rest => String.ofList (cookedValue rest.length rest)
  | _ => ""

/-- The character that a character literal stands for. -/
def charValue? (text : String) : Option Char :=
  match text.toList with
  | '\'' :: rest => (oneChar rest).map Prod.fst
  | _ => none

/-! ## Numbers -/

/-- The digits of a number in a base, up to its suffix, as a number. -/
def digitsValue (base : Nat) : List Char → Nat → Nat
  | [], n => n
  | '_' :: rest, n => digitsValue base rest n
  | c :: rest, n =>
      match Lexer.hexValue? c with
      | some d => if d < base then digitsValue base rest (n * base + d) else n
      | none => n

/-- The number that an integer literal stands for. -/
def intValue (text : String) : Nat :=
  match text.toList with
  | '0' :: 'x' :: rest => digitsValue 16 rest 0
  | '0' :: 'o' :: rest => digitsValue 8 rest 0
  | '0' :: 'b' :: rest => digitsValue 2 rest 0
  | s => digitsValue 10 s 0

/-- The suffix of an integer literal. -/
def intSuffix (text : String) : String := String.ofList ((Lexer.intDigits text.toList).getD [])

/-- Why an integer literal is no index. -/
inductive IndexFault where
  | suffixed
  | negative
  | tooLarge
deriving DecidableEq, Repr

/-- The fault in words. -/
def IndexFault.message : IndexFault → String
  | suffixed => "expected unsuffixed integer"
  | negative => "invalid digit found in string"
  | tooLarge => "number too large to fit in target type"

/-- The index that an integer literal stands for: a number of 32 bits without sign or suffix. -/
def index (text : String) : Except IndexFault Nat :=
  let (isNegative, digits) :=
    match text.toList with
    | '-' :: rest => (true, String.ofList rest)
    | _ => (false, text)
  if intSuffix digits != "" then .error .suffixed
  else if isNegative then .error .negative
  else if intValue digits < Nat.pow 2 32 then .ok (intValue digits)
  else .error .tooLarge

/-- The number that a decimal literal stands for: digits and a power of ten. -/
def decimalValue (text : String) : Nat × Int :=
  let s := text.toList.filter (· != '_')
  let whole := s.takeWhile Lexer.isDigit
  let rest := s.drop whole.length
  let (fraction, tail) :=
    match rest with
    | '.' :: more =>
        let digits := more.takeWhile Lexer.isDigit
        (digits, more.drop digits.length)
    | _ => ([], rest)
  let power : Int :=
    match tail with
    | 'e' :: '-' :: more | 'E' :: '-' :: more => -(digitsValue 10 more 0 : Int)
    | 'e' :: '+' :: more | 'E' :: '+' :: more => (digitsValue 10 more 0 : Int)
    | 'e' :: more | 'E' :: more => (digitsValue 10 more 0 : Int)
    | _ => 0
  (digitsValue 10 (whole ++ fraction) 0, power - fraction.length)

end LiteralText

end KeyedCoding
