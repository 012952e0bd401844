import KeyedCoding.Source.Token
import KeyedCoding.Text.Identifier
import KeyedCoding.Text.Quoted

/-!
# From text to tokens

Literals are tried before punctuation and punctuation before identifiers.  Comments vanish, except
that a documentation comment stands for the attribute that holds its text, and that parentheses
around one certain comment are the mark of a literal that could not be read.  The functions on
characters answer with the characters behind what they accept, or with nothing.
-/

namespace KeyedCoding

namespace Lexer

/-! ## Characters -/

/-- Whether a character divides tokens and is otherwise ignored. -/
def isBlank (c : Char) : Bool :=
  let n := c.toNat
  n == 0x20 || (0x09 ≤ n && n ≤ 0x0D) || n == 0x85 || n == 0xA0 || n == 0x1680
    || (0x2000 ≤ n && n ≤ 0x200A) || n == 0x200E || n == 0x200F || n == 0x2028 || n == 0x2029
    || n == 0x202F || n == 0x205F || n == 0x3000

/-- Whether a character is punctuation. -/
def isPunct (c : Char) : Bool :=
  "~!@#$%^&*-=+|;:,<.>/?'".toList.contains c

/-- The value of a hexadecimal digit. -/
def hexValue? (c : Char) : Option Nat :=
  if '0' ≤ c ∧ c ≤ '9' then some (c.toNat - 48)
  else if 'a' ≤ c ∧ c ≤ 'f' then some (c.toNat - 87)
  else if 'A' ≤ c ∧ c ≤ 'F' then some (c.toNat - 55)
  else none

/-- What stands behind `text`, if the characters start with it. -/
def drop? (text : String) (s : List Char) : Option (List Char) :=
  if text.toList.isPrefixOf s then some (s.drop text.length) else none

/-- Whether the characters start with `text`. -/
def startsWith (text : String) (s : List Char) : Bool := (drop? text s).isSome

/-! ## Identifiers -/

/-- What stands behind an identifier without raw mark. -/
def plainIdent : List Char → Option (List Char)
  | [] => none
  | c :: rest =>
      if Identifier.isStart c then some (rest.dropWhile Identifier.isContinue) else none

/-- Words that have no raw form. -/
def noRaw : List String := ["_", "super", "self", "Self", "crate"]

/-- What stands behind an identifier, raw or not. -/
def anyIdent (s : List Char) : Option (List Char) :=
  match drop? "r#" s with
  | none => plainIdent s
  | some body => do
      let rest ← plainIdent body
      let name := String.ofList (body.take (body.length - rest.length))
      if noRaw.contains name then none else some rest

/-- Starts of literals that must not be read as identifiers. -/
def literalStarts : List String :=
  ["r\"", "r#\"", "r##", "b\"", "b'", "br\"", "br#", "c\"", "cr\"", "cr#"]

/-- What stands behind an identifier token. -/
def ident (s : List Char) : Option (List Char) :=
  if literalStarts.any fun start => startsWith start s then none else anyIdent s

/-! ## Literals -/

/-- What stands behind a suffix, if there is one. -/
def suffix (s : List Char) : List Char := (plainIdent s).getD s

/-- What stands behind the two digits of a byte escape; `ascii` limits it to seven bits, and only
`zero` admits the byte zero. -/
def byteEscape (ascii zero : Bool) : List Char → Option (List Char)
  | a :: b :: rest => do
      let high ← hexValue? a
      let low ← hexValue? b
      if (ascii && 8 ≤ high) || (!zero && high = 0 && low = 0) then none else some rest
  | _ => none

/-- Whether a number is a code point of a character. -/
def isScalar (n : Nat) : Bool := n < 0xD800 || (0xDFFF < n && n < 0x110000)

/-- Digits of a code point escape, behind its opening brace: the code point and what stands behind
the closing brace. -/
def codeDigits : List Char → Nat → Nat → Option (Nat × List Char)
  | [], _, _ => none
  | c :: rest, value, count =>
      match hexValue? c with
      | some d => if count = 6 then none else codeDigits rest (value * 16 + d) (count + 1)
      | none =>
          if c = '_' ∧ 0 < count then codeDigits rest value count
          else if c = '\x7d' ∧ 0 < count then (if isScalar value then some (value, rest) else none)
          else none

/-- What stands behind a code point escape, from its opening brace on; only `zero` admits the code
point zero. -/
def codeEscape (zero : Bool) : List Char → Option (List Char)
  | '\x7b' :: rest => do
      let (value, behind) ← codeDigits rest 0 0
      if !zero && value = 0 then none else some behind
  | _ => none

/-- Which escapes a quoted literal admits beside the common ones. -/
structure Escapes where
  ascii : Bool
  code : Bool
  zero : Bool

/-- What stands behind the blanks that a line continuation swallows. -/
def continued : List Char → Bool → Option (List Char)
  | s, true =>
      match s with
      | '\n' :: rest => continued rest false
      | _ => none
  | [], false => none
  | c :: rest, false =>
      if c = '\r' then continued rest true
      else if c = ' ' ∨ c = '\t' ∨ c = '\n' then continued rest false
      else some (c :: rest)
termination_by s _ => s.length

/-- What stands behind a quoted literal, behind its opening quote. -/
def cooked (e : Escapes) (byteOnly : Bool) : Nat → List Char → Option (List Char)
  | 0, _ => none
  | fuel + 1, s =>
      match s with
      | [] => none
      | '"' :: rest => some (suffix rest)
      | '\r' :: '\n' :: rest => cooked e byteOnly fuel rest
      | '\r' :: _ => none
      | '\\' :: 'x' :: rest => (byteEscape e.ascii e.zero rest).bind (cooked e byteOnly fuel)
      | '\\' :: 'u' :: rest =>
          if e.code then (codeEscape e.zero rest).bind (cooked e byteOnly fuel) else none
      | '\\' :: '\n' :: rest => (continued rest false).bind (cooked e byteOnly fuel)
      | '\\' :: '\r' :: rest => (continued rest true).bind (cooked e byteOnly fuel)
      | '\\' :: c :: rest =>
          if c = 'n' ∨ c = 'r' ∨ c = 't' ∨ c = '\\' ∨ c = '\'' ∨ c = '"' ∨ (c = '0' ∧ e.zero) then
            cooked e byteOnly fuel rest
          else none
      | c :: rest =>
          if c = '\\' then none
          else if byteOnly && 128 ≤ c.toNat then none
          else if !e.zero && c = '\x00' then none
          else cooked e byteOnly fuel rest

/-- What stands behind the content of a raw literal closed by a quote and `marks` number signs. -/
def rawContent (marks : Nat) (byteOnly : Bool) (noZero : Bool) : List Char → Option (List Char)
  | [] => none
  | '"' :: rest =>
      if (List.replicate marks '#').isPrefixOf rest then some (suffix (rest.drop marks))
      else rawContent marks byteOnly noZero rest
  | '\r' :: '\n' :: rest => rawContent marks byteOnly noZero rest
  | '\r' :: _ => none
  | c :: rest =>
      if byteOnly && 128 ≤ c.toNat then none
      else if noZero && c = '\x00' then none
      else rawContent marks byteOnly noZero rest

/-- What stands behind a raw literal, behind its letters. -/
def raw (byteOnly noZero : Bool) (s : List Char) : Option (List Char) :=
  let marks := (s.takeWhile (· == '#')).length
  match s.drop marks with
  | '"' :: rest => if marks ≤ 255 then rawContent marks byteOnly noZero rest else none
  | _ => none

/-- What stands behind a string literal. -/
def stringLiteral (s : List Char) : Option (List Char) :=
  match s with
  | '"' :: rest => cooked ⟨true, true, true⟩ false s.length rest
  | 'r' :: rest => raw false false rest
  | _ => none

/-- What stands behind a byte string literal. -/
def byteStringLiteral (s : List Char) : Option (List Char) :=
  match s with
  | 'b' :: '"' :: rest => cooked ⟨false, false, true⟩ true s.length rest
  | 'b' :: 'r' :: rest => raw true false rest
  | _ => none

/-- What stands behind a C string literal. -/
def zeroEndedLiteral (s : List Char) : Option (List Char) :=
  match s with
  | 'c' :: '"' :: rest => cooked ⟨false, true, false⟩ false s.length rest
  | 'c' :: 'r' :: rest => raw false true rest
  | _ => none

/-- What stands behind the closing quote of a character. -/
def closeQuote : List Char → Option (List Char)
  | '\'' :: rest => some (suffix rest)
  | _ => none

/-- What stands behind a byte literal. -/
def byteLiteral (s : List Char) : Option (List Char) :=
  match s with
  | 'b' :: '\'' :: '\\' :: 'x' :: rest => (byteEscape false true rest).bind closeQuote
  | 'b' :: '\'' :: '\\' :: c :: rest =>
      if ['n', 'r', 't', '\\', '0', '\'', '"'].contains c then closeQuote rest else none
  | 'b' :: '\'' :: c :: rest => if c.toNat < 128 ∧ c ≠ '\\' then closeQuote rest else none
  | _ => none

/-- What stands behind a character literal. -/
def charLiteral (s : List Char) : Option (List Char) :=
  match s with
  | '\'' :: '\\' :: 'x' :: rest => (byteEscape true true rest).bind closeQuote
  | '\'' :: '\\' :: 'u' :: rest => (codeEscape true rest).bind closeQuote
  | '\'' :: '\\' :: c :: rest =>
      if ['n', 'r', 't', '\\', '0', '\'', '"'].contains c then closeQuote rest else none
  | '\'' :: c :: rest => if c ≠ '\\' then closeQuote rest else none
  | _ => none

/-- What stands behind a number, unless an identifier goes on there. -/
def wordBreak : List Char → Option (List Char)
  | [] => some []
  | c :: rest => if Identifier.isContinue c then none else some (c :: rest)

/-- What stands behind the suffix of a number. -/
def numberSuffix (s : List Char) : Option (List Char) := wordBreak (suffix s)

/-- Whether a character is a decimal digit. -/
def isDigit (c : Char) : Bool := '0' ≤ c && c ≤ '9'

/-- What stands behind the digits and underscores ahead. -/
def skipDigits (s : List Char) : List Char := s.dropWhile fun c => isDigit c || c == '_'

/-- The exponent of a float behind its letter: what stands behind it, if it has a digit.  A second
sign behind a first one without digits is no exponent. -/
def exponent : List Char → Bool → Bool → Option (List Char)
  | [], _, hasDigit => if hasDigit then some [] else none
  | c :: rest, hasSign, hasDigit =>
      if c = '+' ∨ c = '-' then
        if hasDigit then some (c :: rest)
        else if hasSign then none
        else exponent rest true false
      else if isDigit c then exponent rest hasSign true
      else if c = '_' then exponent rest hasSign hasDigit
      else if hasDigit then some (c :: rest)
      else none

/-- What stands behind the digits of a float: it has a point or an exponent. -/
def floatDigits (s : List Char) : Option (List Char) :=
  match s with
  | [] => none
  | first :: _ =>
      if !isDigit first then none
      else
        let whole := skipDigits s
        match whole with
        | '.' :: rest =>
            if rest.head?.any fun c => c == '.' || Identifier.isStart c then none
            else
              let fraction := skipDigits rest
              match fraction with
              | 'e' :: more | 'E' :: more => some ((exponent more false false).getD fraction)
              | _ => some fraction
        | 'e' :: more | 'E' :: more => exponent more false false
        | _ => none

/-- What stands behind a float literal. -/
def floatLiteral (s : List Char) : Option (List Char) := (floatDigits s).bind numberSuffix

/-- What stands behind digits of a base; a letter past the base ends them, a digit past it is
refused. -/
def baseDigits (base : Nat) : List Char → Bool → Option (List Char)
  | [], found => if found then some [] else none
  | c :: rest, found =>
      if c = '_' then (if !found && base == 10 then none else baseDigits base rest found)
      else
        match hexValue? c with
        | some d =>
            if d < base then baseDigits base rest true
            else if isDigit c then none
            else if found then some (c :: rest) else none
        | none => if found then some (c :: rest) else none

/-- What stands behind the digits of an integer. -/
def intDigits (s : List Char) : Option (List Char) :=
  match s with
  | '0' :: 'x' :: rest => baseDigits 16 rest false
  | '0' :: 'o' :: rest => baseDigits 8 rest false
  | '0' :: 'b' :: rest => baseDigits 2 rest false
  | _ => baseDigits 10 s false

/-- What stands behind an integer literal; it starts with a decimal digit. -/
def intLiteral (s : List Char) : Option (List Char) :=
  if s.head?.any isDigit then (intDigits s).bind numberSuffix else none

/-- What stands behind a literal. -/
def literal (s : List Char) : Option (List Char) :=
  stringLiteral s
    <|> byteStringLiteral s
    <|> zeroEndedLiteral s
    <|> byteLiteral s
    <|> charLiteral s
    <|> floatLiteral s
    <|> intLiteral s

/-- The text that stands for a literal that could not be read. -/
def unreadable : String := "(/*ERROR*/)"

/-! ## Punctuation -/

/-- The punctuation character at the front, which starts no comment. -/
def punctChar : List Char → Option (Char × List Char)
  | [] => none
  | c :: rest =>
      if startsWith "//" (c :: rest) || startsWith "/*" (c :: rest) then none
      else if isPunct c then some (c, rest)
      else none

/-- A punctuation character, whether it is joint, and what stands behind it.  A quote must start a
lifetime. -/
def punct (s : List Char) : Option (Char × Bool × List Char) := do
  let (c, rest) ← punctChar s
  if c = '\'' then
    let behind ← anyIdent rest
    if startsWith "'" behind || (startsWith "#" behind && !startsWith "r#" rest) then none
    else some (c, true, rest)
  else some (c, (punctChar rest).isSome, rest)

/-! ## Comments -/

/-- The text of a line and what stands behind it. -/
def line : List Char → List Char × List Char
  | [] => ([], [])
  | '\n' :: rest => ([], '\n' :: rest)
  | '\r' :: '\n' :: rest => ([], '\n' :: rest)
  | c :: rest =>
      let (text, behind) := line rest
      (c :: text, behind)

/-- What stands behind a block comment whose nesting depth is `depth`. -/
def block : List Char → Nat → Option (List Char)
  | '/' :: '*' :: rest, depth => block rest (depth + 1)
  | '*' :: '/' :: rest, depth => if depth ≤ 1 then some rest else block rest (depth - 1)
  | _ :: rest, depth => block rest depth
  | [], _ => none

/-- What stands behind a plain comment. -/
def comment (s : List Char) : Option (List Char) :=
  if startsWith "//" s && (!startsWith "///" s || startsWith "////" s) && !startsWith "//!" s then
    some (line s).2
  else if startsWith "/**/" s then some (s.drop 4)
  else if startsWith "/*" s && (!startsWith "/**" s || startsWith "/***" s)
      && !startsWith "/*!" s then block s 0
  else none

/-- The text of a block comment between its marks, and what stands behind it. -/
def blockText (s : List Char) : Option (List Char × List Char) := do
  let rest ← block s 0
  let whole := s.take (s.length - rest.length)
  some ((whole.drop 3).take (whole.length - 5), rest)

/-- Text, whether it documents what it stands in, and what stands behind it. -/
def docText (s : List Char) : Option (List Char × Bool × List Char) :=
  if startsWith "//!" s then
    let (text, rest) := line (s.drop 3)
    some (text, true, rest)
  else if startsWith "/*!" s then (blockText s).map fun (text, rest) => (text, true, rest)
  else if startsWith "///" s then
    if startsWith "////" s then none
    else
      let (text, rest) := line (s.drop 3)
      some (text, false, rest)
  else if startsWith "/**" s && !startsWith "/***" s then
    (blockText s).map fun (text, rest) => (text, false, rest)
  else none

/-- Whether every carriage return is part of a line end. -/
def noBareReturn : List Char → Bool
  | [] => true
  | '\r' :: '\n' :: rest => noBareReturn rest
  | '\r' :: _ => false
  | _ :: rest => noBareReturn rest

/-- The attribute that a documentation comment stands for. -/
def docTokens (text : List Char) (inner : Bool) (span : Span) : Tokens :=
  let body : Tokens :=
    [.ident "doc" span, .punct '=' false span, .literal (Quoted.literal (String.ofList text)) span]
  [.punct '#' false span] ++ (if inner then [.punct '!' false span] else [])
    ++ [.group .bracket body span]

/-! ## Forests -/

/-- The position behind characters. -/
def advance (p : Position) : List Char → Position
  | [] => p
  | c :: rest => advance (if c = '\n' then ⟨p.line + 1, 0⟩ else ⟨p.line, p.column + 1⟩) rest

/-- What surrounds the tokens being read: open groups, innermost first, each with the tokens before
it in reverse. -/
structure Frame where
  delimiter : Delimiter
  start : Position
  before : Tokens

/-- The delimiter that a character opens. -/
def opens? : Char → Option Delimiter
  | '(' => some .paren
  | '[' => some .bracket
  | '\x7b' => some .brace
  | _ => none

/-- The delimiter that a character closes. -/
def closes? : Char → Option Delimiter
  | ')' => some .paren
  | ']' => some .bracket
  | '\x7d' => some .brace
  | _ => none

/-- The characters between two places of the text. -/
def between (s rest : List Char) : List Char := s.take (s.length - rest.length)

/-- Read tokens to the end: `done` holds the tokens of the innermost open group in reverse. -/
def forest : Nat → List Char → Position → List Frame → Tokens → Option Tokens
  | 0, _, _, _, _ => none
  | _ + 1, [], _, frames, done => if frames.isEmpty then some done.reverse else none
  | fuel + 1, c :: tail, p, frames, done =>
      let s := c :: tail
      let next := fun (rest : List Char) => advance p (between s rest)
      match comment s with
      | some rest => forest fuel rest (next rest) frames done
      | none =>
          if isBlank c then forest fuel tail (next tail) frames done
          else
            match docText s with
            | some (text, inner, rest) =>
                if noBareReturn text then
                  let made := docTokens text inner ⟨p, next rest⟩
                  forest fuel rest (next rest) frames (made.reverse ++ done)
                else none
            | none =>
                match (if startsWith unreadable s then none else opens? c), closes? c with
                | some d, _ => forest fuel tail (next tail) (⟨d, p, done⟩ :: frames) []
                | none, some d =>
                    match frames with
                    | [] => none
                    | frame :: outer =>
                        if frame.delimiter = d then
                          let made := Token.group d done.reverse ⟨frame.start, next tail⟩
                          forest fuel tail (next tail) outer (made :: frame.before)
                        else none
                | none, none =>
                    match literal s with
                    | some rest =>
                        let made := Token.literal (String.ofList (between s rest)) ⟨p, next rest⟩
                        forest fuel rest (next rest) frames (made :: done)
                    | none =>
                        match punct s with
                        | some (char, joint, rest) =>
                            forest fuel rest (next rest) frames
                              (.punct char joint ⟨p, next rest⟩ :: done)
                        | none =>
                            match ident s with
                            | some rest =>
                                let name := String.ofList (between s rest)
                                forest fuel rest (next rest) frames
                                  (.ident name ⟨p, next rest⟩ :: done)
                            | none => do
                                let rest ← drop? unreadable s
                                forest fuel rest (next rest) frames
                                  (.literal unreadable ⟨p, next rest⟩ :: done)

/-- The tokens of a text. -/
def tokens (text : String) : Option Tokens :=
  let chars := text.toList
  match chars with
  | '\ufeff' :: rest => forest (rest.length + 1) rest ⟨1, 1⟩ [] []
  | _ => forest (chars.length + 1) chars ⟨1, 0⟩ [] []

end Lexer

end KeyedCoding
