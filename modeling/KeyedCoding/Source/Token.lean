/-!
# Tokens

Source text as a forest of tokens.  A punctuation character is joint when nothing divides it from
the next one; printing puts a blank between two tokens unless the first is joint.  Every token
knows the span it came from; tokens made by code stand at the start of the text.
-/

namespace KeyedCoding

/-- A place in source text: lines count from one, columns from zero in characters. -/
structure Position where
  line : Nat
  column : Nat
deriving DecidableEq, Repr

/-- A stretch of source text; the end is exclusive. -/
structure Span where
  first : Position
  last : Position
deriving DecidableEq, Repr

namespace Span

/-- The span of everything that code makes. -/
def made : Span := ⟨⟨1, 0⟩, ⟨1, 0⟩⟩

/-- From the start of one span to the end of another. -/
def join (a b : Span) : Span := ⟨a.first, b.last⟩

/-- The first character of a span. -/
def opening (s : Span) : Span :=
  if s.first = s.last then s else ⟨s.first, ⟨s.first.line, s.first.column + 1⟩⟩

/-- The last character of a span. -/
def closing (s : Span) : Span :=
  if s.first = s.last then s else ⟨⟨s.last.line, s.last.column - 1⟩, s.last⟩

end Span

/-- Brackets around a group of tokens. -/
inductive Delimiter where
  | paren
  | bracket
  | brace
deriving DecidableEq, Repr

/-- A token, or a group of tokens between brackets. -/
inductive Token where
  /-- An identifier or keyword; a raw identifier keeps its mark. -/
  | ident (name : String) (span : Span)
  | punct (char : Char) (joint : Bool) (span : Span)
  | literal (text : String) (span : Span)
  | group (delimiter : Delimiter) (body : List Token) (span : Span)
deriving Repr

/-- A sequence of tokens. -/
abbrev Tokens := List Token

namespace Delimiter

/-- Text before the tokens of a group. -/
def openText : Delimiter → String
  | paren => "("
  | bracket => "["
  | brace => "\x7b "

/-- Text behind the tokens of a group. -/
def closeText : Delimiter → String
  | paren => ")"
  | bracket => "]"
  | brace => "\x7d"

end Delimiter

namespace Token

/-- The stretch of text of a token. -/
def span : Token → Span
  | ident _ s => s
  | punct _ _ s => s
  | literal _ s => s
  | group _ _ s => s

/-- Where an error about a token points: at the opening bracket of a group. -/
def openSpan : Token → Span
  | group _ _ s => s.opening
  | t => t.span

/-- The blank behind a token that another token follows. -/
def gap : Token → String
  | punct _ true _ => ""
  | _ => " "

mutual

/-- Text of a token. -/
def text : Token → String
  | ident name _ => name
  | punct c _ _ => String.singleton c
  | literal t _ => t
  | group d [] _ => d.openText ++ d.closeText
  | group d (t :: rest) _ =>
      d.openText ++ textAll (t :: rest) ++ (if d = .brace then " " else "") ++ d.closeText

/-- Text of a sequence of tokens. -/
def textAll : List Token → String
  | [] => ""
  | [t] => text t
  | t :: rest => text t ++ gap t ++ textAll rest

end

mutual

/-- Number of tokens, with those inside groups. -/
def size : Token → Nat
  | group _ body _ => sizeAll body + 1
  | _ => 1

/-- Number of tokens of a sequence. -/
def sizeAll : List Token → Nat
  | [] => 0
  | t :: rest => size t + sizeAll rest

end

end Token

namespace Tokens

/-- Text of a sequence of tokens. -/
def text (tokens : Tokens) : String := Token.textAll tokens

/-- From the first token to the last one. -/
def extent (tokens : Tokens) : Span :=
  match tokens.head?, tokens.getLast? with
  | some a, some b => a.span.join b.span
  | _, _ => .made

end Tokens

/-! ## Tokens made by code -/

namespace Make

/-- An identifier or keyword. -/
def ident (name : String) : Token := .ident name .made

/-- A literal given by its text. -/
def literal (text : String) : Token := .literal text .made

/-- Characters of one operator, each joint with the next. -/
def operatorChars : List Char → Tokens
  | [] => []
  | [c] => [.punct c false .made]
  | c :: rest => .punct c true .made :: operatorChars rest

/-- An operator of one or more characters. -/
def op (text : String) : Tokens := operatorChars text.toList

/-- A lifetime. -/
def lifetime (name : String) : Tokens := [.punct '\'' true .made, ident name]

/-- A group in parentheses. -/
def parens (body : Tokens) : Token := .group .paren body .made

/-- A group in square brackets. -/
def brackets (body : Tokens) : Token := .group .bracket body .made

/-- A group in braces. -/
def braces (body : Tokens) : Token := .group .brace body .made

/-- A path whose segments are divided by double colons, with one in front if `absolute`. -/
def path (absolute : Bool) : List String → Tokens
  | [] => []
  | name :: rest =>
      (if absolute then op "::" else []) ++ ident name :: path true rest

/-- Sequences divided by commas, without one at the end. -/
def commaSeparated : List Tokens → Tokens
  | [] => []
  | [t] => t
  | t :: rest => t ++ op "," ++ commaSeparated rest

/-- Sequences each followed by a comma. -/
def commaTerminated (items : List Tokens) : Tokens :=
  items.flatMap fun t => t ++ op ","

end Make

end KeyedCoding
