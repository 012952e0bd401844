import KeyedCoding.Source.Literal
import KeyedCoding.Source.Parser

/-!
# The parts of the grammar that refer to each other

Types, expressions, patterns, statements and items contain one another.  Each part is written
against a `Grammar`, a record of parsers for all of them one level further down, and the levels are
tied together at the end.
-/

namespace KeyedCoding

/-- What kind of expression was read. -/
inductive ExpressionKind where
  | array | assignment | asyncBlock | awaiting | binary | block | breaking | call | cast | closure
  | constBlock | continuing | field | forLoop | conditional | index | infer | letCondition
  | literal (kind : LiteralKind)
  | loop
  | invocation (braced : Bool)
  | selection | methodCall | paren | path | range | rawAddress | reference | repetition | returning
  | record | propagation | tryBlock | tuple | unary | uncheckedBlock | verbatim | whileLoop
  | yielding
deriving DecidableEq, Repr

/-- An expression as the tokens it is printed with. -/
structure Expression where
  kind : ExpressionKind
  /-- The kind of its leftmost operand: of an assignment, a binary operator or a cast that of its
  left side, of any other expression its own. -/
  head : ExpressionKind
  /-- Whether its outermost operator compares. -/
  compares : Bool
  tokens : Tokens

/-- What has to be known about a type beside its tokens. -/
inductive TypeForm where
  /-- A path; `single` if it is one segment that may also name an associated item. -/
  | path (single : Bool)
  /-- Bounds joined by plus signs, without a keyword before them. -/
  | bounds (count : Nat)
  | other
deriving DecidableEq, Repr

/-- A type as the tokens it is printed with. -/
structure TypeText where
  form : TypeForm
  tokens : Tokens

/-- What has to be known about a pattern beside its tokens. -/
inductive PatternForm where
  /-- A range without its start or its end; the span is that of its dots. -/
  | halfRange (dots : Span)
  /-- A block of constants; `bare` are its tokens without the attributes inside. -/
  | constant (bare : Tokens)
  /-- A pattern kept as it was written. -/
  | verbatim
  | other

/-- A pattern as the tokens it is printed with. -/
structure PatternText where
  form : PatternForm
  tokens : Tokens

/-- A pattern without further structure. -/
def PatternText.plain (tokens : Tokens) : PatternText := ⟨.other, tokens⟩

/-- Parsers for the parts that contain one another. -/
structure Grammar where
  /-- A type; the argument allows bounds joined by plus signs. -/
  type : Bool → Parser TypeText
  /-- A bound of a type; the argument allows the mark of a constant trait. -/
  bound : Bool → Parser Tokens
  /-- A generic parameter that `for` binds in front of a type or closure. -/
  binding : Parser Tokens
  /-- The fields in braces of a record type without a name; they are only checked. -/
  record : Parser Unit
  /-- An expression; the argument allows a record expression where a block may follow. -/
  expression : Bool → Parser Expression
  /-- An expression without binary operators. -/
  operand : Bool → Parser Expression
  /-- Binary operators of at least a precedence behind an expression. -/
  operators : Bool → Nat → Expression → Parser Expression
  /-- An expression that ends behind a block where a statement or an arm may end. -/
  boundedExpression : Parser Expression
  /-- A pattern without alternatives. -/
  pattern : Parser PatternText
  /-- A pattern with alternatives. -/
  alternatives : Parser PatternText
  /-- Statements to the end of a block. -/
  statements : Parser Tokens
  /-- An item. -/
  item : Parser Tokens
  /-- The tree of a use declaration; the argument allows a path from the root inside braces.
  Nothing is given back for a tree that has one. -/
  useTree : Bool → Parser (Option Tokens)

namespace Grammar

/-- The grammar that accepts nothing. -/
def empty : Grammar where
  type := fun _ => Parser.failHere "expected a type"
  bound := fun _ => Parser.failHere "expected a bound"
  binding := Parser.failHere "expected a parameter"
  record := Parser.failHere "expected fields"
  expression := fun _ => Parser.failHere "expected an expression"
  operand := fun _ => Parser.failHere "expected an expression"
  operators := fun _ _ e => pure e
  boundedExpression := Parser.failHere "expected an expression"
  pattern := Parser.failHere "expected a pattern"
  alternatives := Parser.failHere "expected a pattern"
  statements := Parser.failHere "expected a statement"
  item := Parser.failHere "expected an item"
  useTree := fun _ => Parser.failHere "expected a path"

/-- The tokens of a type with bounds. -/
def anyType (g : Grammar) : Parser Tokens := do
  let t ← g.type true
  pure t.tokens

/-- The tokens of a type without bounds. -/
def tightType (g : Grammar) : Parser Tokens := do
  let t ← g.type false
  pure t.tokens

/-- The tokens of a pattern without alternatives. -/
def onePattern (g : Grammar) : Parser Tokens := do
  let p ← g.pattern
  pure p.tokens

/-- The tokens of a pattern with alternatives. -/
def anyPattern (g : Grammar) : Parser Tokens := do
  let p ← g.alternatives
  pure p.tokens

/-- The tokens of an expression. -/
def anyExpression (g : Grammar) : Parser Tokens := do
  let e ← g.expression true
  pure e.tokens

end Grammar

end KeyedCoding
