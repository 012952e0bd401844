import KeyedCoding.Source.Statement

/-!
# The language

The levels of the grammar tied together, and what the rest of the library reads from source text:
items, attribute lists, types, expressions and paths.
-/

namespace KeyedCoding

namespace Grammar

/-- One more level of the grammar. -/
def deepen (g : Grammar) : Grammar where
  type := typeStep g
  bound := boundTokens g false
  binding := bindingStep g
  record := recordStep g
  expression := expressionStep g
  operand := operandStep g
  operators := operatorsStep g
  boundedExpression := boundedStep g
  pattern := patternStep g
  alternatives := alternativesStep g
  statements := statementsStep g
  item := itemStep g
  useTree := useTreeStep g

/-- The grammar with a number of levels. -/
def level : Nat → Grammar
  | 0 => empty
  | n + 1 => (level n).deepen

/-- Levels enough for a number of tokens: no token is read after more than a few steps down. -/
def enough (tokens : Tokens) : Grammar := level (8 * Token.sizeAll tokens + 16)

end Grammar

namespace Language

variable {α : Type}

/-- Parse all of the tokens; `scope` is where their end is reported. -/
def parse (p : Grammar → Parser α) (scope : Span) (tokens : Tokens) : Except Failure α :=
  (p (Grammar.enough tokens)).run scope tokens

/-- Parse all of a text. -/
def parseText (p : Grammar → Parser α) (text : String) : Except Failure α :=
  match Lexer.tokens text with
  | some tokens => parse p .made tokens
  | none => .error ⟨"cannot parse string into token stream", .made⟩

/-- An item. -/
def item : Grammar → Parser Item := Grammar.fullItem

/-- The attributes of what would follow them. -/
def attributes : Grammar → Parser (List Attribute) := Grammar.outerAttributes

/-- A type. -/
def type (g : Grammar) : Parser Tokens := do
  let t ← Grammar.typeStep g true
  pure t.tokens

/-- Types divided by commas. -/
def types (g : Grammar) : Parser (List Tokens) := do
  let parts ← Parser.terminated (type g)
  pure (parts.map Prod.fst)

/-- An expression. -/
def expression (g : Grammar) : Parser Expression := Grammar.expressionStep g true

/-- A path. -/
def path (g : Grammar) : Parser Tokens := do
  let p ← Grammar.path g false
  pure p.tokens

/-- A string literal. -/
def string (_ : Grammar) : Parser Token := do
  match ← Parser.ahead with
  | .literal text _ :: _ =>
      if LiteralText.kind text = .string then Parser.anyToken
      else Parser.failHere "expected string literal"
  | _ => Parser.failHere "expected string literal"

end Language

end KeyedCoding
