import KeyedCoding.Source.Lexer

/-!
# Parsing tokens

A parser reads tokens from the front of its input or refuses them.  It does not know what stands
around its tokens: a refusal at their end gets its place from what runs the parser, so where that
place lies never decides whether tokens are accepted.  Groups are parsed on their own; what a
group's parser leaves over is remembered and reported once the whole text has been accepted.
Parsers of grammar give back the tokens they read, with each operator of the grammar as one joint
unit.
-/

namespace KeyedCoding

/-- Why and where source text is refused. -/
structure Failure where
  message : String
  span : Span
deriving DecidableEq, Repr

/-- Why a parser refuses its tokens, and where: nowhere if it is at their end. -/
structure Refusal where
  message : String
  span : Option Span

namespace Refusal

/-- The failure of a refusal; the end of the tokens is reported at `scope`. -/
def placed (scope : Span) (r : Refusal) : Failure := ⟨r.message, r.span.getD scope⟩

/-- The refusal with a place; the end of the tokens is reported at `scope`. -/
def settled (scope : Span) (r : Refusal) : Refusal := { r with span := some (r.span.getD scope) }

end Refusal

/-- The tokens still to be read. -/
structure Input where
  tokens : Tokens
  /-- The first token that the parser of a group left over. -/
  stray : Option Failure

/-- Parsing changes the input or fails. -/
abbrev Parser (α : Type) := StateT Input (Except Refusal) α

namespace Delimiter

/-- The pair of brackets as messages name it. -/
def described : Delimiter → String
  | paren => "parentheses"
  | bracket => "square brackets"
  | brace => "curly braces"

/-- The closing bracket as messages show it. -/
def closer : Delimiter → String
  | paren => "`)`"
  | bracket => "`]`"
  | brace => "`\x7d`"

end Delimiter

/-- Words that are no identifiers unless they are written raw. -/
def keywords : List String :=
  ["_", "abstract", "as", "async", "await", "become", "box", "break", "const", "continue", "crate",
    "do", "dyn", "else", "enum", "extern", "false", "final", "fn", "for", "if", "impl", "in",
    "let", "loop", "macro", "match", "mod", "move", "mut", "override", "priv", "pub", "ref",
    "return", "Self", "self", "static", "struct", "super", "trait", "true", "try", "type",
    "typeof", "unsafe", "unsized", "use", "virtual", "where", "while", "yield"]

/-- Whether a word can name something. -/
def isName (word : String) : Bool := !keywords.contains word

namespace Tokens

/-- Whether the tokens start with an operator: every character but the last is joint. -/
def startsOp : List Char → Tokens → Bool
  | [c], .punct d _ _ :: _ => c == d
  | c :: more, .punct d joint _ :: rest => c == d && joint && startsOp more rest
  | _, _ => false

/-- Whether the tokens start with a lifetime. -/
def startsLifetime : Tokens → Bool
  | .punct '\'' true _ :: .ident _ _ :: _ => true
  | _ => false

/-- The tokens behind the first one; a lifetime counts as one token. -/
def behind : Tokens → Tokens
  | .punct '\'' true _ :: .ident _ _ :: rest => rest
  | _ :: rest => rest
  | [] => []

/-- Whether the tokens start with a word. -/
def startsWord (word : String) : Tokens → Bool
  | .ident name _ :: _ => name == word
  | _ => false

/-- Whether the tokens start with any word. -/
def startsAnyWord : Tokens → Bool
  | .ident _ _ :: _ => true
  | _ => false

/-- Whether the tokens start with a word that can name something. -/
def startsName : Tokens → Bool
  | .ident name _ :: _ => isName name
  | _ => false

/-- Whether the tokens start with a group. -/
def startsGroup (delimiter : Delimiter) : Tokens → Bool
  | .group d _ _ :: _ => d == delimiter
  | _ => false

/-- Whether the tokens start with a literal; a minus sign may stand before a number. -/
def startsLiteral : Tokens → Bool
  | .literal _ _ :: _ => true
  | .ident name _ :: _ => name == "true" || name == "false"
  | .punct '-' _ _ :: .literal text _ :: _ => text.toList.head?.any Lexer.isDigit
  | _ => false

end Tokens

/-- A condition on the tokens ahead, with its name in messages. -/
structure Peek where
  described : String
  holds : Tokens → Bool

namespace Peek

/-- An operator, shown in backticks. -/
def op (text : String) : Peek := ⟨"`" ++ text ++ "`", Tokens.startsOp text.toList⟩

/-- A word of the language. -/
def word (text : String) : Peek := ⟨"`" ++ text ++ "`", Tokens.startsWord text⟩

/-- A name. -/
def name : Peek := ⟨"identifier", Tokens.startsName⟩

/-- A group. -/
def group (d : Delimiter) : Peek := ⟨d.described, Tokens.startsGroup d⟩

/-- A lifetime. -/
def lifetime : Peek := ⟨"lifetime", Tokens.startsLifetime⟩

/-- A literal. -/
def literal : Peek := ⟨"literal", Tokens.startsLiteral⟩

end Peek

namespace Parser

variable {α β : Type}

/-! ## Looking ahead -/

/-- The tokens ahead. -/
def ahead : Parser Tokens := do
  let input ← get
  pure input.tokens

/-- Whether no token is left. -/
def atEnd : Parser Bool := do
  let tokens ← ahead
  pure tokens.isEmpty

/-- Where an error about the next token points; nowhere at the end. -/
def here : Parser (Option Span) := do
  let tokens ← ahead
  pure (tokens.head?.map Token.openSpan)

/-- Whether a condition holds of the tokens ahead. -/
def peek (condition : Peek) : Parser Bool := do
  let tokens ← ahead
  pure (condition.holds tokens)

/-- Whether an operator is ahead. -/
def peekOp (text : String) : Parser Bool := peek (.op text)

/-- Whether a word is ahead. -/
def peekWord (text : String) : Parser Bool := peek (.word text)

/-- Whether a group is ahead. -/
def peekGroup (d : Delimiter) : Parser Bool := peek (.group d)

/-- Whether a condition holds behind the next token. -/
def peekSecond (condition : Peek) : Parser Bool := do
  let tokens ← ahead
  pure (condition.holds tokens.behind)

/-! ## Failing -/

/-- Fail at a span. -/
def failAt (span : Span) (message : String) : Parser α := throw ⟨message, some span⟩

/-- Fail at the next token; at the end the message says so. -/
def failHere (message : String) : Parser α := do
  let ended ← atEnd
  let span ← here
  throw ⟨if ended then "unexpected end of input, " ++ message else message, span⟩

/-- Fail because the next token has no place here. -/
def unexpected : Parser α := do
  match ← ahead with
  | [] => throw ⟨"unexpected end of input", none⟩
  | t :: _ => failAt t.span "unexpected token"

/-- The alternatives of a failed choice in words. -/
def expectation : List String → String
  | [a] => "expected " ++ a
  | [a, b] => "expected " ++ a ++ " or " ++ b
  | many => "expected one of: " ++ ", ".intercalate many

/-- Fail because none of the alternatives can be read.  An alternative that is ahead, but is refused
for what follows it, is not named. -/
def expected (alternatives : List Peek) : Parser α := do
  let tokens ← ahead
  let missing := alternatives.filter fun p => !p.holds tokens
  if missing.isEmpty then unexpected
  else failHere (expectation (missing.map Peek.described))

/-- The result of a parser if it succeeds; otherwise nothing is read. -/
def attempt (p : Parser α) : Parser (Option α) := do
  let input ← get
  match p input with
  | .ok (a, rest) => do
      set rest
      pure (some a)
  | .error _ => pure none

/-- The tokens read since an earlier place of the input, as they were written. -/
def since (start : Input) : Parser Tokens := do
  let tokens ← ahead
  pure (start.tokens.take (start.tokens.length - tokens.length))

/-! ## Single tokens -/

/-- The next token, whatever it is. -/
def anyToken : Parser Token := do
  let input ← get
  match input.tokens with
  | t :: rest => do
      set { input with tokens := rest }
      pure t
  | [] => failHere "expected token tree"

/-- The characters of an operator as joint tokens, and the tokens behind it. -/
def splitOp : List Char → Tokens → Option (Tokens × Tokens)
  | [c], .punct d _ s :: rest => if c == d then some ([.punct d false s], rest) else none
  | c :: more, .punct d joint s :: rest =>
      if c == d && joint then
        (splitOp more rest).map fun (tail, behind) => (.punct d true s :: tail, behind)
      else none
  | _, _ => none

/-- An operator of the grammar. -/
def op (text : String) : Parser Tokens := do
  let input ← get
  match splitOp text.toList input.tokens with
  | some (tokens, rest) => do
      set { input with tokens := rest }
      pure tokens
  | none => do
      let span ← here
      throw ⟨"expected `" ++ text ++ "`", span⟩

/-- An operator if it is ahead. -/
def opIf (text : String) : Parser Tokens := do
  if ← peekOp text then op text else pure []

/-- A word of the language. -/
def word (text : String) : Parser Tokens := do
  if ← peekWord text then do
    let t ← anyToken
    pure [t]
  else failHere ("expected `" ++ text ++ "`")

/-- A word if it is ahead. -/
def wordIf (text : String) : Parser Tokens := do
  if ← peekWord text then word text else pure []

/-- A name. -/
def name : Parser Token := do
  let tokens ← ahead
  match tokens with
  | .ident word _ :: _ =>
      if isName word then anyToken
      else failHere ("expected identifier, found keyword `" ++ word ++ "`")
  | _ => failHere "expected identifier"

/-- A word of any kind. -/
def anyWord : Parser Token := do
  if (← ahead).startsAnyWord then anyToken else failHere "expected ident"

/-- A lifetime. -/
def lifetime : Parser Tokens := do
  let input ← get
  match input.tokens with
  | .punct '\'' true s :: .ident n t :: rest => do
      set { input with tokens := rest }
      pure [.punct '\'' true s, .ident n t]
  | _ => failHere "expected lifetime"

/-- A lifetime if one is ahead. -/
def lifetimeIf : Parser Tokens := do
  if ← peek .lifetime then lifetime else pure []

/-- A literal as one token; the minus sign of a number is part of it. -/
def literal : Parser Token := do
  let input ← get
  match input.tokens with
  | .literal text s :: rest => do
      set { input with tokens := rest }
      pure (.literal text s)
  | .ident word s :: rest =>
      if word == "true" || word == "false" then do
        set { input with tokens := rest }
        pure (.ident word s)
      else failHere "expected literal"
  | .punct '-' _ s :: .literal text t :: rest =>
      if text.toList.head?.any Lexer.isDigit then do
        set { input with tokens := rest }
        pure (.literal ("-" ++ text) (s.join t))
      else failHere "expected literal"
  | _ => failHere "expected literal"

/-! ## Groups -/

/-- Run a parser on the content of a group and note what it leaves over. -/
def within (d : Delimiter) (body : Tokens) (span : Span) (p : Parser α) : Parser α := do
  let input ← get
  let (a, inner) ← (p ⟨body, input.stray⟩).mapError (Refusal.settled span.closing)
  let leftover := inner.tokens.head?.map fun t =>
    (⟨"unexpected token, expected " ++ d.closer, t.span⟩ : Failure)
  set { input with stray := inner.stray <|> leftover }
  pure a

/-- The content of a group, not looked into, and the span of the group. -/
def verbatim (d : Delimiter) : Parser (Tokens × Span) := do
  let input ← get
  match input.tokens with
  | .group e body span :: rest =>
      if e = d then do
        set { input with tokens := rest }
        pure (body, span)
      else failHere ("expected " ++ d.described)
  | _ => failHere ("expected " ++ d.described)

/-- Parse a group with a parser for its content. -/
def group (d : Delimiter) (p : Parser α) : Parser (α × Span) := do
  let (body, span) ← verbatim d
  let a ← within d body span p
  pure (a, span)

/-- A group whose content is given back as tokens. -/
def grouped (d : Delimiter) (p : Parser Tokens) : Parser Tokens := do
  let (body, span) ← group d p
  pure [.group d body span]

/-- A group of any kind, kept as it was written. -/
def anyGroup : Parser Token := do
  match ← ahead with
  | .group _ _ _ :: _ => anyToken
  | _ => failHere "expected delimiter"

/-! ## Repetition -/

/-- Repeat a parser until it has nothing more to give, at most `bound` times. -/
def iterate (p : Parser (Option α)) : Nat → Parser (List α)
  | 0 => pure []
  | bound + 1 => do
      match ← p with
      | none => pure []
      | some a => do
          let rest ← iterate p bound
          pure (a :: rest)

/-- Repeat a parser until it has nothing more to give; every round reads a token. -/
def many (p : Parser (Option α)) : Parser (List α) := do
  let tokens ← ahead
  iterate p (tokens.length + 1)

/-- Repeat a parser of tokens as long as a condition holds before it. -/
def manyWhile (condition : Parser Bool) (p : Parser Tokens) : Parser Tokens := do
  let parts ← many do
    if ← condition then do
      let t ← p
      pure (some t)
    else pure none
  pure parts.flatten

/-- Items up to a stop, each with the divider behind it; a divider may stand behind the last. -/
def dividedUntil (stop : Parser Bool) (divider : String) (p : Parser α) :
    Parser (List (α × Tokens)) := do
  many do
    if ← stop then pure none
    else do
      let a ← p
      if ← stop then pure (some (a, []))
      else do
        let comma ← op divider
        pure (some (a, comma))

/-- Items to the end, divided by commas. -/
def terminated (p : Parser α) : Parser (List (α × Tokens)) := dividedUntil atEnd "," p

/-- Items to the end, divided by commas, as tokens. -/
def terminatedTokens (p : Parser Tokens) : Parser Tokens := do
  let parts ← terminated p
  pure (parts.flatMap fun (t, comma) => t ++ comma)

/-- Items as long as a divider follows and nothing stops them, at most `bound` of them. -/
def joinedUpTo (stop : Parser Bool) (divider : String) (p : Parser Tokens) : Nat → Parser Tokens
  | 0 => pure []
  | bound + 1 => do
      if ← stop then pure []
      else do
        let t ← p
        if ← peekOp divider then do
          let d ← op divider
          let rest ← joinedUpTo stop divider p bound
          pure (t ++ d ++ rest)
        else pure t

/-- Items as long as a divider follows and nothing stops them. -/
def joined (stop : Parser Bool) (divider : String) (p : Parser Tokens) : Parser Tokens := do
  let tokens ← ahead
  joinedUpTo stop divider p (tokens.length + 1)

/-! ## Running -/

/-- Run a parser on all of the tokens; `scope` is where their end is reported. -/
def run (p : Parser α) (scope : Span) (tokens : Tokens) : Except Failure α := do
  let (a, input) ← (p ⟨tokens, none⟩).mapError (Refusal.placed scope)
  match input.stray, input.tokens with
  | some failure, _ => .error failure
  | none, t :: _ => .error ⟨"unexpected token", t.span⟩
  | none, [] => .ok a

end Parser

end KeyedCoding
