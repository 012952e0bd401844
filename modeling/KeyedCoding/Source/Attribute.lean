import KeyedCoding.Source.Grammar

/-!
# Attributes

An attribute holds a path, alone, with a group of tokens that are not looked into, or with an
expression behind an equals sign.
-/

namespace KeyedCoding

/-- The content of an attribute. -/
inductive Meta where
  | path (path : Tokens)
  | list (path : Tokens) (delimiter : Delimiter) (body : Tokens) (span : Span)
  | nameValue (path : Tokens) (equals : Tokens) (value : Expression)

namespace Meta

/-- The path of the content. -/
def pathTokens : Meta → Tokens
  | path p => p
  | list p _ _ _ => p
  | nameValue p _ _ => p

/-- The tokens of the content. -/
def tokens : Meta → Tokens
  | path p => p
  | list p d body span => p ++ [.group d body span]
  | nameValue p equals value => p ++ equals ++ value.tokens

/-- The span of the content. -/
def span (m : Meta) : Span := m.tokens.extent

/-- The names of a path in order. -/
def names (path : Tokens) : List String :=
  path.filterMap fun
    | .ident name _ => some name
    | _ => none

end Meta

/-- An attribute. -/
structure Attribute where
  /-- Whether it belongs to what it stands in, not to what follows it. -/
  inner : Bool
  /-- The marks before the brackets. -/
  marks : Tokens
  content : Meta
  /-- The span of the brackets. -/
  bracketSpan : Span

namespace Attribute

/-- The tokens of an attribute. -/
def tokens (a : Attribute) : Tokens := a.marks ++ [.group .bracket a.content.tokens a.bracketSpan]

/-- From the first mark to the closing bracket. -/
def span (a : Attribute) : Span := a.tokens.extent

/-- The path of an attribute. -/
def path (a : Attribute) : Tokens := a.content.pathTokens

/-- Whether the path is one plain name. -/
def isNamed (a : Attribute) (name : String) : Bool :=
  match a.path with
  | [.ident n _] => n == name
  | _ => false

/-- The tokens of attributes. -/
def tokensOf (attributes : List Attribute) : Tokens := attributes.flatMap tokens

/-- An attribute made by code. -/
def make (content : Meta) : Attribute := ⟨false, Make.op "#", content, .made⟩

end Attribute

namespace Grammar

open KeyedCoding.Parser

/-- Segments of a path of plain words, each followed by double colons as long as they go on. -/
def plainSegments (segment : Parser Bool) : Nat → Parser Tokens
  | 0 => pure []
  | bound + 1 => do
      if ← segment then do
        let w ← anyWord
        if ← peekOp "::" then do
          let colons ← op "::"
          let rest ← plainSegments segment bound
          pure (w :: colons ++ rest)
        else pure [w]
      else pure []

/-- Whether a segment of a plain path is ahead. -/
def peekPlainSegment : Parser Bool := do
  let tokens ← ahead
  pure (tokens.startsName || tokens.startsWord "super" || tokens.startsWord "self"
    || tokens.startsWord "Self" || tokens.startsWord "crate")

/-- Whether the last token is the second colon of a divider. -/
def endsInColon (tokens : Tokens) : Bool :=
  match tokens.getLast? with
  | some (.punct ':' _ _) => true
  | _ => false

/-- A path of names without arguments. -/
def plainPath : Parser Tokens := do
  let leading ← opIf "::"
  let tokens ← ahead
  let segments ← plainSegments peekPlainSegment (tokens.length + 1)
  if segments.isEmpty then do
    let _ ← name
    pure []
  else if endsInColon segments then failHere "expected path segment after `::`"
  else pure (leading ++ segments)

/-- The literal that stands alone up to the end, if there is one. -/
def loneLiteral : Parser (Option Token) := do
  if ← peek .literal then do
    let input ← get
    let t ← literal
    if ← atEnd then pure (some t)
    else do
      set input
      pure none
  else pure none

/-- The expression that a literal token is. -/
def literalExpression (t : Token) : Expression :=
  let kind := match t with
    | .literal text _ => LiteralText.kind text
    | _ => .bool
  ⟨.literal kind, .literal kind, false, [t]⟩

/-- The value behind the equals sign of an attribute. -/
def metaValue (g : Grammar) : Parser Expression := do
  match ← loneLiteral with
  | some t => pure (literalExpression t)
  | none => do
      let tokens ← ahead
      if tokens.startsOp ['#'] && tokens.behind.startsGroup .bracket then
        failHere "unexpected attribute inside of attribute"
      else g.expression true

/-- What follows the path of an attribute; of the operators that start with an equals sign, only the
sign itself is followed by a value. -/
def metaAfterPath (g : Grammar) (path : Tokens) : Parser Meta := do
  match ← ahead with
  | .group d body span :: _ => do
      let _ ← anyToken
      pure (.list path d body span)
  | tokens =>
      if Tokens.startsOp ['='] tokens && !Tokens.startsOp ['=', '='] tokens
          && !Tokens.startsOp ['=', '>'] tokens then do
        let equals ← op "="
        let value ← metaValue g
        pure (.nameValue path equals value)
      else pure (.path path)

/-- The content of an attribute. -/
def metaContent (g : Grammar) : Parser Meta := do
  let path ← (do
    if ← peekWord "unsafe" then word "unsafe" else plainPath)
  metaAfterPath g path

/-- One attribute of what follows. -/
def outerAttribute (g : Grammar) : Parser Attribute := do
  let mark ← op "#"
  let (content, span) ← group .bracket (metaContent g)
  pure ⟨false, mark, content, span⟩

/-- One attribute of what surrounds it. -/
def innerAttribute (g : Grammar) : Parser Attribute := do
  let mark ← op "#"
  let bang ← op "!"
  let (content, span) ← group .bracket (metaContent g)
  pure ⟨true, mark ++ bang, content, span⟩

/-- The attributes of what follows. -/
def outerAttributes (g : Grammar) : Parser (List Attribute) := do
  many do
    if ← peekOp "#" then do
      let a ← outerAttribute g
      pure (some a)
    else pure none

/-- The attributes of what surrounds them. -/
def innerAttributes (g : Grammar) : Parser (List Attribute) := do
  many do
    if (← peekOp "#") && (← peekSecond (.op "!")) then do
      let a ← innerAttribute g
      pure (some a)
    else pure none

/-- The tokens of the attributes of what follows. -/
def outerTokens (g : Grammar) : Parser Tokens := do
  let attributes ← outerAttributes g
  pure (Attribute.tokensOf attributes)

/-- The tokens of the attributes of what surrounds them. -/
def innerTokens (g : Grammar) : Parser Tokens := do
  let attributes ← innerAttributes g
  pure (Attribute.tokensOf attributes)

end Grammar

end KeyedCoding
