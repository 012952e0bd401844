import KeyedCoding.Source.Item.Composite
import KeyedCoding.Source.Item.Function

/-!
# Members of implementations, traits and foreign modules

Type aliases, constants, functions and calls of macros, each with what its place allows.  A member
with a part that its place does not allow is kept as it was written.
-/

namespace KeyedCoding

namespace Grammar

open KeyedCoding.Parser

/-! ## Type aliases and constants -/

/-- An alias of a type, with everything that some place allows. -/
structure AliasParts where
  visibility : Tokens
  preset : Tokens
  keyword : Tokens
  name : Token
  generics : Generics
  colon : Tokens
  bounds : Tokens
  definition : Tokens
  semicolon : Tokens

/-- Where the conditions of an alias may stand. -/
inductive ConditionPlace where
  | beforeDefinition
  | behindDefinition
  | either
deriving DecidableEq, Repr

/-- Bounds behind a colon, if there are some: the colon and the bounds. -/
def aliasBounds (g : Grammar) : Parser (Tokens × Tokens) := do
  let colon ← opIf ":"
  if colon.isEmpty then pure ([], [])
  else do
    let stop : Parser Bool := do
      pure ((← peekWord "where") || (← peekOp "=") || (← peekOp ";"))
    let bounds ← dividedUntil stop "+" (boundTokens g false true)
    pure (colon, bounds.flatMap fun (b, plus) => b ++ plus)

/-- Read an alias; `presets` allows `default`. -/
def aliasParts (g : Grammar) (presets : Bool) (place : ConditionPlace) : Parser AliasParts := do
  let visible ← visibility
  let preset ← (do
    if presets then wordIf "default" else pure [])
  let keyword ← word "type"
  let t ← name
  let generics ← genericParameters g
  let (colon, bounds) ← aliasBounds g
  let before ← (do
    if place = .behindDefinition then pure none else whereClause g)
  let equals ← opIf "="
  let definition ← (do
    if equals.isEmpty then pure []
    else do
      let t ← g.anyType
      pure (equals ++ t))
  let behind ← (do
    if place = .beforeDefinition || before.isSome then pure none else whereClause g)
  let semicolon ← op ";"
  pure ⟨visible, preset, keyword, t, conditioned generics (before <|> behind), colon, bounds,
    definition, semicolon⟩

/-- A constant behind its visibility: its tokens, or nothing if it has no value, parameters or
conditions. -/
def constParts (g : Grammar) (needsValue : Bool) : Parser (Option Tokens) := do
  let keyword ← word "const"
  let tokens ← ahead
  let t ← (do
    if tokens.startsName || tokens.startsWord "_" then anyWord
    else expected [.name, .word "_"])
  let generics ← genericParameters g
  let colon ← op ":"
  let type ← g.anyType
  let equals ← opIf "="
  let value ← (do
    if equals.isEmpty then pure [] else g.anyExpression)
  let condition ← whereClause g
  let semicolon ← op ";"
  if (needsValue && equals.isEmpty) || !generics.opening.isEmpty || condition.isSome then
    pure none
  else pure (some (keyword ++ t :: (colon ++ type ++ equals ++ value ++ semicolon)))

/-! ## Members of implementations, traits and foreign modules -/

/-- A call of a macro as an item. -/
def invocationItem : Parser Tokens := do
  let p ← plainPath
  let bang ← op "!"
  let t ← (do
    if ← peekWord "try" then do
      let w ← anyWord
      pure [w]
    else if ← peek .name then do
      let w ← name
      pure [w]
    else pure [])
  let body ← anyGroup
  let semicolon ← (do
    match body with
    | .group .brace _ _ => pure []
    | _ => op ";")
  pure (p ++ bang ++ t ++ [body] ++ semicolon)

/-- A call of a macro inside another item; no semicolon stands behind braces. -/
def invocationMember : Parser Tokens := do
  let p ← plainPath
  let bang ← op "!"
  let body ← anyGroup
  let semicolon ← (do
    match body with
    | .group .brace _ _ => pure []
    | _ => op ";")
  pure (p ++ bang ++ [body] ++ semicolon)

/-- What may start a call of a macro. -/
def invocationStarts : List Peek :=
  [.name, .word "self", .word "super", .word "crate", .op "::"]

/-- Whether a call of a macro is ahead. -/
def invocationAhead (tokens : Tokens) : Bool := invocationStarts.any fun p => p.holds tokens

/-- A member of an implementation. -/
def implementationMember (g : Grammar) : Parser Tokens := do
  let start ← get
  let attributes ← outerTokens g
  let before ← get
  let visible ← visibility
  let tokens ← ahead
  let preset ← (do
    if tokens.startsWord "default" && !tokens.behind.startsOp ['!'] then word "default"
    else pure [])
  let tokens ← ahead
  if ← signatureAhead false then do
    let (_, sig) ← signature g
    if ← peekOp ";" then do
      let _ ← op ";"
      since start
    else do
      let body ← functionBodyTokens g
      pure (attributes ++ visible ++ preset ++ sig ++ body)
  else if tokens.startsWord "const" then do
    match ← constParts g true with
    | some t => pure (attributes ++ visible ++ preset ++ t)
    | none => since start
  else if tokens.startsWord "type" then do
    set before
    let a ← aliasParts g true .behindDefinition
    if a.definition.isEmpty || !a.colon.isEmpty then since start
    else
      pure (attributes ++ a.visibility ++ a.preset ++ a.keyword ++ a.name ::
        (a.generics.declared ++ a.definition ++ a.generics.conditionTokens ++ a.semicolon))
  else if visible.isEmpty && preset.isEmpty && invocationAhead tokens then do
    let t ← invocationMember
    pure (attributes ++ t)
  else
    let words : List Peek :=
      (if preset.isEmpty then [.word "default"] else [])
        ++ [.word "fn", .word "const", .word "type"]
    expected (words ++ if visible.isEmpty && preset.isEmpty then invocationStarts else [])

/-- A function of a trait, with or without a body. -/
def traitFunction (g : Grammar) : Parser Tokens := do
  let (_, sig) ← signature g
  if ← peekGroup .brace then do
    let body ← functionBodyTokens g
    pure (sig ++ body)
  else if ← peekOp ";" then do
    let semicolon ← op ";"
    pure (sig ++ semicolon)
  else expected [.group .brace, .op ";"]

/-- What may follow `const` in a trait. -/
def traitConstStarts : List Peek :=
  [.name, .word "_", .word "async", .word "unsafe", .word "extern", .word "fn"]

/-- A member of a trait. -/
def traitMember (g : Grammar) : Parser Tokens := do
  let start ← get
  let attributes ← outerTokens g
  let visible ← visibility
  let preset ← wordIf "default"
  let tokens ← ahead
  let t ← (do
    if ← signatureAhead false then do
      let f ← traitFunction g
      pure (some f)
    else if tokens.startsWord "const" then
      let second := tokens.behind
      if second.startsName || second.startsWord "_" then constParts g false
      else if traitConstStarts.any fun p => p.holds second then do
        let f ← traitFunction g
        pure (some f)
      else do
        let _ ← word "const"
        expected traitConstStarts
    else if tokens.startsWord "type" then do
      let a ← aliasParts g false .behindDefinition
      if !a.visibility.isEmpty then pure none
      else
        pure (some (a.keyword ++ a.name :: (a.generics.declared
          ++ (if a.bounds.isEmpty then [] else a.colon ++ a.bounds) ++ a.definition
          ++ a.generics.conditionTokens ++ a.semicolon)))
    else if visible.isEmpty && preset.isEmpty && invocationAhead tokens then do
      let t ← invocationMember
      pure (some t)
    else
      expected ([.word "fn", .word "const", .word "type"]
        ++ if visible.isEmpty && preset.isEmpty then invocationStarts else []))
  match t with
  | some t => if visible.isEmpty && preset.isEmpty then pure (attributes ++ t) else since start
  | none => since start

/-- A declaration in a foreign module. -/
def foreignMember (g : Grammar) : Parser Tokens := do
  let start ← get
  let attributes ← outerTokens g
  let before ← get
  let visible ← visibility
  let tokens ← ahead
  let second := tokens.behind
  if ← signatureAhead true then do
    let ((_, sig), safe) ← markedSignature g true
    if ← peekGroup .brace then do
      let _ ← functionBodyTokens g
      since start
    else do
      let semicolon ← op ";"
      if safe then since start else pure (attributes ++ visible ++ sig ++ semicolon)
  else if tokens.startsWord "static"
      || ((tokens.startsWord "unsafe" || tokens.startsWord "safe")
        && second.startsWord "static") then do
    let unchecked ← wordIf "unsafe"
    let safe ← (do
      if unchecked.isEmpty then wordIf "safe" else pure [])
    let keyword ← word "static"
    let mutable ← wordIf "mut"
    let t ← name
    let colon ← op ":"
    let type ← g.anyType
    let equals ← opIf "="
    if !equals.isEmpty then do
      let _ ← g.anyExpression
    let semicolon ← op ";"
    if !unchecked.isEmpty || !safe.isEmpty || !equals.isEmpty then since start
    else
      pure (attributes ++ visible ++ keyword ++ mutable ++ t :: (colon ++ type ++ semicolon))
  else if tokens.startsWord "type" then do
    set before
    let a ← aliasParts g false .either
    if !a.definition.isEmpty || !a.colon.isEmpty then since start
    else
      pure (attributes ++ a.visibility ++ a.keyword ++ a.name ::
        (a.generics.declared ++ a.generics.conditionTokens ++ a.semicolon))
  else if visible.isEmpty && invocationAhead tokens then do
    let t ← invocationMember
    pure (attributes ++ t)
  else
    expected ([.word "fn", .word "static", .word "type"]
      ++ if visible.isEmpty then invocationStarts else [])

/-- Attributes and members of a body in braces. -/
def bodyOf (g : Grammar) (p : Parser Tokens) : Parser ((List Attribute × Tokens) × Span) :=
  group .brace (do
    let inner ← innerAttributes g
    let members ← manyWhile (do pure !(← atEnd)) p
    pure (inner, members))

end Grammar

end KeyedCoding
