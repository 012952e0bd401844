import KeyedCoding.Source.Item.Basic

/-!
# Functions

A signature is read as the words before its name, the parameters and the conditions; a body holds
attributes of the function itself before its statements.
-/

namespace KeyedCoding

namespace Grammar

open KeyedCoding.Parser

/-- A parameter that stands for the object itself, and the span of its name. -/
def receiver (g : Grammar) : Parser (Tokens × Span) := do
  let ampersand ← opIf "&"
  let life ← (do
    if ampersand.isEmpty then pure [] else lifetimeIf)
  let mutable ← wordIf "mut"
  let self ← word "self"
  if ampersand.isEmpty && (← peekOp ":") then do
    let colon ← op ":"
    let t ← g.anyType
    pure (mutable ++ self ++ colon ++ t, self.extent)
  else pure (ampersand ++ life ++ mutable ++ self, self.extent)

/-- A parameter with a pattern and a type, and whether dots stand in place of the type. -/
def typedParameter (g : Grammar) : Parser (Tokens × Bool) := do
  let tokens ← ahead
  if tokens.startsName && tokens.behind.startsOp ['<'] then do
    let t ← g.anyType
    pure (Make.ident "_" :: Make.op ":" ++ t, false)
  else do
    let p ← g.onePattern
    let colon ← op ":"
    if ← peekOp "..." then do
      let dots ← op "..."
      pure (p ++ colon ++ dots, true)
    else do
      let t ← g.anyType
      pure (p ++ colon ++ t, false)

/-- A comma, unless nothing follows. -/
def commaUnlessEnd : Parser Tokens := do
  if ← atEnd then pure [] else op ","

/-- The parameters of a function behind `before` earlier ones, at most `bound` of them.  None
follows the dots that stand for any number of them. -/
def parametersUpTo (g : Grammar) : Nat → Nat → Bool → Parser Tokens
  | 0, _, _ => pure []
  | bound + 1, before, hasReceiver => do
      if ← atEnd then pure []
      else do
        let attributes ← outerTokens g
        if ← peekOp "..." then do
          let dots ← op "..."
          let comma ← commaUnlessEnd
          pure (attributes ++ dots ++ comma)
        else
          match ← attempt (receiver g) with
          | some (t, self) => do
              if hasReceiver then failAt self "unexpected second method receiver"
              else if 0 < before then failAt self "unexpected method receiver"
              else do
                let comma ← commaUnlessEnd
                let rest ← parametersUpTo g bound (before + 1) true
                pure (attributes ++ t ++ comma ++ rest)
          | none => do
              let (t, isVariadic) ← typedParameter g
              let comma ← commaUnlessEnd
              if isVariadic then pure (attributes ++ t ++ comma)
              else do
                let rest ← parametersUpTo g bound (before + 1) hasReceiver
                pure (attributes ++ t ++ comma ++ rest)

/-- The parameters of a function. -/
def parameters (g : Grammar) : Parser Tokens := do
  let tokens ← ahead
  parametersUpTo g (tokens.length + 1) 0 false

/-- The words before `fn`, and whether `safe` is among them. -/
def functionWords (allowSafe : Bool) : Parser (Tokens × Bool) := do
  let constant ← wordIf "const"
  let asynchronous ← wordIf "async"
  let unchecked ← wordIf "unsafe"
  let safe ← (do
    if allowSafe && unchecked.isEmpty then wordIf "safe" else pure [])
  let convention ← callingConvention
  pure (constant ++ asynchronous ++ unchecked ++ safe ++ convention, !safe.isEmpty)

/-- Whether a function signature is ahead. -/
def signatureAhead (allowSafe : Bool) : Parser Bool := do
  let input ← get
  let _ ← functionWords allowSafe
  let found ← peekWord "fn"
  set input
  pure found

/-- A function signature: its name and its tokens, and whether it is marked as safe. -/
def markedSignature (g : Grammar) (allowSafe : Bool) : Parser ((Token × Tokens) × Bool) := do
  let (words, safe) ← functionWords allowSafe
  let keyword ← word "fn"
  let t ← name
  let generics ← genericParameters g
  let inputs ← grouped .paren (parameters g)
  let output ← returnType g true
  let conditions ← whereTokens g
  pure ((t, words ++ keyword ++ t :: (generics.declared ++ inputs ++ output ++ conditions)), safe)

/-- A function signature: its name and its tokens. -/
def signature (g : Grammar) : Parser (Token × Tokens) := do
  let (sig, _) ← markedSignature g false
  pure sig

/-- The body of a function: the attributes in it and its statements. -/
def functionBody (g : Grammar) : Parser ((List Attribute × Tokens) × Span) :=
  group .brace (do
    let inner ← innerAttributes g
    let body ← g.statements
    pure (inner, body))

/-- The body of a function as tokens. -/
def functionBodyTokens (g : Grammar) : Parser Tokens := do
  let ((inner, body), span) ← functionBody g
  pure [.group .brace (Attribute.tokensOf inner ++ body) span]

end Grammar

end KeyedCoding
