import KeyedCoding.Source.Expression.Block

/-!
# Expressions without operators

Literals, paths, records, closures, jumps and everything in brackets.  The first tokens decide which
one is read.
-/

namespace KeyedCoding

namespace Grammar

open KeyedCoding.Parser

/-- Whether an expression can start here. -/
def expressionAhead (tokens : Tokens) : Bool :=
  (tokens.startsAnyWord && !tokens.startsWord "as") || tokens.startsGroup .paren
    || tokens.startsGroup .bracket || tokens.startsGroup .brace || tokens.startsLiteral
    || (tokens.startsOp ['!'] && !tokens.startsOp ['!', '='])
    || (tokens.startsOp ['-'] && !tokens.startsOp ['-', '='] && !tokens.startsOp ['-', '>'])
    || (tokens.startsOp ['*'] && !tokens.startsOp ['*', '='])
    || (tokens.startsOp ['|'] && !tokens.startsOp ['|', '='])
    || (tokens.startsOp ['&'] && !tokens.startsOp ['&', '='])
    || tokens.startsOp ['.', '.']
    || (tokens.startsOp ['<'] && !tokens.startsOp ['<', '=']
      && !tokens.startsOp ['<', '<', '='])
    || tokens.startsOp [':', ':'] || tokens.startsLifetime || tokens.startsOp ['#']

/-- An expression if one can start here. -/
def expressionIf (g : Grammar) : Parser Tokens := do
  if expressionAhead (← ahead) then g.anyExpression else pure []

/-- A field of a record expression. -/
def fieldValue (g : Grammar) : Parser Tokens := do
  let attributes ← outerTokens g
  let m ← member
  let named := match m with
    | .ident _ _ => true
    | _ => false
  if !named || (← peekOp ":") then do
    let colon ← op ":"
    let value ← g.anyExpression
    pure (attributes ++ [m] ++ colon ++ value)
  else pure (attributes ++ [m])

/-- The fields of a record expression up to its end or two dots, at most `bound` of them. -/
def fieldValuesUpTo (g : Grammar) : Nat → Parser Tokens
  | 0 => pure []
  | bound + 1 => do
      if ← atEnd then pure []
      else if ← peekOp ".." then do
        let dots ← op ".."
        if ← atEnd then pure dots
        else do
          let rest ← g.anyExpression
          pure (dots ++ rest)
      else do
        let f ← fieldValue g
        if ← atEnd then pure f
        else do
          let comma ← op ","
          let rest ← fieldValuesUpTo g bound
          pure (f ++ comma ++ rest)

/-- The fields of a record expression. -/
def fieldValues (g : Grammar) : Parser Tokens := do
  let tokens ← ahead
  fieldValuesUpTo g (tokens.length + 1)

/-- An expression that starts with a path. -/
def pathExpression (g : Grammar) (allowRecord : Bool) : Parser Expression := do
  let p ← qualifiedPath g true
  let tokens ← ahead
  if !p.qualified && tokens.startsOp ['!'] && !tokens.startsOp ['!', '='] && p.plain then do
    let bang ← op "!"
    let body ← anyGroup
    let braced := match body with
      | .group .brace _ _ => true
      | _ => false
    pure (.make (.invocation braced) (p.tokens ++ bang ++ [body]))
  else if allowRecord && tokens.startsGroup .brace then do
    let body ← grouped .brace (fieldValues g)
    pure (.make .record (p.tokens ++ body))
  else pure (.make .path p.tokens)

/-- Parentheses around an expression, or a tuple. -/
def parenthesised (g : Grammar) : Parser Expression := do
  let ((kind, body), span) ← group .paren (do
    if ← atEnd then pure (ExpressionKind.tuple, ([] : Tokens))
    else do
      let first ← g.anyExpression
      if ← atEnd then pure (.paren, first)
      else do
        let comma ← op ","
        let rest ← terminatedTokens g.anyExpression
        pure (.tuple, first ++ comma ++ rest))
  pure (.make kind [.group .paren body span])

/-- A list of expressions in brackets, or one to be repeated. -/
def bracketedExpression (g : Grammar) : Parser Expression := do
  let ((kind, body), span) ← group .bracket (do
    if ← atEnd then pure (ExpressionKind.array, ([] : Tokens))
    else do
      let first ← g.anyExpression
      if ← atEnd then pure (.array, first)
      else if ← peekOp "," then do
        let comma ← op ","
        let rest ← terminatedTokens g.anyExpression
        pure (.array, first ++ comma ++ rest)
      else if ← peekOp ";" then do
        let semicolon ← op ";"
        let size ← g.anyExpression
        pure (.repetition, first ++ semicolon ++ size)
      else failHere "expected `,` or `;`")
  pure (.make kind [.group .bracket body span])

/-- A parameter of a closure.  Without a type, its attributes replace those of its pattern. -/
def closureParameter (g : Grammar) : Parser Tokens := do
  let attributes ← outerTokens g
  let p ← g.pattern
  if ← peekOp ":" then do
    let colon ← op ":"
    let t ← g.anyType
    pure (attributes ++ p.tokens ++ colon ++ t)
  else
    match p.form with
    | .verbatim => pure p.tokens
    | .constant bare => pure (attributes ++ bare)
    | _ => pure (attributes ++ p.tokens)

/-- A closure. -/
def closure (g : Grammar) (allowRecord : Bool) : Parser Expression := do
  let bindings ← binder g
  let constant ← wordIf "const"
  let pinned ← wordIf "static"
  let asynchronous ← wordIf "async"
  let moving ← wordIf "move"
  let opening ← op "|"
  let parameters ← dividedUntil (peekOp "|") "," (closureParameter g)
  let closing ← op "|"
  let start := bindings ++ constant ++ pinned ++ asynchronous ++ moving ++ opening
    ++ parameters.flatMap (fun (t, comma) => t ++ comma) ++ closing
  if ← peekOp "->" then do
    let arrow ← op "->"
    let t ← g.anyType
    let body ← block g
    pure (.make .closure (start ++ arrow ++ t ++ body))
  else do
    let body ← g.expression allowRecord
    pure (.make .closure (start ++ body.tokens))

/-- A `break` with its label and value. -/
def breaking (g : Grammar) (allowRecord : Bool) : Parser Expression := do
  let keyword ← word "break"
  let tokens ← ahead
  if tokens.startsLifetime && tokens.behind.startsOp [':'] then do
    let start := Tokens.extent (tokens.take 1)
    let inner ← g.anyExpression
    failAt (start.join (Tokens.extent inner)) "parentheses required"
  else do
    let l ← lifetimeIf
    let tokens ← ahead
    if expressionAhead tokens && (allowRecord || !tokens.startsGroup .brace) then do
      let e ← g.anyExpression
      pure (.make .breaking (keyword ++ l ++ e))
    else pure (.make .breaking (keyword ++ l))

/-- A condition that binds a pattern. -/
def letCondition (g : Grammar) (allowRecord : Bool) : Parser Expression := do
  let keyword ← word "let"
  let p ← g.anyPattern
  let equals ← op "="
  let first ← g.operand allowRecord
  let e ← g.operators allowRecord Precedence.compare first
  pure (.make .letCondition (keyword ++ p ++ equals ++ e.tokens))

/-- A word followed by a block. -/
def blockAfter (keyword : String) (kind : ExpressionKind) (body : Parser Tokens) :
    Parser Expression := do
  let w ← word keyword
  let b ← body
  pure (.make kind (w ++ b))

/-- An expression kept as it was written. -/
def written (p : Parser Unit) : Parser Expression := do
  let start ← get
  p
  let tokens ← since start
  pure (.make .verbatim tokens)

/-- An expression without operators before or behind it. -/
def atom (g : Grammar) (allowRecord : Bool) : Parser Expression := do
  let tokens ← ahead
  let second := tokens.behind
  let third := second.behind
  if tokens.startsLiteral then do
    let t ← literal
    pure (literalExpression t)
  else if tokens.startsWord "async"
      && (second.startsGroup .brace
        || (second.startsWord "move" && third.startsGroup .brace)) then do
    let keyword ← word "async"
    let moving ← wordIf "move"
    let body ← block g
    pure (.make .asyncBlock (keyword ++ moving ++ body))
  else if tokens.startsWord "try" && second.startsGroup .brace then
    blockAfter "try" .tryBlock (block g)
  else if tokens.startsOp ['|'] || tokens.startsWord "move"
      || (tokens.startsWord "for" && parametersAhead second)
      || (tokens.startsWord "const" && !second.startsGroup .brace) || tokens.startsWord "static"
      || (tokens.startsWord "async" && (second.startsOp ['|'] || second.startsWord "move")) then
    closure g allowRecord
  else if builtinAhead tokens then written builtin
  else if pathAhead tokens
      || (tokens.startsWord "try" && (second.startsOp ['!'] || second.startsOp [':', ':'])) then
    pathExpression g allowRecord
  else if tokens.startsGroup .paren then parenthesised g
  else if tokens.startsWord "break" then breaking g allowRecord
  else if tokens.startsWord "continue" then do
    let keyword ← word "continue"
    let l ← lifetimeIf
    pure (.make .continuing (keyword ++ l))
  else if tokens.startsWord "return" then do
    let keyword ← word "return"
    let e ← expressionIf g
    pure (.make .returning (keyword ++ e))
  else if tokens.startsWord "become" then
    written (do
      let _ ← word "become"
      let _ ← g.anyExpression)
  else if tokens.startsGroup .bracket then bracketedExpression g
  else if tokens.startsWord "let" then letCondition g allowRecord
  else if tokens.startsWord "if" then conditional g
  else if tokens.startsWord "while" then whileLoop g []
  else if tokens.startsWord "for" then forLoop g []
  else if tokens.startsWord "loop" then endlessLoop g []
  else if tokens.startsWord "match" then selection g
  else if tokens.startsWord "yield" then do
    let keyword ← word "yield"
    let e ← expressionIf g
    pure (.make .yielding (keyword ++ e))
  else if tokens.startsWord "unsafe" then
    blockAfter "unsafe" .uncheckedBlock (attributedBlock g)
  else if tokens.startsWord "const" then blockAfter "const" .constBlock (attributedBlock g)
  else if tokens.startsGroup .brace then blockExpression g []
  else if tokens.startsOp ['.', '.'] then do
    let t ← rangeTail g allowRecord
    pure (.make .range t)
  else if tokens.startsWord "_" then do
    let t ← word "_"
    pure (.make .infer t)
  else if tokens.startsLifetime then labelled g
  else failHere "expected an expression"

end Grammar

end KeyedCoding
