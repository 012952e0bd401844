import KeyedCoding.Source.Expression.Operator

/-!
# Blocks as expressions

Blocks, loops, conditionals and matches.  Where a block follows an expression, that expression may
not end in the braces of a record.
-/

namespace KeyedCoding

namespace Grammar

open KeyedCoding.Parser

/-- A block without attributes inside. -/
def block (g : Grammar) : Parser Tokens := grouped .brace g.statements

/-- A block with attributes inside. -/
def attributedBlock (g : Grammar) : Parser Tokens :=
  grouped .brace (do
    let inner ← innerTokens g
    let body ← g.statements
    pure (inner ++ body))

/-- The label of a loop or block, if there is one. -/
def label : Parser Tokens := do
  if ← peek .lifetime then do
    let l ← lifetime
    let colon ← op ":"
    pure (l ++ colon)
  else pure []

/-- A condition or the subject of a match: no record expression, since a block follows. -/
def subject (g : Grammar) : Parser Tokens := do
  let e ← g.expression false
  pure e.tokens

/-- Conditions with their blocks, at most `bound` of them. -/
def conditionalUpTo (g : Grammar) : Nat → Parser Tokens
  | 0 => pure []
  | bound + 1 => do
      let keyword ← word "if"
      let condition ← subject g
      let thenBlock ← block g
      let start := keyword ++ condition ++ thenBlock
      if ← peekWord "else" then do
        let otherwise ← word "else"
        if ← peekWord "if" then do
          let rest ← conditionalUpTo g bound
          pure (start ++ otherwise ++ rest)
        else if ← peekGroup .brace then do
          let elseBlock ← block g
          pure (start ++ otherwise ++ elseBlock)
        else expected [.word "if", .group .brace]
      else pure start

/-- A conditional. -/
def conditional (g : Grammar) : Parser Expression := do
  let tokens ← ahead
  let t ← conditionalUpTo g (tokens.length + 1)
  pure (.make .conditional t)

/-- A while loop behind its label. -/
def whileLoop (g : Grammar) (start : Tokens) : Parser Expression := do
  let keyword ← word "while"
  let condition ← subject g
  let body ← attributedBlock g
  pure (.make .whileLoop (start ++ keyword ++ condition ++ body))

/-- A for loop behind its label. -/
def forLoop (g : Grammar) (start : Tokens) : Parser Expression := do
  let keyword ← word "for"
  let p ← g.anyPattern
  let among ← word "in"
  let items ← subject g
  let body ← attributedBlock g
  pure (.make .forLoop (start ++ keyword ++ p ++ among ++ items ++ body))

/-- An endless loop behind its label. -/
def endlessLoop (g : Grammar) (start : Tokens) : Parser Expression := do
  let keyword ← word "loop"
  let body ← attributedBlock g
  pure (.make .loop (start ++ keyword ++ body))

/-- A block as an expression behind its label. -/
def blockExpression (g : Grammar) (start : Tokens) : Parser Expression := do
  let body ← attributedBlock g
  pure (.make .block (start ++ body))

/-- A loop or block with a label. -/
def labelled (g : Grammar) : Parser Expression := do
  let start ← label
  let tokens ← ahead
  if tokens.startsWord "while" then whileLoop g start
  else if tokens.startsWord "for" then forLoop g start
  else if tokens.startsWord "loop" then endlessLoop g start
  else if tokens.startsGroup .brace then blockExpression g start
  else failHere "expected loop or block expression"

/-- An arm of a match. -/
def arm (g : Grammar) : Parser Tokens := do
  let attributes ← outerTokens g
  let p ← g.anyPattern
  let guard ← (do
    if ← peekWord "if" then do
      let keyword ← word "if"
      let condition ← g.anyExpression
      pure (keyword ++ condition)
    else pure [])
  let arrow ← op "=>"
  let body ← g.boundedExpression
  let comma ← (do
    if body.needsComma && !(← atEnd) then op "," else opIf ",")
  pure (attributes ++ p ++ guard ++ arrow ++ body.tokens ++ comma)

/-- A match. -/
def selection (g : Grammar) : Parser Expression := do
  let keyword ← word "match"
  let e ← subject g
  let arms ← grouped .brace (do
    let inner ← innerTokens g
    let arms ← manyWhile (do pure !(← atEnd)) (arm g)
    pure (inner ++ arms))
  pure (.make .selection (keyword ++ e ++ arms))

end Grammar

end KeyedCoding
