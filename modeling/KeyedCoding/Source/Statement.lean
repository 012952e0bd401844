import KeyedCoding.Source.Expression
import KeyedCoding.Source.Item

/-!
# Statements

A statement is an item, a local binding, a call of a macro or an expression.  Which one it is
shows in its first tokens, attributes aside; expressions that end in a block need no semicolon.
-/

namespace KeyedCoding

namespace Grammar

open KeyedCoding.Parser

/-- Whether an item is ahead, not an expression. -/
def itemAhead (tokens : Tokens) : Bool :=
  let second := tokens.behind
  let third := second.behind
  tokens.startsWord "pub"
    || (tokens.startsWord "crate" && !second.startsOp [':', ':'])
    || tokens.startsWord "extern" || tokens.startsWord "use"
    || (tokens.startsWord "static" && (second.startsWord "mut" || second.startsName))
    || (tokens.startsWord "const"
      && !(second.startsGroup .brace || second.startsWord "static"
        || (second.startsWord "async" && !(third.startsWord "unsafe" || third.startsWord "extern"
          || third.startsWord "fn"))
        || second.startsWord "move" || second.startsOp ['|']))
    || (tokens.startsWord "unsafe" && !second.startsGroup .brace)
    || (tokens.startsWord "async"
      && (second.startsWord "unsafe" || second.startsWord "extern" || second.startsWord "fn"))
    || ["fn", "mod", "type", "struct", "enum", "trait", "impl", "macro"].any
      (fun w => tokens.startsWord w)
    || (tokens.startsWord "union" && second.startsName)
    || (tokens.startsWord "auto" && second.startsWord "trait")
    || (tokens.startsWord "default" && (second.startsWord "unsafe" || second.startsWord "impl"))

/-- What a call of a macro in a block is. -/
inductive InvocationForm where
  /-- It names what it defines. -/
  | item
  /-- It ends a statement with its braces. -/
  | statement
  | none
deriving DecidableEq

/-- How a call of a macro that is ahead is to be read. -/
def invocationForm : Parser InvocationForm := do
  let input ← get
  match plainPath input with
  | .error _ => pure .none
  | .ok (_, rest) =>
      let tokens := rest.tokens
      let second := tokens.behind
      let third := second.behind
      if tokens.startsOp ['!'] then
        if second.startsName || second.startsWord "try" then pure .item
        else if second.startsGroup .brace && !continues third then pure .statement
        else pure .none
      else pure .none

/-- A call of a macro that ends a statement. -/
def invocationStatement : Parser Tokens := do
  let p ← plainPath
  let bang ← op "!"
  let body ← anyGroup
  let semicolon ← opIf ";"
  pure (p ++ bang ++ [body] ++ semicolon)

/-- A local variable. -/
def localStatement (g : Grammar) : Parser Tokens := do
  let keyword ← word "let"
  let p ← g.onePattern
  let annotation ← (do
    if ← peekOp ":" then do
      let colon ← op ":"
      let t ← g.anyType
      pure (colon ++ t)
    else pure [])
  let value ← (do
    if ← peekOp "=" then do
      let equals ← op "="
      let e ← g.expression true
      if !e.endsInBrace && (← peekWord "else") then do
        let otherwise ← word "else"
        let body ← block g
        pure (equals ++ e.tokens ++ otherwise ++ body)
      else pure (equals ++ e.tokens)
    else pure [])
  let semicolon ← op ";"
  pure (keyword ++ p ++ annotation ++ value ++ semicolon)

/-- A statement and whether a semicolon is missing behind it. -/
def statement (g : Grammar) : Parser (Tokens × Bool) := do
  let start ← get
  let attributes ← outerAttributes g
  let form ← invocationForm
  if form == .statement then do
    let t ← invocationStatement
    pure (Attribute.tokensOf attributes ++ t, false)
  else if ← peekWord "let" then do
    let t ← localStatement g
    pure (Attribute.tokensOf attributes ++ t, false)
  else if form == .item || itemAhead (← ahead) then do
    let item ← itemAfter g start attributes
    pure (item.tokens, false)
  else do
    let e ← g.boundedExpression
    let semicolon ← opIf ";"
    pure ((e.withAttributes (Attribute.tokensOf attributes)).tokens ++ semicolon,
      semicolon.isEmpty && e.needsSemicolon)

/-- Statements to the end of a block, at most `bound` of them. -/
def statementsUpTo (g : Grammar) : Nat → Parser Tokens
  | 0 => pure []
  | bound + 1 => do
      if ← atEnd then pure []
      else if ← peekOp ";" then do
        let semicolon ← op ";"
        let rest ← statementsUpTo g bound
        pure (semicolon ++ rest)
      else do
        let (t, incomplete) ← statement g
        if ← atEnd then pure t
        else if incomplete then failHere "unexpected token, expected `;`"
        else do
          let rest ← statementsUpTo g bound
          pure (t ++ rest)

/-- Statements to the end of a block. -/
def statementsStep (g : Grammar) : Parser Tokens := do
  let tokens ← ahead
  statementsUpTo g (tokens.length + 1)

end Grammar

end KeyedCoding
