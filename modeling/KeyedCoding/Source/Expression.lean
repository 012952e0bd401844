import KeyedCoding.Source.Expression.Atom

/-!
# Operands

An operand is an atom with what follows it: calls, members, indices and question marks, with unary
operators and attributes in front.  In a statement or arm an expression ends behind a leading block.
-/

namespace KeyedCoding

namespace Grammar

open KeyedCoding.Parser

/-- The indices that a float behind a dot stands for; its own dots divide them. -/
def indices (text : String) : Except String (List Nat) :=
  let digits := if text.endsWith "." then (text.dropEnd 1).toString else text
  (digits.splitOn ".").mapM fun part =>
    if LiteralText.kind part = .int then
      match LiteralText.index part with
      | .ok n => .ok n
      | .error fault => .error fault.message
    else .error "expected integer literal"

/-- The members that a float behind a dot stands for, each behind a dot.  Where the float ends with
a dot, that dot belongs to what follows and is left out. -/
def indexTokens (dot : Tokens) : Parser (Tokens × Bool) := do
  match ← ahead with
  | .literal _ _ :: _ | .punct _ _ _ :: .literal _ _ :: _ => do
      let input ← get
      match ← attempt literal with
      | some (.literal text span) =>
          if LiteralText.kind text = .float then
            match indices text with
            | .ok parts =>
                pure (parts.flatMap (fun n => dot ++ [Token.literal (toString n) span]),
                  !text.endsWith ".")
            | .error message => failAt span message
          else do
            set input
            pure ([], false)
      | _ => do
          set input
          pure ([], false)
  | _ => pure ([], false)

/-- Calls, members, indexing and question marks behind an expression, at most `bound` of them. -/
def trailersUpTo (g : Grammar) : Nat → Expression → Parser Expression
  | 0, e => pure e
  | bound + 1, e => do
      let tokens ← ahead
      if tokens.startsGroup .paren then do
        let arguments ← grouped .paren (terminatedTokens g.anyExpression)
        trailersUpTo g bound (.make .call (e.tokens ++ arguments))
      else if tokens.startsOp ['.'] && !tokens.startsOp ['.', '.'] && e.kind != .range then do
        let dot ← op "."
        let (fields, complete) ← indexTokens dot
        let start := e.tokens ++ fields
        if complete then trailersUpTo g bound (.make .field start)
        else if ← peekWord "await" then do
          let keyword ← word "await"
          trailersUpTo g bound (.make .awaiting (start ++ dot ++ keyword))
        else do
          let m ← member
          let named := match m with
            | .ident _ _ => true
            | _ => false
          let turbofish ← (do
            if named && (← peekOp "::") then do
              let (t, _) ← angledArguments g
              pure t
            else pure [])
          if named && (!turbofish.isEmpty || (← peekGroup .paren)) then do
            let arguments ← grouped .paren (terminatedTokens g.anyExpression)
            trailersUpTo g bound
              (.make .methodCall (start ++ dot ++ [m] ++ turbofish ++ arguments))
          else trailersUpTo g bound (.make .field (start ++ dot ++ [m]))
      else if tokens.startsGroup .bracket then do
        let position ← grouped .bracket g.anyExpression
        trailersUpTo g bound (.make .index (e.tokens ++ position))
      else if tokens.startsOp ['?'] && e.kind != .range then do
        let mark ← op "?"
        trailersUpTo g bound (.make .propagation (e.tokens ++ mark))
      else pure e

/-- Calls, members, indexing and question marks behind an expression. -/
def trailers (g : Grammar) (e : Expression) : Parser Expression := do
  let tokens ← ahead
  trailersUpTo g (tokens.length + 1) e

/-- The dots that a range without start begins with. -/
def leadingDots (tokens : Tokens) : Tokens :=
  tokens.take (if tokens.startsOp ['.', '.', '='] then 3 else 2)

/-- The expression with attributes in front; `start` is the input with them. -/
def attributed (start : Input) (attributes : Tokens) (e : Expression) : Parser Expression :=
  if e.kind == .verbatim then do
    let tokens ← since start
    pure { e with tokens }
  else if !attributes.isEmpty && e.kind == .range then
    failAt (leadingDots e.tokens).extent
      "attributes are not allowed on range expressions starting with `..`"
  else pure { e with tokens := attributes ++ e.tokens }

/-- An expression without binary operators. -/
def operandStep (g : Grammar) (allowRecord : Bool) : Parser Expression := do
  let start ← get
  let attributes ← outerTokens g
  let tokens ← ahead
  if tokens.startsOp ['&'] then do
    let ampersand ← op "&"
    let tokens ← ahead
    if tokens.startsWord "raw"
        && (tokens.behind.startsWord "mut" || tokens.behind.startsWord "const") then do
      let raw ← word "raw"
      let mode ← anyWord
      let e ← g.operand allowRecord
      pure (.make .rawAddress (attributes ++ ampersand ++ raw ++ [mode] ++ e.tokens))
    else do
      let mutable ← wordIf "mut"
      let e ← g.operand allowRecord
      pure (.make .reference (attributes ++ ampersand ++ mutable ++ e.tokens))
  else if tokens.startsOp ['*'] || tokens.startsOp ['!'] || tokens.startsOp ['-'] then do
    let symbol ← (do
      if tokens.startsOp ['*'] then op "*"
      else if tokens.startsOp ['!'] then op "!"
      else op "-")
    let e ← g.operand allowRecord
    pure (.make .unary (attributes ++ symbol ++ e.tokens))
  else do
    let a ← atom g allowRecord
    let e ← trailers g a
    attributed start attributes e

/-- Whether a dot or question mark goes on behind a block. -/
def continues (tokens : Tokens) : Bool :=
  (tokens.startsOp ['.'] && !tokens.startsOp ['.', '.']) || tokens.startsOp ['?']

/-- The expression with a block that stands first in a statement or arm, if it is one. -/
def leadingBlock (g : Grammar) : Parser (Option Expression) := do
  let tokens ← ahead
  let second := tokens.behind
  if tokens.startsWord "if" then do return some (← conditional g)
  else if tokens.startsWord "while" then do return some (← whileLoop g [])
  else if tokens.startsWord "for" && !parametersAhead second then do
    return some (← forLoop g [])
  else if tokens.startsWord "loop" then do return some (← endlessLoop g [])
  else if tokens.startsWord "match" then do return some (← selection g)
  else if tokens.startsWord "try" && second.startsGroup .brace then do
    return some (← blockAfter "try" .tryBlock (block g))
  else if tokens.startsWord "unsafe" then do
    return some (← blockAfter "unsafe" .uncheckedBlock (attributedBlock g))
  else if tokens.startsWord "const" && second.startsGroup .brace then do
    return some (← blockAfter "const" .constBlock (attributedBlock g))
  else if tokens.startsGroup .brace then do return some (← blockExpression g [])
  else if tokens.startsLifetime then do return some (← labelled g)
  else return none

/-- An expression that ends behind a leading block unless a dot or question mark follows. -/
def boundedStep (g : Grammar) : Parser Expression := do
  let attributes ← outerTokens g
  match ← leadingBlock g with
  | some e =>
      if continues (← ahead) then do
        let longer ← trailers g e
        g.operators true Precedence.least (longer.withAttributes attributes)
      else pure (e.withAttributes attributes)
  | none => do
      let first ← g.operand true
      g.operators true Precedence.least (first.withAttributes attributes)

end Grammar

end KeyedCoding
