import KeyedCoding.Source.Attribute

/-!
# Paths

Names divided by double colons, with arguments in angle brackets behind a name, in parentheses
behind the last one, or with a qualified type in front.  Arguments that are lifetimes are printed
before the others.
-/

namespace KeyedCoding

/-- The arguments behind a segment of a path. -/
inductive SegmentArguments where
  | none
  | angled (empty : Bool)
  | parenthesised
deriving DecidableEq, Repr

/-- A path as the tokens it is printed with. -/
structure PathText where
  /-- The path without the arguments of its last segment. -/
  stem : Tokens
  /-- The arguments of the last segment. -/
  arguments : Tokens
  last : SegmentArguments
  /-- Whether a qualified type stands in front. -/
  qualified : Bool
  /-- Whether double colons stand in front. -/
  leading : Bool
  segments : Nat
  /-- Whether no segment has arguments. -/
  plain : Bool

namespace PathText

/-- The tokens of a path. -/
def tokens (p : PathText) : Tokens := p.stem ++ p.arguments

/-- Whether the last segment could still take arguments in parentheses. -/
def open? (p : PathText) : Bool :=
  match p.last with
  | .none => true
  | .angled empty => empty
  | .parenthesised => false

/-- A path followed by another segment. -/
def extend (p q : PathText) (colons : Tokens) : PathText :=
  { q with
    stem := p.tokens ++ colons ++ q.stem
    qualified := p.qualified
    leading := p.leading
    segments := p.segments + 1
    plain := p.plain && q.plain }

end PathText

/-- A bound in a list of them. -/
structure BoundText where
  isTrait : Bool
  tokens : Tokens
  /-- The plus sign behind the bound, if there is one. -/
  plus : Tokens

/-- Items with their commas, those that are lifetimes first.  A comma is put between the two sorts
if the last lifetime has none. -/
def lifetimesFirst (items : List (Bool × Tokens × Tokens)) : Tokens :=
  let lifetimes := items.filter fun (lifetime, _, _) => lifetime
  let others := items.filter fun (lifetime, _, _) => !lifetime
  let printed := fun (part : List (Bool × Tokens × Tokens)) =>
    part.flatMap fun (_, t, comma) => t ++ comma
  let bridge :=
    match lifetimes.getLast?, others with
    | some (_, _, []), _ :: _ => Make.op ","
    | _, _ => []
  printed lifetimes ++ bridge ++ printed others

/-- A path of one segment. -/
def PathText.one (word : Token) (arguments : Tokens) (last : SegmentArguments) : PathText where
  stem := [word]
  arguments := arguments
  last := last
  qualified := false
  leading := false
  segments := 1
  plain := last == .none

namespace Grammar

open KeyedCoding.Parser

/-- A constant as an argument: a literal, a name or a block. -/
def constArgument (g : Grammar) : Parser Tokens := do
  if ← peek .literal then do
    let t ← literal
    pure [t]
  else if ← peek .name then do
    let t ← name
    pure [t]
  else if ← peekGroup .brace then
    grouped .brace (do
      let inner ← innerTokens g
      let body ← g.statements
      pure (inner ++ body))
  else unexpected

/-- Parameters bound by `for` in front of a type or closure, if there are some. -/
def binder (g : Grammar) : Parser Tokens := do
  if ← peekWord "for" then do
    let keyword ← word "for"
    let opening ← op "<"
    let parameters ← dividedUntil (peekOp ">") "," g.binding
    let closing ← op ">"
    pure (keyword ++ opening ++ parameters.flatMap (fun (t, comma) => t ++ comma) ++ closing)
  else pure []

/-- Arguments in parentheses with a result type, as of function traits. -/
def functionArguments (g : Grammar) : Parser Tokens := do
  let _ ← opIf "::"
  let inputs ← grouped .paren (terminatedTokens g.anyType)
  if ← peekOp "->" then do
    let arrow ← op "->"
    let output ← g.tightType
    pure (inputs ++ arrow ++ output)
  else pure inputs

/-- Arguments in parentheses behind a path whose last segment has none. -/
def withFunctionArguments (g : Grammar) (p : PathText) : Parser PathText := do
  let tokens ← ahead
  let follows := tokens.startsGroup .paren
    || (tokens.startsOp [':', ':'] && tokens.behind.behind.startsGroup .paren)
  if p.open? && follows then do
    let arguments ← functionArguments g
    pure { p with arguments, last := .parenthesised, plain := false }
  else pure p

/-- Segments behind a path, each after double colons, at most `bound` of them. -/
def moreSegments (segment : Parser PathText) (stop : Tokens → Bool) :
    Nat → PathText → Parser PathText
  | 0, p => pure p
  | bound + 1, p => do
      let tokens ← ahead
      if tokens.startsOp [':', ':'] && !stop tokens then do
        let colons ← op "::"
        let q ← segment
        moreSegments segment stop bound (p.extend q colons)
      else pure p

/-- An argument in angle brackets, and whether it is a lifetime. -/
def genericArgument (g : Grammar) : Parser (Bool × Tokens) := do
  let tokens ← ahead
  if tokens.startsLifetime && !tokens.behind.startsOp ['+'] then do
    let l ← lifetime
    pure (true, l)
  else if tokens.startsLiteral || tokens.startsGroup .brace then do
    let c ← constArgument g
    pure (false, c)
  else do
    let t ← g.type true
    if t.form = .path true then do
      if ← peekOp "=" then do
        let equals ← op "="
        let tokens ← ahead
        let value ← (do
          if tokens.startsLiteral || tokens.startsGroup .brace then constArgument g
          else g.anyType)
        pure (false, t.tokens ++ equals ++ value)
      else if ← peekOp ":" then do
        let colon ← op ":"
        let bounds ← joined (do
          pure ((← peekOp ",") || (← peekOp ">"))) "+" (g.bound true)
        pure (false, t.tokens ++ colon ++ bounds)
      else pure (false, t.tokens)
    else pure (false, t.tokens)

/-- Arguments in angle brackets, and whether there are none. -/
def angledArguments (g : Grammar) : Parser (Tokens × Bool) := do
  let colons ← opIf "::"
  let opening ← op "<"
  let arguments ← dividedUntil (peekOp ">") "," (genericArgument g)
  let closing ← op ">"
  let items := arguments.map fun ((isLifetime, t), comma) => (isLifetime, t, comma)
  pure (colons ++ opening ++ lifetimesFirst items ++ closing, items.isEmpty)

/-- A segment of a path.  In an expression, arguments need double colons before them. -/
def segment (g : Grammar) (inExpression : Bool) : Parser PathText := do
  let tokens ← ahead
  if tokens.startsWord "super" || tokens.startsWord "self" || tokens.startsWord "crate"
      || tokens.startsWord "try" then do
    let w ← anyWord
    pure (.one w [] .none)
  else do
    let w ← (do
      if tokens.startsWord "Self" then anyWord else name)
    let tokens ← ahead
    if (!inExpression && tokens.startsOp ['<'] && !tokens.startsOp ['<', '=']
          && !tokens.startsOp ['<', '<', '='])
        || (tokens.startsOp [':', ':'] && tokens.behind.behind.startsOp ['<']) then do
      let (arguments, empty) ← angledArguments g
      pure (.one w arguments (.angled empty))
    else pure (.one w [] .none)

/-- A path without a qualified type in front. -/
def path (g : Grammar) (inExpression : Bool) : Parser PathText := do
  let leading ← opIf "::"
  let first ← segment g inExpression
  let start := { first with stem := leading ++ first.stem, leading := !leading.isEmpty }
  let tokens ← ahead
  moreSegments (segment g inExpression) (fun t => t.behind.behind.startsGroup .paren)
    (tokens.length + 1) start

/-- A path, perhaps with a qualified type in front. -/
def qualifiedPath (g : Grammar) (inExpression : Bool) : Parser PathText := do
  if ← peekOp "<" then do
    let opening ← op "<"
    let self ← g.anyType
    let role ← (do
      if ← peekWord "as" then do
        let keyword ← word "as"
        let p ← path g false
        pure (keyword ++ p.tokens)
      else pure [])
    let closing ← op ">"
    let colons ← op "::"
    let first ← segment g inExpression
    let start := { first with
      stem := opening ++ self ++ role ++ closing ++ colons ++ first.stem
      qualified := true }
    let tokens ← ahead
    moreSegments (segment g inExpression) (fun _ => false) (tokens.length + 1) start
  else path g inExpression

/-- The mark of a constant trait, if it is ahead and allowed: whether there is one. -/
def constancy (allowConst : Bool) : Parser Bool := do
  let (mark, message) ← (do
    if ← peekGroup .bracket then do
      let tokens ← grouped .bracket (word "const")
      pure (tokens, "`[const]` is not allowed here")
    else do
      let tokens ← wordIf "const"
      pure (tokens, "`const` is not allowed here"))
  if !mark.isEmpty && !allowConst then failAt mark.extent message
  else pure !mark.isEmpty

/-- A trait with its modifiers; nothing for a constant trait, which is kept as written. -/
def traitBound (g : Grammar) (allowConst : Bool) : Parser (Option Tokens) := do
  let before ← binder g
  let constant ← constancy allowConst
  let maybe ← opIf "?"
  let more ← (do
    if before.isEmpty && !maybe.isEmpty then binder g else pure [])
  let p ← path g false
  let p ← withFunctionArguments g p
  if !maybe.isEmpty && (!before.isEmpty || !more.isEmpty) then
    failAt maybe.extent "`for<...>` binder not allowed with `?` trait polarity modifier"
  else if constant then pure none
  else pure (some (before ++ maybe ++ p.tokens))

/-- The captured parameters of `use<...>` behind a first bracket, each with the comma behind it and
whether it is a lifetime; at most `bound` of them. -/
def capturedUpTo : Nat → Parser (List (Bool × Tokens × Tokens))
  | 0 => pure []
  | bound + 1 => do
      let tokens ← ahead
      if tokens.startsLifetime || tokens.startsName || tokens.startsWord "Self" then do
        let t ← (do
          if tokens.startsLifetime then lifetime
          else do
            let w ← anyWord
            pure [w])
        if ← peekOp "," then do
          let comma ← op ","
          let rest ← capturedUpTo bound
          pure ((tokens.startsLifetime, t, comma) :: rest)
        else if ← peekOp ">" then pure [(tokens.startsLifetime, t, [])]
        else expected [.op ",", .op ">"]
      else if tokens.startsOp ['>'] then pure []
      else expected [.lifetime, .name, .op ">"]

/-- The captured parameters of `use<...>`. -/
def preciseCapture : Parser Tokens := do
  let keyword ← word "use"
  let opening ← op "<"
  let tokens ← ahead
  let parameters ← capturedUpTo (tokens.length + 1)
  let closing ← op ">"
  pure (keyword ++ opening ++ lifetimesFirst parameters ++ closing)

/-- A bound: a lifetime, a capture where it is allowed, or a trait, perhaps in parentheses. -/
def boundTokens (g : Grammar) (allowCapture allowConst : Bool) : Parser Tokens := do
  if ← peek .lifetime then lifetime
  else if ← peekWord "use" then do
    let capture ← preciseCapture
    if allowCapture then pure capture
    else failAt capture.extent "`use<...>` precise capturing syntax is not allowed here"
  else do
    let start ← get
    let t ← (do
      if ← peekGroup .paren then do
        let (t, span) ← group .paren (traitBound g allowConst)
        pure (t.map fun tokens => [Token.group .paren tokens span])
      else traitBound g allowConst)
    match t with
    | some tokens => pure tokens
    | none => since start

/-- Whether a bound is ahead behind a plus sign. -/
def boundAhead (allowConst : Bool) : Parser Bool := do
  let tokens ← ahead
  pure (tokens.startsAnyWord || tokens.startsOp [':', ':'] || tokens.startsOp ['?']
    || tokens.startsLifetime || tokens.startsGroup .paren
    || (allowConst && tokens.startsGroup .bracket))

/-- Bounds joined by plus signs, at most `bound` of them. -/
def boundListUpTo (g : Grammar) (allowPlus allowCapture allowConst : Bool) :
    Nat → Parser (List BoundText)
  | 0 => pure []
  | bound + 1 => do
      let tokens ← ahead
      let isTrait := !tokens.startsLifetime && !tokens.startsWord "use"
      let t ← boundTokens g allowCapture allowConst
      if allowPlus && (← peekOp "+") then do
        let plus ← op "+"
        if ← boundAhead allowConst then do
          let rest ← boundListUpTo g allowPlus allowCapture allowConst bound
          pure (⟨isTrait, t, plus⟩ :: rest)
        else pure [⟨isTrait, t, plus⟩]
      else pure [⟨isTrait, t, []⟩]

/-- Bounds joined by plus signs. -/
def boundList (g : Grammar) (allowPlus allowCapture allowConst : Bool) :
    Parser (List BoundText) := do
  let tokens ← ahead
  boundListUpTo g allowPlus allowCapture allowConst (tokens.length + 1)

end Grammar

end KeyedCoding
