import KeyedCoding.Source.Path

/-!
# Types

What is kept of a type is its tokens and, where a bound or a qualified path needs to know, which
form it has.  Bounds joined by plus signs are read only where the place of the type admits them.
-/

namespace KeyedCoding

/-- A type without further structure. -/
def TypeText.plain (tokens : Tokens) : TypeText := ⟨.other, tokens⟩

namespace Grammar

open KeyedCoding.Parser

/-- Bounds behind a first one, as long as plus signs follow; each counts. -/
def plusBounds (g : Grammar) : Parser Tokens :=
  manyWhile (peekOp "+") (do
    let plus ← op "+"
    let t ← boundTokens g false false
    pure (plus ++ t))

/-- Further bounds behind a path, where the last plus sign may stand alone. -/
def looseBoundsUpTo (g : Grammar) : Nat → Parser (Nat × Tokens)
  | 0 => pure (0, [])
  | bound + 1 => do
      if ← peekOp "+" then do
        let plus ← op "+"
        let tokens ← ahead
        if tokens.startsAnyWord || tokens.startsOp [':', ':'] || tokens.startsOp ['?']
            || tokens.startsLifetime || tokens.startsGroup .paren then do
          let t ← boundTokens g false false
          let (n, rest) ← looseBoundsUpTo g bound
          pure (n + 1, plus ++ t ++ rest)
        else pure (1, plus)
      else pure (0, [])

/-- Further bounds behind a path. -/
def looseBounds (g : Grammar) : Parser (Nat × Tokens) := do
  let tokens ← ahead
  looseBoundsUpTo g (tokens.length + 1)

/-- What the parentheses of a type turned out to hold. -/
inductive Enclosed where
  | unit
  | lifetimes (bounds : Tokens)
  | relaxed (bound : Tokens)
  | tuple (items : Tokens)
  | one (type : TypeText)

/-- Bounds that need a trait among them; `start` is where their absence is reported. -/
def objectBounds (g : Grammar) (start : Span) (allowPlus allowCapture allowConst : Bool)
    (message : String) : Parser Tokens := do
  let bounds ← boundList g allowPlus allowCapture allowConst
  if bounds.any BoundText.isTrait then pure (bounds.flatMap fun b => b.tokens ++ b.plus)
  else failAt (start.join (Tokens.extent (bounds.flatMap BoundText.tokens))) message

/-- The message for a trait object without a trait. -/
def noTrait : String := "at least one trait is required for an object type"

/-- The content of the parentheses of a type. -/
def enclosed (g : Grammar) : Parser Enclosed := do
  let tokens ← ahead
  if tokens.isEmpty then pure .unit
  else if tokens.startsLifetime then do
    let start := Tokens.extent (tokens.take 1)
    let bounds ← objectBounds g start true false false noTrait
    pure (.lifetimes bounds)
  else if tokens.startsOp ['?'] then do
    let t ← traitBound g false
    pure (.relaxed (t.getD []))
  else do
    let first ← g.type true
    if ← peekOp "," then do
      let comma ← op ","
      let rest ← terminatedTokens g.anyType
      pure (.tuple (first.tokens ++ comma ++ rest))
    else pure (.one first)

/-- A type that starts with parentheses. -/
def enclosedType (g : Grammar) (allowPlus : Bool) : Parser TypeText := do
  let (content, span) ← group .paren (enclosed g)
  let wrap := fun (body : Tokens) => [Token.group .paren body span]
  match content with
  | .unit => pure (.plain (wrap []))
  | .lifetimes bounds => pure (.plain (wrap bounds))
  | .relaxed bound => do
      let rest ← plusBounds g
      pure (.plain (wrap bound ++ rest))
  | .tuple items => pure (.plain (wrap items))
  | .one t => do
      let joins := match t.form with
        | .path _ => true
        | .bounds n => n ≤ 1
        | .other => false
      if allowPlus && joins && (← peekOp "+") then do
        let rest ← plusBounds g
        pure (.plain (wrap t.tokens ++ rest))
      else pure (.plain (wrap t.tokens))

/-- The calling convention behind `extern`, if there is one. -/
def stringIf : Parser Tokens := do
  match ← ahead with
  | .literal text _ :: _ =>
      if LiteralText.kind text = .string then do
        let t ← anyToken
        pure [t]
      else pure []
  | _ => pure []

/-- `extern` with its calling convention, if it is ahead. -/
def callingConvention : Parser Tokens := do
  if ← peekWord "extern" then do
    let keyword ← word "extern"
    let convention ← stringIf
    pure (keyword ++ convention)
  else pure []

/-- The result type of a function. -/
def returnType (g : Grammar) (allowPlus : Bool) : Parser Tokens := do
  if ← peekOp "->" then do
    let arrow ← op "->"
    let t ← g.type allowPlus
    pure (arrow ++ t.tokens)
  else pure []

/-- Whether the tokens start with a name or underscore and a single colon. -/
def labelAhead (allowSelf : Bool) (tokens : Tokens) : Bool :=
  (tokens.startsName || tokens.startsWord "_" || (allowSelf && tokens.startsWord "self"))
    && tokens.behind.startsOp [':'] && !tokens.behind.startsOp [':', ':']

/-- Whether `mut self` is ahead. -/
def mutableSelfAhead (tokens : Tokens) : Bool :=
  tokens.startsWord "mut" && tokens.behind.startsWord "self"

/-- The name of a parameter and the colon behind it, if they are ahead. -/
def labelIf (allowSelf : Bool) : Parser Tokens := do
  if labelAhead allowSelf (← ahead) then do
    let w ← anyWord
    let colon ← op ":"
    pure (w :: colon)
  else pure []

/-- A parameter of a function type behind its attributes.  The first one may stand for the object
itself; with `mut` before `self` it is kept as it was written. -/
def functionTypeParameter (g : Grammar) (isFirst : Bool) : Parser Tokens := do
  let start ← get
  if isFirst && mutableSelfAhead (← ahead) then do
    let _ ← word "mut"
    let name ← labelIf true
    if name.isEmpty then do
      let _ ← word "self"
    else do
      let _ ← g.anyType
    since start
  else do
    let name ← labelIf isFirst
    let named := match name with
      | .ident word _ :: _ => word != "self"
      | _ => true
    if isFirst && named && mutableSelfAhead (← ahead) then do
      let _ ← word "mut"
      let _ ← word "self"
      since start
    else do
      let t ← g.anyType
      pure (name ++ t)

/-- Whether further parameters of any number are ahead. -/
def variadicAhead (tokens : Tokens) : Bool :=
  tokens.startsOp ['.', '.', '.']
    || ((tokens.startsName || tokens.startsWord "_") && tokens.behind.startsOp [':']
      && tokens.behind.behind.startsOp ['.', '.', '.'])

/-- The dots that stand for further parameters, perhaps with a name before and a comma behind. -/
def variadic : Parser Tokens := do
  let name ← labelIf false
  let dots ← op "..."
  let comma ← opIf ","
  pure (name ++ dots ++ comma)

/-- The parameters of a function type, at most `bound` of them.  Nothing follows the dots. -/
def functionTypeParametersUpTo (g : Grammar) : Nat → Bool → Parser Tokens
  | 0, _ => pure []
  | bound + 1, isFirst => do
      if ← atEnd then pure []
      else do
        let attributes ← outerTokens g
        if variadicAhead (← ahead) then do
          let t ← variadic
          pure (attributes ++ t)
        else do
          let t ← functionTypeParameter g isFirst
          if ← atEnd then pure (attributes ++ t)
          else do
            let comma ← op ","
            let rest ← functionTypeParametersUpTo g bound false
            pure (attributes ++ t ++ comma ++ rest)

/-- The parameters of a function type. -/
def functionTypeParameters (g : Grammar) : Parser Tokens := do
  let tokens ← ahead
  functionTypeParametersUpTo g (tokens.length + 1) true

/-- A function type. -/
def functionType (g : Grammar) : Parser Tokens := do
  let unchecked ← wordIf "unsafe"
  let convention ← callingConvention
  let keyword ← word "fn"
  let inputs ← grouped .paren (functionTypeParameters g)
  let output ← returnType g false
  pure (unchecked ++ convention ++ keyword ++ inputs ++ output)

/-- A type that starts with a path. -/
def pathType (g : Grammar) (allowPlus : Bool) (bindings : Tokens) : Parser TypeText := do
  let p ← qualifiedPath g false
  if p.qualified then pure (.plain p.tokens)
  else if (← peekOp "!") && !(← peekOp "!=") && p.plain then do
    let bang ← op "!"
    let body ← anyGroup
    pure (.plain (p.tokens ++ bang ++ [body]))
  else if !bindings.isEmpty || (allowPlus && (← peekOp "+")) then do
    let (n, rest) ← (do
      if allowPlus then looseBounds g else pure (0, []))
    pure ⟨.bounds (n + 1), bindings ++ p.tokens ++ rest⟩
  else
    let single := !p.leading && p.segments == 1
    pure ⟨.path single, p.tokens⟩

/-- What may follow `for<...>` in a type. -/
def afterBinder : List Peek :=
  [.name, .word "fn", .word "unsafe", .word "extern", .word "super", .word "self", .word "Self",
    .word "crate"]

/-- What may start a type. -/
def typeStarts : List Peek :=
  [.word "for", .group .paren, .word "fn", .word "unsafe", .word "extern", .name, .op "::",
    .op "<", .word "dyn", .group .bracket, .op "*", .op "&", .op "!", .word "impl", .word "_",
    .lifetime]

/-- An array or slice type. -/
def bracketedType (g : Grammar) : Parser Tokens :=
  grouped .bracket (do
    let item ← g.anyType
    if ← peekOp ";" then do
      let semicolon ← op ";"
      let size ← g.anyExpression
      pure (item ++ semicolon ++ size)
    else pure item)

/-- A pointer type. -/
def pointerType (g : Grammar) : Parser Tokens := do
  let star ← op "*"
  let mode ← (do
    if ← peekWord "const" then word "const"
    else if ← peekWord "mut" then word "mut"
    else expected [.word "const", .word "mut"])
  let t ← g.tightType
  pure (star ++ mode ++ t)

/-- A reference type. -/
def referenceType (g : Grammar) : Parser Tokens := do
  let ampersand ← op "&"
  let life ← lifetimeIf
  let mutable ← wordIf "mut"
  let t ← g.tightType
  pure (ampersand ++ life ++ mutable ++ t)

/-- Whether a form that only the compiler knows is ahead. -/
def builtinAhead (tokens : Tokens) : Bool :=
  tokens.startsWord "builtin" && tokens.behind.startsOp ['#']

/-- A form that only the compiler knows: a name and arguments that are not looked into. -/
def builtin : Parser Unit := do
  let _ ← word "builtin"
  let _ ← op "#"
  let _ ← name
  let _ ← verbatim .paren

/-- A trait object with its keyword; one with a star is kept as it was written. -/
def objectType (g : Grammar) (allowPlus : Bool) : Parser Tokens := do
  let start ← get
  let keyword ← word "dyn"
  let star ← opIf "*"
  let bounds ← objectBounds g keyword.extent allowPlus false false noTrait
  if star.isEmpty then pure (keyword ++ bounds) else since start

/-- A type; `allowPlus` allows bounds joined by plus signs. -/
def typeStep (g : Grammar) (allowPlus : Bool) : Parser TypeText := do
  let start ← get
  let bindings ← binder g
  if !bindings.isEmpty then do
    let tokens ← ahead
    if tokens.startsWord "dyn" || !(afterBinder.any fun p => p.holds tokens) then
      expected afterBinder
  let tokens ← ahead
  if tokens.startsGroup .paren then enclosedType g allowPlus
  else if tokens.startsWord "fn" || tokens.startsWord "unsafe" || tokens.startsWord "extern" then do
    let t ← functionType g
    pure (.plain (bindings ++ t))
  else if builtinAhead tokens then do
    builtin
    let t ← since start
    pure (.plain t)
  else if tokens.startsName || tokens.startsWord "super" || tokens.startsWord "self"
      || tokens.startsWord "Self" || tokens.startsWord "crate" || tokens.startsOp [':', ':']
      || tokens.startsOp ['<'] then pathType g allowPlus bindings
  else if tokens.startsWord "dyn" then do
    let t ← objectType g allowPlus
    pure (.plain t)
  else if tokens.startsGroup .bracket then do
    let t ← bracketedType g
    pure (.plain t)
  else if tokens.startsOp ['*'] then do
    let t ← pointerType g
    pure (.plain t)
  else if tokens.startsOp ['&'] then do
    let t ← referenceType g
    pure (.plain t)
  else if tokens.startsOp ['!'] then do
    let t ← op "!"
    pure (.plain t)
  else if tokens.startsWord "impl" then do
    let keyword ← word "impl"
    let bounds ← objectBounds g keyword.extent allowPlus true true
      "at least one trait must be specified"
    pure (.plain (keyword ++ bounds))
  else if tokens.startsWord "_" then do
    let t ← word "_"
    pure (.plain t)
  else if tokens.startsLifetime then do
    let start := Tokens.extent (tokens.take 1)
    let bounds ← objectBounds g start true false false noTrait
    pure ⟨.bounds 2, bounds⟩
  else expected typeStarts

end Grammar

end KeyedCoding
