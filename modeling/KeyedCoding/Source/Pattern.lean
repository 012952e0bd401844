import KeyedCoding.Source.Path

/-!
# Patterns

A pattern is read by its first tokens; what is kept of it is its tokens and, where the place of the
pattern needs to know, which form it has.  Alternatives divided by bars are a level of their own,
and the end of a range may be missing where nothing can follow it.
-/

namespace KeyedCoding

namespace Grammar

open KeyedCoding.Parser

/-- Whether alternatives go on. -/
def barAhead (tokens : Tokens) : Bool :=
  tokens.startsOp ['|'] && !tokens.startsOp ['|', '|'] && !tokens.startsOp ['|', '=']

/-- A pattern with alternatives, perhaps with a bar in front. -/
def alternativesStep (g : Grammar) : Parser PatternText := do
  let leading ← opIf "|"
  let first ← g.pattern
  if leading.isEmpty && !barAhead (← ahead) then pure first
  else do
    let rest ← manyWhile (do pure (barAhead (← ahead))) (do
      let bar ← op "|"
      let p ← g.onePattern
      pure (bar ++ p))
    pure (.plain (leading ++ first.tokens ++ rest))

/-- Whether a range pattern has no end here. -/
def rangeEnds (tokens : Tokens) : Bool :=
  tokens.isEmpty || tokens.startsOp ['|'] || tokens.startsOp ['=']
    || (tokens.startsOp [':'] && !tokens.startsOp [':', ':']) || tokens.startsOp [',']
    || tokens.startsOp [';'] || tokens.startsWord "if"

/-- Whether a path is ahead. -/
def pathAhead (tokens : Tokens) : Bool :=
  tokens.startsName || tokens.startsOp [':', ':'] || tokens.startsOp ['<']
    || tokens.startsWord "self" || tokens.startsWord "Self" || tokens.startsWord "super"
    || tokens.startsWord "crate"

/-- A block of constants; it may hold attributes. -/
def constantPattern (g : Grammar) : Parser PatternText := do
  let keyword ← word "const"
  let ((inner, body), span) ← group .brace (do
    let inner ← innerTokens g
    let body ← g.statements
    pure (inner, body))
  pure ⟨.constant (keyword ++ [.group .brace body span]),
    keyword ++ [.group .brace (inner ++ body) span]⟩

/-- A bound of a range pattern, if there is one. -/
def rangeBound (g : Grammar) : Parser (Option PatternText) := do
  let tokens ← ahead
  if rangeEnds tokens then pure none
  else if tokens.startsLiteral then do
    let t ← literal
    pure (some (.plain [t]))
  else if pathAhead tokens then do
    let p ← qualifiedPath g true
    pure (some (.plain p.tokens))
  else if tokens.startsWord "const" then do
    let p ← constantPattern g
    pure (some p)
  else expected [.literal, .name, .op "::", .op "<", .word "self", .word "Self", .word "super",
    .word "crate", .word "const"]

/-- The dots of a range and whether they include the end. -/
def rangeDots (obsolete : Bool) : Parser (Tokens × Bool) := do
  if ← peekOp "..=" then do
    let dots ← op "..="
    pure (dots, true)
  else if obsolete && (← peekOp "...") then do
    let _ ← op "..."
    pure (Make.op "..=", true)
  else if (← peekOp "..") && !(← peekOp "...") then do
    let dots ← op ".."
    pure (dots, false)
  else expected [.op "..", .op "..="]

/-- The dots and the end of a range pattern behind its start, if it has one. -/
def rangeRest (g : Grammar) (start : Tokens) : Parser PatternText := do
  let (dots, closed) ← rangeDots !start.isEmpty
  match ← rangeBound g with
  | some finish =>
      pure ⟨if start.isEmpty then .halfRange dots.extent else .other,
        start ++ dots ++ finish.tokens⟩
  | none =>
      if closed then failHere "expected range upper bound"
      else pure ⟨if start.isEmpty then .other else .halfRange dots.extent, start ++ dots⟩

/-- A member of a record: a name or an index, which is printed in decimal. -/
def member : Parser Token := do
  let tokens ← ahead
  let input ← get
  if tokens.startsName then name
  else if tokens.startsLiteral then do
    match ← literal with
    | .literal text span =>
        if LiteralText.kind text = .int then
          match LiteralText.index text with
          | .ok n => pure (.literal (toString n) span)
          | .error fault => failAt span fault.message
        else do
          set input
          failHere "expected identifier or integer"
    | _ => do
        set input
        failHere "expected identifier or integer"
  else failHere "expected identifier or integer"

/-- A field of a record pattern behind its attributes. -/
def fieldPattern (g : Grammar) (attributes : Tokens) : Parser Tokens := do
  let boxed ← wordIf "box"
  let byReference ← wordIf "ref"
  let mutable ← wordIf "mut"
  let modifiers := boxed ++ byReference ++ mutable
  if modifiers.isEmpty then do
    let m ← member
    let named := match m with
      | .ident _ _ => true
      | _ => false
    if !named || (← peekOp ":") then do
      let colon ← op ":"
      let p ← g.anyPattern
      pure (attributes ++ [m] ++ colon ++ p)
    else pure (attributes ++ [m])
  else do
    let m ← name
    pure (attributes ++ modifiers ++ [m])

/-- The fields of a record pattern up to its end or two dots, at most `bound` of them. -/
def fieldPatternsUpTo (g : Grammar) : Nat → Parser Tokens
  | 0 => pure []
  | bound + 1 => do
      if ← atEnd then pure []
      else do
        let attributes ← outerTokens g
        if ← peekOp ".." then do
          let dots ← op ".."
          pure (attributes ++ dots)
        else do
          let f ← fieldPattern g attributes
          if ← atEnd then pure f
          else do
            let comma ← op ","
            let rest ← fieldPatternsUpTo g bound
            pure (f ++ comma ++ rest)

/-- The fields of a record pattern. -/
def fieldPatterns (g : Grammar) : Parser Tokens := do
  let tokens ← ahead
  fieldPatternsUpTo g (tokens.length + 1)

/-- A pattern that starts with a path. -/
def pathPattern (g : Grammar) : Parser PatternText := do
  let p ← qualifiedPath g true
  let tokens ← ahead
  if !p.qualified && tokens.startsOp ['!'] && !tokens.startsOp ['!', '='] && p.plain then do
    let bang ← op "!"
    let body ← anyGroup
    pure (.plain (p.tokens ++ bang ++ [body]))
  else if tokens.startsGroup .brace then do
    let body ← grouped .brace (fieldPatterns g)
    pure (.plain (p.tokens ++ body))
  else if tokens.startsGroup .paren then do
    let body ← grouped .paren (terminatedTokens g.anyPattern)
    pure (.plain (p.tokens ++ body))
  else if tokens.startsOp ['.', '.'] then rangeRest g p.tokens
  else pure (.plain p.tokens)

/-- A pattern that binds a name. -/
def namePattern (g : Grammar) : Parser Tokens := do
  let byReference ← wordIf "ref"
  let mutable ← wordIf "mut"
  let t ← (do
    if ← peekWord "self" then anyWord else name)
  if ← peekOp "@" then do
    let mark ← op "@"
    let p ← g.onePattern
    pure (byReference ++ mutable ++ [t] ++ mark ++ p)
  else pure (byReference ++ mutable ++ [t])

/-- An item of a slice pattern.  A range without start or end needs parentheses there. -/
def slicePart (g : Grammar) : Parser Tokens := do
  let p ← g.alternatives
  match p.form with
  | .halfRange dots =>
      failAt dots "range pattern is not allowed unparenthesized inside slice pattern"
  | _ => pure p.tokens

/-- A pattern for what is boxed, kept as it was written. -/
def boxPattern (g : Grammar) : Parser PatternText := do
  let start ← get
  let _ ← word "box"
  let _ ← g.pattern
  let tokens ← since start
  pure ⟨.verbatim, tokens⟩

/-- A literal, a block of constants or a range that starts with one of them. -/
def valuePattern (g : Grammar) : Parser PatternText := do
  match ← rangeBound g with
  | some start => if ← peekOp ".." then rangeRest g start.tokens else pure start
  | none => unexpected

/-- What may start a pattern, in the order in which messages name it. -/
def patternStarts : List Peek :=
  [.name, .op "::", .op "<", .word "_", .literal, .word "const", .word "ref", .word "mut", .op "&",
    .group .paren, .group .bracket, .op "..", .word "const"]

/-- A pattern without alternatives. -/
def patternStep (g : Grammar) : Parser PatternText := do
  let tokens ← ahead
  let second := tokens.behind
  let plainly := fun (p : Parser Tokens) => do
    let t ← p
    pure (PatternText.plain t)
  if (tokens.startsName
        && (second.startsOp [':', ':'] || second.startsOp ['!'] || second.startsGroup .brace
          || second.startsGroup .paren || second.startsOp ['.', '.']))
      || (tokens.startsWord "self" && second.startsOp [':', ':'])
      || tokens.startsOp [':', ':'] || tokens.startsOp ['<'] || tokens.startsWord "Self"
      || tokens.startsWord "super" || tokens.startsWord "crate" then pathPattern g
  else if tokens.startsWord "_" then plainly (word "_")
  else if tokens.startsWord "box" then boxPattern g
  else if tokens.startsOp ['-'] || tokens.startsLiteral || tokens.startsWord "const" then
    valuePattern g
  else if tokens.startsWord "ref" || tokens.startsWord "mut" || tokens.startsWord "self"
      || tokens.startsName then plainly (namePattern g)
  else if tokens.startsOp ['&'] then
    plainly (do
      let ampersand ← op "&"
      let mutable ← wordIf "mut"
      let p ← g.onePattern
      pure (ampersand ++ mutable ++ p))
  else if tokens.startsGroup .paren then plainly (grouped .paren (terminatedTokens g.anyPattern))
  else if tokens.startsGroup .bracket then
    plainly (grouped .bracket (terminatedTokens (slicePart g)))
  else if tokens.startsOp ['.', '.'] && !tokens.startsOp ['.', '.', '.'] then rangeRest g []
  else expected patternStarts

end Grammar

end KeyedCoding
