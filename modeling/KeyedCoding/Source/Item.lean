import KeyedCoding.Source.Item.Member

/-!
# Whole items

Which item is ahead shows in the words behind its attributes and its visibility.  An item that no
form of its kind covers is kept as it was written, attributes and visibility included.
-/

namespace KeyedCoding

namespace Grammar

open KeyedCoding.Parser

/-- The tree of a use declaration. -/
def useTreeStep (g : Grammar) (allowRoot : Bool) : Parser (Option Tokens) := do
  let tokens ← ahead
  if tokens.startsName || tokens.startsWord "self" || tokens.startsWord "super"
      || tokens.startsWord "crate" || tokens.startsWord "try" then do
    let w ← anyWord
    if ← peekOp "::" then do
      let colons ← op "::"
      let rest ← g.useTree false
      pure (rest.map fun t => w :: colons ++ t)
    else if ← peekWord "as" then do
      let keyword ← word "as"
      if (← peek .name) || (← peekWord "_") then do
        let t ← anyWord
        pure (some (w :: keyword ++ [t]))
      else failHere "expected identifier or underscore"
    else pure (some [w])
  else if tokens.startsOp ['*'] then do
    let star ← op "*"
    pure (some star)
  else if tokens.startsGroup .brace then do
    let (trees, span) ← group .brace (terminated (do
      let root ← (do
        if allowRoot then opIf "::" else pure [])
      let tree ← g.useTree (allowRoot && root.isEmpty)
      pure (if root.isEmpty then tree else none)))
    pure (if trees.any fun (t, _) => t.isNone then none
      else some [.group .brace (trees.flatMap fun (t, comma) => t.getD [] ++ comma) span])
  else expected [.name, .word "self", .word "super", .word "crate", .word "try", .op "*",
    .group .brace]

/-- A plain item with the attributes found in it. -/
def plainItem (kind : PlainKind) (t : Option Token) (lead : Tokens)
    (body : Option ((List Attribute × Tokens) × Span)) : List Attribute × ItemBody :=
  match body with
  | some ((inner, content), span) => (inner, .plain kind t lead (some (content, span)))
  | none => ([], .plain kind t lead none)

/-- A trait behind its visibility. -/
def traitItem (g : Grammar) : Parser (List Attribute × ItemBody) := do
  let unchecked ← wordIf "unsafe"
  let auto ← wordIf "auto"
  let keyword ← word "trait"
  let t ← name
  let generics ← genericParameters g
  let start := unchecked ++ auto ++ keyword ++ t :: generics.declared
  let tokens ← ahead
  if unchecked.isEmpty && auto.isEmpty && tokens.startsOp ['='] then do
    let equals ← op "="
    let stop : Parser Bool := do
      pure ((← peekWord "where") || (← peekOp ";"))
    let bounds ← dividedUntil stop "+" (boundTokens g false false)
    let conditions ← whereTokens g
    let semicolon ← op ";"
    pure (plainItem .other none (start ++ equals
      ++ bounds.flatMap (fun (b, plus) => b ++ plus) ++ conditions ++ semicolon) none)
  else if unchecked.isEmpty && auto.isEmpty && !tokens.startsGroup .brace
      && !tokens.startsOp [':'] && !tokens.startsWord "where" then
    expected [.group .brace, .op ":", .word "where", .op "="]
  else do
    let colon ← opIf ":"
    let stop : Parser Bool := do
      pure ((← peekWord "where") || (← peekGroup .brace))
    let bounds ← (do
      if colon.isEmpty then pure []
      else dividedUntil stop "+" (boundTokens g false true))
    let conditions ← whereTokens g
    let body ← bodyOf g (traitMember g)
    let supers := if bounds.isEmpty then [] else colon ++ bounds.flatMap fun (b, plus) => b ++ plus
    pure (plainItem .trait (some t) (start ++ supers ++ conditions) (some body))

/-- An implementation behind its attributes; nothing if it is only kept as written. -/
def implementationItem (g : Grammar) : Parser (Option (List Attribute × ItemBody)) := do
  let visible ← visibility
  let preset ← wordIf "default"
  let unchecked ← wordIf "unsafe"
  let keyword ← word "impl"
  let generics ← (do
    if parametersAhead (← ahead) then genericParameters g else pure .none)
  let tokens ← ahead
  let constant := tokens.startsWord "const"
    || (tokens.startsOp ['?'] && tokens.behind.startsWord "const")
  if constant then do
    let _ ← opIf "?"
    let _ ← word "const"
  let tokens ← ahead
  let polarity ← (do
    if tokens.startsOp ['!'] && !tokens.behind.startsGroup .brace then op "!" else pure [])
  let first ← g.type true
  let (subject, traitless) ← (do
    if ← peekWord "for" then do
      let link ← word "for"
      let self ← g.anyType
      let isPath := match first.form with
        | .path _ => true
        | _ => false
      pure (polarity ++ first.tokens ++ link ++ self, !isPath)
    else if polarity.isEmpty then pure (first.tokens, false)
    else failAt polarity.extent "inherent impls cannot be negative")
  let conditions ← whereTokens g
  let body ← bodyOf g (implementationMember g)
  if !visible.isEmpty || constant || traitless then pure none
  else
    pure (some (plainItem .implementation none
      (preset ++ unchecked ++ keyword ++ generics.declared ++ subject ++ conditions) (some body)))

/-- A module behind its visibility. -/
def moduleItem (g : Grammar) : Parser (List Attribute × ItemBody) := do
  let unchecked ← wordIf "unsafe"
  let keyword ← word "mod"
  let t ← (do
    if ← peekWord "try" then anyWord else name)
  let start := unchecked ++ keyword ++ [t]
  if ← peekOp ";" then do
    let semicolon ← op ";"
    pure (plainItem .other none (start ++ semicolon) none)
  else if ← peekGroup .brace then do
    let body ← bodyOf g g.item
    pure (plainItem .other none start (some body))
  else expected [.op ";", .group .brace]

/-- A foreign module. -/
def foreignItem (g : Grammar) : Parser (List Attribute × ItemBody) := do
  let unchecked ← wordIf "unsafe"
  let convention ← (do
    if ← peekWord "extern" then callingConvention else word "extern")
  let body ← bodyOf g (foreignMember g)
  pure (plainItem .other none (unchecked ++ convention) (some body))

/-- A foreign crate behind its visibility. -/
def crateItem : Parser (List Attribute × ItemBody) := do
  let outside ← word "extern"
  let keyword ← word "crate"
  let t ← (do
    if ← peekWord "self" then anyWord else name)
  let rename ← (do
    if ← peekWord "as" then do
      let link ← word "as"
      let t ← (do
        if ← peekWord "_" then anyWord else name)
      pure (link ++ [t])
    else pure [])
  let semicolon ← op ";"
  pure (plainItem .other none (outside ++ keyword ++ t :: (rename ++ semicolon)) none)

/-- A static variable behind its visibility; nothing if it has no type or no value. -/
def staticItem (g : Grammar) : Parser (Option (List Attribute × ItemBody)) := do
  let keyword ← word "static"
  let mutable ← wordIf "mut"
  let t ← name
  if ← peekOp "=" then do
    let _ ← op "="
    let _ ← g.anyExpression
    let _ ← op ";"
    pure none
  else do
    let colon ← op ":"
    let type ← g.anyType
    if ← peekOp ";" then do
      let _ ← op ";"
      pure none
    else do
      let equals ← op "="
      let value ← g.anyExpression
      let semicolon ← op ";"
      pure (some (plainItem .other none
        (keyword ++ mutable ++ t :: (colon ++ type ++ equals ++ value ++ semicolon)) none))

/-- A use declaration behind its visibility; nothing if its tree has a path from the root. -/
def useItem (g : Grammar) : Parser (Option (List Attribute × ItemBody)) := do
  let keyword ← word "use"
  let leading ← opIf "::"
  let tree ← g.useTree leading.isEmpty
  let semicolon ← op ";"
  pure (tree.map fun t => plainItem .other none (keyword ++ leading ++ t ++ semicolon) none)

/-- The definition of a macro by a keyword. -/
def definitionItem : Parser Unit := do
  let _ ← word "macro"
  let _ ← name
  let hasParameters ← peekGroup .paren
  if hasParameters then do
    let _ ← anyToken
  if ← peekGroup .brace then do
    let _ ← anyToken
  else expected (if hasParameters then [.group .brace] else [.group .paren, .group .brace])

/-- What may start an item behind its visibility. -/
def itemStarts : List Peek :=
  [.word "fn", .word "extern", .word "use", .word "static", .word "const", .word "unsafe",
    .word "mod", .word "type", .word "struct", .word "enum", .word "union", .word "trait",
    .word "auto", .word "impl", .word "default", .word "macro"]

/-- A function item behind its visibility; nothing if it has no body. -/
def functionItem (g : Grammar) : Parser (Option (List Attribute × ItemBody)) := do
  let (t, sig) ← signature g
  if ← peekOp ";" then do
    let _ ← op ";"
    pure none
  else do
    let body ← functionBody g
    pure (some (plainItem .function (some t) sig (some body)))

/-- A type alias; nothing if it is only kept as written. -/
def aliasItem (g : Grammar) : Parser (Option (List Attribute × ItemBody)) := do
  let a ← aliasParts g false .beforeDefinition
  if a.definition.isEmpty || !a.colon.isEmpty then pure none
  else
    pure (some (plainItem .other none (a.keyword ++ a.name :: (a.generics.declared
      ++ a.generics.conditionTokens ++ a.definition ++ a.semicolon)) none))

/-- The parts of an item behind its visibility, chosen by the words ahead; nothing for an item
that is only kept as written.  `before` is the input with the visibility. -/
def itemParts (g : Grammar) (before : Input) (visible : Tokens) :
    Parser (Option (List Attribute × ItemBody)) := do
  let tokens ← ahead
  let second := tokens.behind
  let kept := fun (p : Parser ItemBody) => do
    let b ← p
    pure (some (([] : List Attribute), b))
  if ← signatureAhead false then functionItem g
  else if tokens.startsWord "extern" then
    if second.startsWord "crate" then do
      let i ← crateItem
      pure (some i)
    else if second.startsGroup .brace then do
      set before
      let i ← foreignItem g
      pure (some i)
    else do
      let _ ← word "extern"
      let convention ← stringIf
      if convention.isEmpty then
        expected [.word "crate", .group .brace, ⟨"string literal", fun _ => false⟩]
      else if ← peekGroup .brace then do
        set before
        let i ← foreignItem g
        pure (some i)
      else expected [.group .brace]
  else if tokens.startsWord "use" then useItem g
  else if tokens.startsWord "static" then staticItem g
  else if tokens.startsWord "const" then do
    let t ← constParts g true
    pure (t.map fun t => plainItem .other none t none)
  else if tokens.startsWord "unsafe" then
    if second.startsWord "trait"
        || (second.startsWord "auto" && second.behind.startsWord "trait") then do
      let i ← traitItem g
      pure (some i)
    else if second.startsWord "impl" then do
      set before
      implementationItem g
    else if second.startsWord "extern" then do
      set before
      let i ← foreignItem g
      pure (some i)
    else if second.startsWord "mod" then do
      let i ← moduleItem g
      pure (some i)
    else do
      let _ ← word "unsafe"
      expected [.word "trait", .word "auto", .word "impl", .word "extern", .word "mod"]
  else if tokens.startsWord "mod" then do
    let i ← moduleItem g
    pure (some i)
  else if tokens.startsWord "type" then aliasItem g
  else if tokens.startsWord "struct" then kept (structItem g)
  else if tokens.startsWord "enum" then kept (enumItem g)
  else if tokens.startsWord "union" && second.startsName then kept (unionItem g)
  else if tokens.startsWord "trait"
      || (tokens.startsWord "auto" && second.startsWord "trait") then do
    let i ← traitItem g
    pure (some i)
  else if tokens.startsWord "impl"
      || (tokens.startsWord "default" && !second.startsOp ['!']) then do
    set before
    implementationItem g
  else if tokens.startsWord "macro" then do
    definitionItem
    pure none
  else if visible.isEmpty && invocationAhead tokens then do
    let t ← invocationItem
    pure (some (plainItem .other none t none))
  else expected (itemStarts ++ if visible.isEmpty then invocationStarts else [])

/-- An item behind its attributes; `start` is the input with them. -/
def itemAfter (g : Grammar) (start : Input) (attributes : List Attribute) : Parser Item := do
  let before ← get
  let visible ← visibility
  match ← itemParts g before visible with
  | some (inner, body) => pure ⟨attributes ++ inner, visible, body⟩
  | none => do
      let tokens ← since start
      pure (.verbatim tokens)

/-- An item. -/
def fullItem (g : Grammar) : Parser Item := do
  let start ← get
  let attributes ← outerAttributes g
  itemAfter g start attributes

/-- An item as tokens. -/
def itemStep (g : Grammar) : Parser Tokens := do
  let item ← fullItem g
  pure item.tokens

end Grammar

end KeyedCoding
