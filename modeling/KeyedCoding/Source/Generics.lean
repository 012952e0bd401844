import KeyedCoding.Source.Type

/-!
# Generic parameters

The parameters of a declaration are printed in three ways: as declared, in front of an
implementation without their defaults, and behind the name of the type by name alone.  Lifetimes
come first in each.
-/

namespace KeyedCoding

/-- The kinds of generic parameters. -/
inductive ParameterKind where
  | lifetime
  | type
  | const
deriving DecidableEq, Repr

/-- A generic parameter with the tokens of its parts. -/
structure GenericParameter where
  kind : ParameterKind
  attributes : Tokens
  /-- The word before the name of a constant. -/
  keyword : Tokens
  name : Tokens
  colon : Tokens
  /-- Bounds, or the type of a constant. -/
  bounds : Tokens
  /-- The default with its equals sign. -/
  preset : Tokens
  /-- The comma behind the parameter, if there is one. -/
  comma : Tokens

/-- Conditions on types, each with the comma behind it. -/
structure WhereClause where
  keyword : Tokens
  predicates : List (Tokens × Tokens)

/-- The generic parameters of a declaration. -/
structure Generics where
  opening : Tokens
  parameters : List GenericParameter
  closing : Tokens
  condition : Option WhereClause

namespace GenericParameter

/-- The parameter without its default. -/
def bounded (p : GenericParameter) : Tokens :=
  p.attributes ++ p.keyword ++ p.name ++ (if p.bounds.isEmpty then [] else p.colon ++ p.bounds)

/-- The parameter as declared. -/
def declared (p : GenericParameter) : Tokens := p.bounded ++ p.preset

end GenericParameter

namespace WhereClause

/-- The conditions with their commas. -/
def conditions (w : WhereClause) : Tokens := w.predicates.flatMap fun (t, comma) => t ++ comma

/-- The clause; one without conditions vanishes. -/
def tokens (w : WhereClause) : Tokens :=
  if w.predicates.isEmpty then [] else w.keyword ++ w.conditions

/-- The clause with further conditions behind its own. -/
def adding (w : WhereClause) (more : List Tokens) : WhereClause :=
  { w with predicates := more.foldl (fun done t => closed done ++ [(t, [])]) w.predicates }
where
  /-- Conditions with a comma behind the last. -/
  closed (done : List (Tokens × Tokens)) : List (Tokens × Tokens) :=
    done.map fun (t, comma) => (t, if comma.isEmpty then Make.op "," else comma)

end WhereClause

namespace Generics

/-- No parameters and no conditions. -/
def none : Generics := ⟨[], [], [], Option.none⟩

/-- The parameters between their brackets, each printed by `shown`. -/
def bracketed (g : Generics) (shown : GenericParameter → Tokens) : Tokens :=
  if g.parameters.isEmpty then []
  else
    g.opening
      ++ lifetimesFirst (g.parameters.map fun p => (p.kind == .lifetime, shown p, p.comma))
      ++ g.closing

/-- The parameters as declared. -/
def declared (g : Generics) : Tokens := g.bracketed GenericParameter.declared

/-- The parameters in front of an implementation. -/
def implemented (g : Generics) : Tokens := g.bracketed GenericParameter.bounded

/-- The parameters behind the name of the type. -/
def applied (g : Generics) : Tokens := g.bracketed GenericParameter.name

/-- The tokens of the conditions. -/
def conditionTokens (g : Generics) : Tokens :=
  match g.condition with
  | some w => w.tokens
  | Option.none => []

/-- The names of the type parameters. -/
def typeNames (g : Generics) : List Tokens :=
  (g.parameters.filter fun p => p.kind == .type).map GenericParameter.name

/-- The parameters with further conditions. -/
def adding (g : Generics) (more : List Tokens) : Generics :=
  let clause := g.condition.getD ⟨[Make.ident "where"], []⟩
  { g with condition := some (clause.adding more) }

end Generics

namespace Grammar

open KeyedCoding.Parser

/-- Whether the bounds of a parameter end here. -/
def boundsEnd (tokens : Tokens) : Bool :=
  tokens.startsOp [','] || tokens.startsOp ['>'] || tokens.startsOp ['=']

/-- A lifetime parameter behind its attributes. -/
def lifetimeParameter (attributes : Tokens) : Parser GenericParameter := do
  let l ← lifetime
  let colon ← opIf ":"
  let bounds ← (do
    if colon.isEmpty then pure []
    else joined (do pure ((← peekOp ",") || (← peekOp ">"))) "+" lifetime)
  pure ⟨.lifetime, attributes, [], l, colon, bounds, [], []⟩

/-- A type parameter behind its attributes. -/
def typeParameter (g : Grammar) (attributes : Tokens) : Parser GenericParameter := do
  let t ← name
  let colon ← opIf ":"
  let bounds ← (do
    if colon.isEmpty then pure []
    else joined (do pure (boundsEnd (← ahead))) "+" (boundTokens g false true))
  let equals ← opIf "="
  let preset ← (do
    if equals.isEmpty then pure [] else g.anyType)
  pure ⟨.type, attributes, [], [t], colon, bounds, equals ++ preset, []⟩

/-- A constant parameter behind its attributes. -/
def constParameter (g : Grammar) (attributes : Tokens) : Parser GenericParameter := do
  let keyword ← word "const"
  let t ← name
  let colon ← op ":"
  let type ← g.anyType
  let equals ← opIf "="
  let preset ← (do
    if equals.isEmpty then pure [] else constArgument g)
  pure ⟨.const, attributes, keyword, [t], colon, type, equals ++ preset, []⟩

/-- A generic parameter. -/
def genericParameter (g : Grammar) : Parser GenericParameter := do
  let attributes ← outerTokens g
  let tokens ← ahead
  if tokens.startsLifetime then lifetimeParameter attributes
  else if tokens.startsName then typeParameter g attributes
  else if tokens.startsWord "const" then constParameter g attributes
  else if tokens.startsWord "_" then do
    let t ← anyWord
    pure ⟨.type, attributes, [], [t], [], [], [], []⟩
  else expected [.lifetime, .name, .word "const"]

/-- A generic parameter that `for` binds in front of a type or closure. -/
def bindingStep (g : Grammar) : Parser Tokens := do
  let attributes ← outerTokens g
  let tokens ← ahead
  let p ← (do
    if tokens.startsName then typeParameter g attributes
    else if tokens.startsLifetime then lifetimeParameter attributes
    else if tokens.startsWord "const" then constParameter g attributes
    else expected [.name, .lifetime, .word "const"])
  pure p.declared

/-- The generic parameters behind a name, without conditions. -/
def genericParameters (g : Grammar) : Parser Generics := do
  if ← peekOp "<" then do
    let opening ← op "<"
    let parameters ← dividedUntil (peekOp ">") "," (genericParameter g)
    let closing ← op ">"
    pure ⟨opening, parameters.map fun (p, comma) => { p with comma }, closing, none⟩
  else pure .none

/-- Whether angle brackets ahead hold parameters, not a qualified type. -/
def parametersAhead (tokens : Tokens) : Bool :=
  let second := tokens.behind
  let third := second.behind
  tokens.startsOp ['<']
    && (second.startsOp ['>'] || second.startsOp ['#']
      || ((second.startsLifetime || second.startsName)
        && ((third.startsOp [':'] && !third.startsOp [':', ':']) || third.startsOp [',']
          || third.startsOp ['>'] || third.startsOp ['=']))
      || second.startsWord "const")

/-- Whether a list of conditions or bounds ends here. -/
def conditionEnd (tokens : Tokens) : Bool :=
  tokens.isEmpty || tokens.startsGroup .brace || tokens.startsOp [','] || tokens.startsOp [';']
    || (tokens.startsOp [':'] && !tokens.startsOp [':', ':']) || tokens.startsOp ['=']

/-- A condition on a lifetime or a type. -/
def predicate (g : Grammar) : Parser Tokens := do
  let tokens ← ahead
  if tokens.startsLifetime && tokens.behind.startsOp [':'] then do
    let l ← lifetime
    let colon ← op ":"
    let bounds ← joined (do
      let tokens ← ahead
      pure (conditionEnd tokens || tokens.startsOp [':'])) "+" lifetime
    pure (l ++ colon ++ bounds)
  else do
    let bindings ← binder g
    let t ← g.anyType
    let colon ← op ":"
    let bounds ← joined (do pure (conditionEnd (← ahead))) "+" (boundTokens g false true)
    pure (bindings ++ t ++ colon ++ bounds)

/-- Conditions as long as commas follow, at most `bound` of them. -/
def predicatesUpTo (g : Grammar) : Nat → Parser (List (Tokens × Tokens))
  | 0 => pure []
  | bound + 1 => do
      if conditionEnd (← ahead) then pure []
      else do
        let p ← predicate g
        if ← peekOp "," then do
          let comma ← op ","
          let rest ← predicatesUpTo g bound
          pure ((p, comma) :: rest)
        else pure [(p, [])]

/-- The conditions of a declaration, if there are some. -/
def whereClause (g : Grammar) : Parser (Option WhereClause) := do
  if ← peekWord "where" then do
    let keyword ← word "where"
    let tokens ← ahead
    if parametersAhead tokens then
      failHere "generic parameters on `where` clauses are reserved for future use"
    else do
      let predicates ← predicatesUpTo g (tokens.length + 1)
      pure (some ⟨keyword, predicates⟩)
  else pure none

/-- The tokens of the conditions of a declaration. -/
def whereTokens (g : Grammar) : Parser Tokens := do
  match ← whereClause g with
  | some w => pure w.tokens
  | none => pure []

end Grammar

end KeyedCoding
