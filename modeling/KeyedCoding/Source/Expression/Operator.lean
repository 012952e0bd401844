import KeyedCoding.Source.Generics
import KeyedCoding.Source.Pattern

/-!
# Operators between expressions

Binary operators are read by precedence.  An expression keeps its kind, the kind of its leftmost
operand and its tokens, which is what its place in a statement or attribute asks for.
-/

namespace KeyedCoding

namespace Expression

/-- An expression without an operator behind a left side. -/
def make (kind : ExpressionKind) (tokens : Tokens) : Expression := ⟨kind, kind, false, tokens⟩

/-- An expression continued by an operator and what follows it. -/
def continued (left : Expression) (kind : ExpressionKind) (compares : Bool) (rest : Tokens) :
    Expression :=
  ⟨kind, left.head, compares, left.tokens ++ rest⟩

/-- The expression with attributes on its leftmost operand.  A range is an operand as a whole and
needs parentheses then; an operand kept as it was written takes no attributes. -/
def withAttributes (attributes : Tokens) (e : Expression) : Expression :=
  if attributes.isEmpty || e.head == .verbatim then e
  else if e.kind == .range then { e with tokens := attributes ++ [Make.parens e.tokens] }
  else { e with tokens := attributes ++ e.tokens }

/-- Whether a comma or semicolon has to follow the expression. -/
def needsComma (e : Expression) : Bool :=
  match e.kind with
  | .conditional | .selection | .block | .uncheckedBlock | .whileLoop | .loop | .forLoop
  | .tryBlock | .constBlock => false
  | _ => true

/-- Whether a semicolon has to follow the expression in a block. -/
def needsSemicolon (e : Expression) : Bool :=
  match e.kind with
  | .invocation braced => !braced
  | _ => e.needsComma

/-- Whether the expression ends with a closing brace. -/
def endsInBrace (e : Expression) : Bool :=
  match e.tokens.getLast? with
  | some (.group .brace _ _) => true
  | _ => false

end Expression

/-! ## Precedence -/

namespace Precedence

/-- The least precedence. -/
def least : Nat := 0

/-- Assignments. -/
def assign : Nat := 1

/-- Ranges. -/
def range : Nat := 2

/-- Comparisons. -/
def compare : Nat := 6

/-- Casts. -/
def cast : Nat := 13

/-- Binary operators with their precedence, longer ones before their beginnings. -/
def operators : List (String × Nat) :=
  [("+=", 1), ("-=", 1), ("*=", 1), ("/=", 1), ("%=", 1), ("^=", 1), ("&=", 1), ("|=", 1),
    ("<<=", 1), (">>=", 1), ("&&", 4), ("||", 3), ("<<", 10), (">>", 10), ("==", 6), ("<=", 6),
    ("!=", 6), (">=", 6), ("+", 11), ("-", 11), ("*", 12), ("/", 12), ("%", 12), ("^", 8),
    ("&", 9), ("|", 7), ("<", 6), (">", 6)]

/-- The binary operator ahead. -/
def operatorAhead (tokens : Tokens) : Option (String × Nat) :=
  operators.find? fun (text, _) => tokens.startsOp text.toList

/-- Whether an assignment is ahead. -/
def assignAhead (tokens : Tokens) : Bool :=
  tokens.startsOp ['='] && !tokens.startsOp ['=', '>']

/-- The precedence of what is ahead. -/
def ofAhead (tokens : Tokens) : Nat :=
  match operatorAhead tokens with
  | some (_, p) => p
  | none =>
      if assignAhead tokens then assign
      else if tokens.startsOp ['.', '.'] then range
      else if tokens.startsWord "as" then cast
      else least

end Precedence

namespace Grammar

open KeyedCoding.Parser

/-- Operators that bind tighter than the one before, behind its right operand. -/
def tighter (g : Grammar) (allowRecord : Bool) (precedence : Nat) :
    Nat → Expression → Parser Expression
  | 0, e => pure e
  | bound + 1, e => do
      let tokens ← ahead
      let next := Precedence.ofAhead tokens
      if next > precedence || (next == precedence && precedence == Precedence.assign) then do
        let longer ← g.operators allowRecord next e
        let rest ← ahead
        if rest.length == tokens.length then pure longer
        else tighter g allowRecord precedence bound longer
      else pure e

/-- The right operand of an operator. -/
def rightOperand (g : Grammar) (allowRecord : Bool) (precedence : Nat) : Parser Expression := do
  let first ← g.operand allowRecord
  let tokens ← ahead
  tighter g allowRecord precedence (tokens.length + 1) first

/-- Whether a half-open range has no end here. -/
def rangeOpen (allowRecord : Bool) (tokens : Tokens) : Bool :=
  tokens.isEmpty
    || [",", ";", "?", "=>", "=", "+", "/", "%", "^", ">", "<=", "!=", "-=", "*=", "&=", "|=",
        "<<="].any (fun text => tokens.startsOp text.toList)
    || (tokens.startsOp ['.'] && !tokens.startsOp ['.', '.'])
    || (!allowRecord && tokens.startsGroup .brace)
    || tokens.startsWord "as"

/-- The dots and the end of a range. -/
def rangeTail (g : Grammar) (allowRecord : Bool) : Parser Tokens := do
  let (dots, closed) ← rangeDots false
  let tokens ← ahead
  if !closed && rangeOpen allowRecord tokens then pure dots
  else do
    let finish ← rightOperand g allowRecord Precedence.range
    pure (dots ++ finish.tokens)

/-- What may not follow a cast, in words. -/
def afterCast (tokens : Tokens) : Option String :=
  let second := tokens.behind
  let third := second.behind
  if tokens.startsOp ['.'] && !tokens.startsOp ['.', '.'] then
    if second.startsWord "await" then some "`.await`"
    else if second.startsName && (third.startsGroup .paren || third.startsOp [':', ':']) then
      some "a method call"
    else some "a field access"
  else if tokens.startsOp ['?'] then some "`?`"
  else if tokens.startsGroup .bracket then some "indexing"
  else if tokens.startsGroup .paren then some "a function call"
  else none

/-- Operators of at least precedence `base` behind an expression, at most `bound` of them. -/
def operatorsUpTo (g : Grammar) (allowRecord : Bool) (base : Nat) :
    Nat → Expression → Parser Expression
  | 0, e => pure e
  | bound + 1, e => do
      let tokens ← ahead
      if e.kind == .range then pure e
      else
        match Precedence.operatorAhead tokens with
        | some (text, precedence) =>
            if precedence < base then pure e
            else if precedence == Precedence.compare && e.compares then
              failHere "comparison operators cannot be chained"
            else do
              let symbol ← op text
              let right ← rightOperand g allowRecord precedence
              operatorsUpTo g allowRecord base bound
                (e.continued .binary (precedence == Precedence.compare) (symbol ++ right.tokens))
        | none =>
            if Precedence.assign ≥ base && Precedence.assignAhead tokens then do
              let equals ← op "="
              let right ← rightOperand g allowRecord Precedence.assign
              operatorsUpTo g allowRecord base bound
                (e.continued .assignment false (equals ++ right.tokens))
            else if Precedence.range ≥ base && tokens.startsOp ['.', '.'] then do
              let tail ← rangeTail g allowRecord
              operatorsUpTo g allowRecord base bound (.make .range (e.tokens ++ tail))
            else if Precedence.cast ≥ base && tokens.startsWord "as" then do
              let keyword ← word "as"
              let t ← g.tightType
              match afterCast (← ahead) with
              | some kind => failHere ("casts cannot be followed by " ++ kind)
              | none =>
                  operatorsUpTo g allowRecord base bound
                    (e.continued .cast false (keyword ++ t))
            else pure e

/-- Operators of at least precedence `base` behind an expression. -/
def operatorsStep (g : Grammar) (allowRecord : Bool) (base : Nat) (e : Expression) :
    Parser Expression := do
  let tokens ← ahead
  operatorsUpTo g allowRecord base (tokens.length + 1) e

/-- An expression. -/
def expressionStep (g : Grammar) (allowRecord : Bool) : Parser Expression := do
  let first ← g.operand allowRecord
  operatorsStep g allowRecord Precedence.least first

end Grammar

end KeyedCoding
