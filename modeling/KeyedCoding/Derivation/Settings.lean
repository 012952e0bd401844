import KeyedCoding.Derivation.Strategy
import KeyedCoding.Source.Language
import KeyedCoding.Text.Similarity

/-!
# Settings in attributes

The arguments of an attribute as a list of settings, each a literal or a path with what follows it.
All faults of a list are collected; several of them become one error about the whole attribute.
-/

namespace KeyedCoding

/-- One entry of a list of settings. -/
inductive Setting where
  | literal (token : Token)
  | content (content : Meta)

/-- What is wrong with a setting. -/
inductive SettingCause where
  | format (form : String)
  | type (name : String)
  | value (text : String)
  | unknown (name : String) (suggestion : Option String)
  | duplicate (name : String)
  | tooFew (least : Nat)
  | tooMany (most : Nat)
  /-- The text of the settings is refused. -/
  | refused (message : String)
deriving DecidableEq, Repr

/-- A fault in a setting: in which setting, and where in the source. -/
structure SettingError where
  cause : SettingCause
  within : Option String
  span : Span
deriving DecidableEq, Repr

namespace SettingCause

/-- The cause in words. -/
def message : SettingCause → String
  | format form => "Unexpected meta-item format `" ++ form ++ "`"
  | type name => "Unexpected type `" ++ name ++ "`"
  | value text => "Unknown literal value `" ++ text ++ "`"
  | unknown name suggestion =>
      "Unknown field: `" ++ name ++ "`" ++
        (match suggestion with
        | some other => ". Did you mean `" ++ other ++ "`?"
        | none => "")
  | duplicate name => "Duplicate field `" ++ name ++ "`"
  | tooFew least => "Too few items: Expected at least " ++ toString least
  | tooMany most => "Too many items: Expected no more than " ++ toString most
  | refused message => message

end SettingCause

namespace SettingError

/-- The fault in words. -/
def message (e : SettingError) : String :=
  e.cause.message ++ (match e.within with
    | some name => " at " ++ name
    | none => "")

/-- One failure for faults in order; several are about `whole`. -/
def combined (whole : Span) : List SettingError → Option Failure
  | [] => none
  | [e] => some ⟨e.message, e.span⟩
  | many => some ⟨"Multiple errors: (" ++ ", ".intercalate (many.map message) ++ ")", whole⟩

end SettingError

namespace LiteralKind

/-- The kind as the type of a setting. -/
def typeName : LiteralKind → String
  | string => "string"
  | byteString => "byte string"
  | zeroEnded => "unknown"
  | byte => "byte"
  | char => "char"
  | int => "int"
  | float => "float"
  | bool => "bool"
  | verbatim => "verbatim"

end LiteralKind

namespace ExpressionKind

/-- The kind as the type of a setting. -/
def typeName : ExpressionKind → String
  | array => "array"
  | assignment => "assign"
  | asyncBlock => "async"
  | awaiting => "await"
  | binary => "binary"
  | block => "block"
  | breaking => "break"
  | call => "call"
  | cast => "cast"
  | closure => "closure"
  | constBlock => "const"
  | continuing => "continue"
  | field => "field"
  | forLoop => "for_loop"
  | conditional => "if"
  | index => "index"
  | infer => "infer"
  | letCondition => "let"
  | literal kind => kind.typeName
  | loop => "loop"
  | invocation _ => "macro"
  | selection => "match"
  | methodCall => "method_call"
  | paren => "paren"
  | path => "path"
  | range => "range"
  | rawAddress => "unknown"
  | reference => "reference"
  | repetition => "repeat"
  | returning => "return"
  | record => "struct"
  | propagation => "try"
  | tryBlock => "try_block"
  | tuple => "tuple"
  | unary => "unary"
  | uncheckedBlock => "unsafe"
  | verbatim => "verbatim"
  | whileLoop => "while"
  | yielding => "yield"

end ExpressionKind

namespace Setting

open KeyedCoding.Parser KeyedCoding.Grammar

/-- One setting. -/
def one (g : Grammar) : Parser Setting := do
  let tokens ← ahead
  let truth := tokens.startsWord "true" || tokens.startsWord "false"
  if tokens.startsLiteral && !(truth && tokens.behind.startsOp ['=']) then do
    let t ← Parser.literal
    pure (.literal t)
  else if tokens.startsAnyWord
      || (tokens.startsOp [':', ':'] && tokens.behind.behind.startsAnyWord) then do
    let m ← metaContent g
    pure (.content m)
  else failHere "expected identifier or literal"

/-- Settings divided by commas. -/
def list (g : Grammar) : Parser (List Setting) := do
  let parts ← terminated (one g)
  pure (parts.map Prod.fst)

/-- The settings of tokens. -/
def ofTokens (tokens : Tokens) : Except SettingError (List Setting) :=
  match Language.parse list .made tokens with
  | .ok settings => .ok settings
  | .error f => .error ⟨.refused f.message, none, f.span⟩

/-- The names of a path joined by double colons. -/
def pathName (path : Tokens) : String := "::".intercalate (Meta.names path)

end Setting

namespace KeyStrategy

/-- The names that a strategy in parentheses is compared with. -/
def alternatives : List String := "verbatim" :: named.map Prod.fst

/-- The strategy that a value asks for. -/
def ofValue (value : Expression) : Except SettingError KeyStrategy :=
  let fault := fun (cause : SettingCause) => .error ⟨cause, none, Tokens.extent value.tokens⟩
  match value.kind, value.tokens.getLast? with
  | .literal .string, some (.literal text _) =>
      let name := LiteralText.stringValue text
      match ofName? name with
      | some s => .ok s
      | none => fault (.value name)
  | kind, _ => fault (.type kind.typeName)

/-- The strategy that a list in parentheses asks for; `whole` is the setting. -/
def ofList (whole : Span) : List Setting → Except SettingError KeyStrategy
  | [] => .error ⟨.tooFew 1, none, whole⟩
  | [.literal _] => .error ⟨.format "literal", none, whole⟩
  | [.content m] =>
      let name := Setting.pathName m.pathTokens
      match ofName? name, m with
      | some s, .path _ => .ok s
      | some _, _ => .error ⟨.format "non-path", none, whole⟩
      | none, _ => .error ⟨.unknown name (Similarity.closest name alternatives), none, m.span⟩
  | _ => .error ⟨.tooMany 1, none, whole⟩

/-- The strategy that the setting asks for. -/
def ofSetting (m : Meta) : Except SettingError KeyStrategy :=
  match m with
  | .path _ => .error ⟨.format "word", none, m.span⟩
  | .list _ _ body _ => do
      let settings ← Setting.ofTokens body
      ofList m.span settings
  | .nameValue _ _ value => ofValue value

/-- The name of the setting. -/
def settingName : String := "rename_all"

/-- Go through settings in order: the strategy found, and all faults. -/
def collect : List Setting → Option KeyStrategy → Bool → Option KeyStrategy × List SettingError
  | [], found, _ => (found, [])
  | .literal t :: rest, found, seen =>
      let (s, faults) := collect rest found seen
      (s, ⟨.format "literal", none, t.span⟩ :: faults)
  | .content m :: rest, found, seen =>
      let name := Setting.pathName m.pathTokens
      if name == settingName then
        if seen then
          let (s, faults) := collect rest found seen
          (s, ⟨.duplicate name, none, m.span⟩ :: faults)
        else
          match ofSetting m with
          | .ok s => collect rest (some s) true
          | .error e =>
              let (s, faults) := collect rest found true
              (s, { e with within := some settingName } :: faults)
      else
        let (s, faults) := collect rest found seen
        (s, ⟨.unknown name (Similarity.closest name [settingName]), none, m.span⟩ :: faults)

/-- The strategy that the content of an attribute asks for. -/
def ofContent (m : Meta) : Except Failure KeyStrategy :=
  match m with
  | .path _ => .error ⟨(SettingCause.format "word").message, m.span⟩
  | .nameValue _ _ value =>
      .error ⟨(SettingCause.type value.kind.typeName).message, Tokens.extent value.tokens⟩
  | .list _ _ body _ =>
      match Setting.ofTokens body with
      | .error e => .error ⟨e.message, e.span⟩
      | .ok settings =>
          let (found, faults) := collect settings none false
          match SettingError.combined m.span faults with
          | some failure => .error failure
          | none => .ok (found.getD .verbatim)

end KeyStrategy

end KeyedCoding
