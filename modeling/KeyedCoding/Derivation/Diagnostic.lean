import KeyedCoding.Source.Attribute
import KeyedCoding.Text.Quoted

/-!
# Diagnostics

What expansion reports about a declaration: errors, which reject it, and warnings.  Both are handed
to the compiler as code, an error as a failing expansion and a warning by way of a deprecation.
-/

namespace KeyedCoding

/-- How bad a finding is. -/
inductive Severity where
  | error
  | warning
deriving DecidableEq, Repr

/-- A suggested edit: what to do, and the text to put in place if there is one. -/
structure FixIt where
  message : String
  replacement : Option String
deriving DecidableEq, Repr

/-- A finding about a declaration. -/
structure Diagnostic where
  severity : Severity
  message : String
  span : Span
  fixIt : Option FixIt
deriving DecidableEq, Repr

namespace Diagnostic

/-- An error without a suggestion. -/
def error (span : Span) (message : String) : Diagnostic := ⟨.error, message, span, none⟩

/-- A warning without a suggestion. -/
def warning (span : Span) (message : String) : Diagnostic := ⟨.warning, message, span, none⟩

/-- The finding with a suggestion. -/
def withFixIt (d : Diagnostic) (fixIt : FixIt) : Diagnostic := { d with fixIt := some fixIt }

/-- Whether the finding rejects its declaration. -/
def isError (d : Diagnostic) : Bool := d.severity == .error

/-- The error for source text that was refused. -/
def ofFailure (f : Failure) : Diagnostic := error f.span f.message

/-- The message with the suggestion behind it. -/
def rendered (d : Diagnostic) : String :=
  match d.fixIt with
  | some fixIt => d.message ++ "\n\nhelp: " ++ fixIt.message
  | none => d.message

end Diagnostic

namespace Make

/-- A string literal. -/
def string (text : String) : Token := literal (Quoted.literal text)

/-- An attribute around tokens. -/
def hashed (body : Tokens) : Tokens := op "#" ++ [brackets body]

/-- An attribute that allows lints. -/
def allow (lints : Tokens) : Tokens := hashed [ident "allow", parens lints]

/-- Code that fails to compile with a message. -/
def compileError (message : String) : Tokens :=
  path true ["core", "compile_error"] ++ op "!" ++ [braces [string message]]

/-- Code that makes the compiler warn with a message: a deprecated constant is used. -/
def compileWarning (message : String) : Tokens :=
  let unit := parens []
  let body :=
    hashed [ident "deprecated", parens (ident "note" :: op "=" ++ [string message])]
      ++ allow [ident "non_upper_case_globals"]
      ++ [ident "const", ident "codable_warning"] ++ op ":" ++ [unit] ++ op "=" ++ [unit] ++ op ";"
      ++ [ident "let", ident "_"] ++ op "=" ++ [ident "codable_warning"] ++ op ";"
  [ident "const", ident "_"] ++ op ":" ++ [unit] ++ op "=" ++ [braces body] ++ op ";"

end Make

namespace Diagnostic

/-- The code that reports a finding to the compiler. -/
def tokens (d : Diagnostic) : Tokens :=
  match d.severity with
  | .error => Make.compileError d.rendered
  | .warning => Make.compileWarning d.rendered

/-- The code that reports findings in order. -/
def allTokens (ds : List Diagnostic) : Tokens := ds.flatMap tokens

end Diagnostic

end KeyedCoding
