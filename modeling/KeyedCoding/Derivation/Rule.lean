import KeyedCoding.Derivation.Diagnostic
import KeyedCoding.Derivation.Kind

/-!
# Rules for attributes

Each known attribute comes with a rule for where and how it may be used.  A rule is data; its
findings about a target are a function of the target alone, in the order of its parts.
-/

namespace KeyedCoding

/-- The attribute that a rule is about. -/
structure AttributeRef where
  name : String
  span : Span
deriving DecidableEq, Repr

namespace AttributeRef

/-- The attribute as it is written. -/
def shown (a : AttributeRef) : String := "#[" ++ a.name ++ "]"

/-- The suggestion to remove the attribute. -/
def removal (a : AttributeRef) : FixIt := ⟨"remove " ++ a.shown, some ""⟩

end AttributeRef

/-- A rule for an attribute. -/
inductive Rule where
  /-- It stands on a declaration of one of the kinds. -/
  | expects (subject : AttributeRef) (kinds : List DeclarationKind)
  /-- It stands only once on a declaration. -/
  | once (subject : AttributeRef)
  /-- It does not stand beside another one. -/
  | excludes (subject : AttributeRef) (other : String) (severity : Severity)
  /-- It stands beside another one. -/
  | requires (subject : AttributeRef) (other : String)
  /-- Its arguments are accepted. -/
  | arguments (subject : AttributeRef) (node : Attribute)
      (check : Attribute → Except (List Failure) Unit)
  /-- Each of the rules holds. -/
  | all (rules : List Rule)

namespace Rule

mutual

/-- What a rule finds about a target. -/
def findings (target : Target) : Rule → List Diagnostic
  | expects a kinds =>
      if kinds.contains target.kind then []
      else
        [(Diagnostic.error a.span (a.shown ++ " can only be attached to "
          ++ DeclarationKind.describe kinds ++ " declarations, found " ++ target.kind.name
          ++ " `" ++ target.name ++ "`")).withFixIt a.removal]
  | once a =>
      if target.count a.name ≤ 1 then []
      else
        [(Diagnostic.error a.span (a.shown ++ " can only be applied once to `"
          ++ target.name ++ "`")).withFixIt a.removal]
  | excludes a other severity =>
      if target.count other = 0 then []
      else
        [(match severity with
          | .error =>
              Diagnostic.error a.span (a.shown ++ " can't be combined with #[" ++ other ++ "]")
          | .warning =>
              Diagnostic.warning a.span
                (a.shown ++ " is redundant alongside #[" ++ other ++ "]")).withFixIt a.removal]
  | requires a other =>
      if 0 < target.count other then []
      else
        [(Diagnostic.error a.span
          (a.shown ++ " must be combined with #[" ++ other ++ "]")).withFixIt
          ⟨"add #[" ++ other ++ "] to `" ++ target.name ++ "`", some ("#[" ++ other ++ "]")⟩]
  | arguments a node check =>
      match check node with
      | .ok _ => []
      | .error failures =>
          failures.map fun f =>
            Diagnostic.error f.span ("invalid arguments to " ++ a.shown ++ ": " ++ f.message)
  | all rules => findingsAll target rules

/-- What rules find about a target, in order. -/
def findingsAll (target : Target) : List Rule → List Diagnostic
  | [] => []
  | r :: rest => findings target r ++ findingsAll target rest

end

end Rule

end KeyedCoding
