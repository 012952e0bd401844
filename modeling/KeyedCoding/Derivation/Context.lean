import KeyedCoding.Derivation.Diagnostic

/-!
# The context of an expansion

Fresh names are numbered from zero in every expansion, and findings are collected in order.
-/

namespace KeyedCoding

/-- The state of an expansion. -/
structure Context where
  nextName : Nat
  diagnostics : List Diagnostic

/-- Steps of an expansion. -/
abbrev Expanding (α : Type) := StateM Context α

namespace Context

/-- The state before the first step. -/
def initial : Context := ⟨0, []⟩

/-- Whether an error has been found. -/
def hasErrors (c : Context) : Bool := c.diagnostics.any Diagnostic.isError

/-- The name of a use with a number. -/
def nameOf (use : String) (number : Nat) : String :=
  "__codable_" ++ use ++ "_" ++ toString number

end Context

namespace Expanding

/-- A name that no other step gets. -/
def freshName (use : String) : Expanding String := fun c =>
  (Context.nameOf use c.nextName, { c with nextName := c.nextName + 1 })

/-- Add findings. -/
def report (found : List Diagnostic) : Expanding Unit :=
  modify fun c => { c with diagnostics := c.diagnostics ++ found }

/-- Whether an error has been found. -/
def hasErrors : Expanding Bool := do
  let c ← get
  pure c.hasErrors

end Expanding

end KeyedCoding
