import KeyedCoding.Coding.Schema

/-!
# Building structs member by member

A struct is built from the members without a preset, in declaration order; every other member holds
its preset until its setter replaces it.
-/

namespace KeyedCoding

namespace Memberwise

/-- The name of the setter of a member: by name, or by index for positional ones. -/
def setterName (named : Bool) (name : String) (index : Nat) : String :=
  "with_" ++ if named then name else toString index

/-- The members that have to be given. -/
def required (members : List Member) : List Member := members.filter fun m => m.preset.isNone

/-- The fields of a new struct; nothing if the arguments are too few or too many. -/
def create : List Member → List Datum → Option (List Datum)
  | [], [] => some []
  | [], _ :: _ => none
  | m :: rest, arguments =>
      match m.preset, arguments with
      | some x, arguments => (create rest arguments).map (x :: ·)
      | none, a :: arguments => (create rest arguments).map (a :: ·)
      | none, [] => none

/-- The member that a setter belongs to. -/
def settable? (members : List Member) (setter : String) : Option Member :=
  members.find? fun m => m.preset.isSome && setterName m.named m.name m.index == setter

/-- The fields with the one of a member replaced. -/
def replace (m : Member) (x : Datum) (fields : List Datum) : List Datum := fields.set m.index x

end Memberwise

end KeyedCoding
