import KeyedCoding.Value

/-!
# Coding paths and errors

A coding error is a cause and the path of keys and indices that leads from the root value to the
place where it arose.
-/

namespace KeyedCoding

/-- Keys walked from the root value to the value being coded. -/
structure CodingPath where
  segments : List String
deriving DecidableEq, Repr

namespace CodingPath

/-- The path of the root value. -/
def root : CodingPath := ⟨[]⟩

/-- The path one key further. -/
def child (path : CodingPath) (key : String) : CodingPath := ⟨path.segments ++ [key]⟩

/-- Whether no key was walked. -/
def isRoot (path : CodingPath) : Bool := path.segments.isEmpty

/-- The keys divided by points. -/
def text (path : CodingPath) : String :=
  if path.isRoot then "<root>" else String.intercalate "." path.segments

@[simp] theorem segments_child (path : CodingPath) (key : String) :
    (path.child key).segments = path.segments ++ [key] := rfl

end CodingPath

/-- Causes for which a value is refused. -/
inductive CodingCause where
  /-- An object has nothing at a key that must be present. -/
  | keyNotFound (key : String)
  /-- A value has another form than the one needed. -/
  | typeMismatch (expected actual : String)
  /-- A number does not fit into its type. -/
  | outOfRange (value target : String)
  /-- The key of a tagged value names no variant. -/
  | unknownVariant (value : String) (valid : List String)
  /-- A tagged value has another number of keys than one. -/
  | invalidEnumShape (found : Nat)
  /-- A cause of a helper's own. -/
  | custom (text : String)
  /-- The text is not JSON. -/
  | json (text : String)
deriving DecidableEq, Repr

/-- The wording of a cause. -/
def CodingCause.message : CodingCause → String
  | keyNotFound key => "no value associated with key '" ++ key ++ "'"
  | typeMismatch expected actual =>
      "type mismatch: expected " ++ expected ++ ", found " ++ actual
  | outOfRange value target => "value '" ++ value ++ "' is out of range for " ++ target
  | unknownVariant value valid =>
      "unknown variant '" ++ value ++ "', expected one of: " ++ String.intercalate ", " valid
  | invalidEnumShape found =>
      "expected an object with exactly one variant key, found " ++ toString found ++ " keys"
  | custom text => text
  | json text => "json error: " ++ text

/-- A cause and the place where it arose. -/
structure CodingError where
  path : CodingPath
  cause : CodingCause
deriving DecidableEq, Repr

/-- The wording of an error. -/
def CodingError.message (e : CodingError) : String :=
  "error coding " ++ e.path.text ++ ": " ++ e.cause.message

end KeyedCoding
