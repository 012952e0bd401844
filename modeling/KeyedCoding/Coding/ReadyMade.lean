import KeyedCoding.Coding.Codec

/-!
# Ready-made helpers

Three ways to code a member by rules of its own: strings joined by commas, integers that must be
even, and optional strings marked by an exclamation mark.
-/

namespace KeyedCoding

namespace Helper

/-- The parts of a text between commas. -/
def splitCommas : List Char → List (List Char)
  | [] => [[]]
  | c :: rest =>
      if c = ',' then [] :: splitCommas rest
      else
        match splitCommas rest with
        | part :: more => (c :: part) :: more
        | [] => [[c]]

/-- The strings among data. -/
def strings (items : List Datum) : List String :=
  items.filterMap fun
    | .string s => some s
    | _ => none

/-- A list of strings as one string with commas between them; the empty string is the empty
list. -/
def commaSeparated : Helper where
  coded := .list .string
  decode := fun d => do
    let text ← decodeString d
    let parts := if text.isEmpty then [] else splitCommas text.toList
    .ok (.list (parts.map fun part => .string (String.ofList part)))
  encode := fun x =>
    match x with
    | .list items => Encoding.value (.string (",".intercalate (strings items)))
    | _ => pure ()

/-- An integer that is refused on encoding if it is odd. -/
def even : Helper where
  coded := .int .i64
  decode := fun d => (decodeInteger .i64 d).map .int
  encode := fun x =>
    match x with
    | .int n =>
        if n % 2 = 0 then encodeInteger n
        else Encoding.fail (.custom ("odd number " ++ toString n))
    | _ => pure ()

/-- The string behind an exclamation mark. -/
def behindBang : List Char → Option String
  | '!' :: rest => some (String.ofList rest)
  | _ => none

/-- An optional string, written with an exclamation mark in front, or as null. -/
def bang : Helper where
  coded := .option .string
  decode := fun d =>
    match d.value with
    | .null => .ok .none
    | _ => do
        let text ← decodeString d
        match behindBang text.toList with
        | some rest => .ok (.some (.string rest))
        | none => .error ⟨d.path, .custom "missing bang"⟩
  encode := fun x =>
    match x with
    | .none => Encoding.value .null
    | .some (.string s) => Encoding.value (.string ("!" ++ s))
    | _ => pure ()

/-- The ready-made helpers by name. -/
def readyMade : List (String × Helper) :=
  [("CommaSeparated", commaSeparated), ("Even", even), ("Bang", bang)]

end Helper

end KeyedCoding
