import KeyedCoding.Number.Binary

/-!
# Similar words

The similarity of two words by the characters they share: characters count as shared if they are
equal and not far apart, shared characters in another order count half, and a common beginning of
up to four characters raises a similarity above seven tenths.  Similarities are double-precision
numbers, rounded after every operation, so a similarity of seven tenths may come out above the
limit of that value.
-/

namespace KeyedCoding

namespace Similarity

/-- Mark the first free place from `low` below `high` that holds `c`. -/
def claim (c : Char) (low high : Nat) : Nat → List (Char × Bool) → Option (List (Char × Bool))
  | _, [] => none
  | index, (d, taken) :: rest =>
      if high ≤ index then none
      else if low ≤ index && c == d && !taken then some ((d, true) :: rest)
      else (claim c low high (index + 1) rest).map ((d, taken) :: ·)

/-- Match the characters of a word against another one within `range` places: the matched
characters, and the other word with its matched places marked. -/
def matched (range : Nat) :
    Nat → List Char → List (Char × Bool) → List Char × List (Char × Bool)
  | _, [], other => ([], other)
  | index, c :: rest, other =>
      match claim c (index - range) (index + range + 1) 0 other with
      | some other =>
          let (found, final) := matched range (index + 1) rest other
          (c :: found, final)
      | none => matched range (index + 1) rest other

/-- The quotient of two counts. -/
def quotient (a b : Nat) : Binary64 := .ofRatio false a b

/-- The similarity of two words without regard to their beginning. -/
def jaro (a b : List Char) : Binary64 :=
  if a.isEmpty && b.isEmpty then quotient 1 1
  else
    let range := max a.length b.length / 2 - 1
    let (found, marked) := matched range 0 a (b.map fun c => (c, false))
    let others := (marked.filter Prod.snd).map Prod.fst
    let swapped := ((found.zip others).filter fun (c, d) => c != d).length / 2
    let n := found.length
    if n = 0 then quotient 0 1
    else
      let shares := (quotient n a.length).plus (quotient n b.length)
      (shares.plus (quotient (n - swapped) n)).dividedBy (quotient 3 1)

/-- Number of characters, up to four, in which two words begin alike. -/
def commonStart (a b : List Char) : Nat :=
  (((a.take 4).zip b).takeWhile fun (c, d) => c == d).length

/-- The similarity of two words. -/
def jaroWinkler (a b : String) : Binary64 :=
  let plain := jaro a.toList b.toList
  if plain.exceeds (quotient 7 10) then
    let weight := (quotient 1 10).times (quotient (commonStart a.toList b.toList) 1)
    plain.plus (weight.times ((quotient 1 1).minus plain))
  else plain

/-- The candidate most similar to a word, the first of equals, if one is similar enough. -/
def closest (word : String) (candidates : List String) : Option String :=
  let step := fun (best : Option (Binary64 × String)) (candidate : String) =>
    let r := jaroWinkler word candidate
    if r.exceeds (quotient 8 10) && best.all fun (q, _) => r.exceeds q then some (r, candidate)
    else best
  (candidates.foldl step none).map Prod.snd

end Similarity

end KeyedCoding
