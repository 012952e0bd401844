/-!
# Classes of characters given by ranges

Membership of a code point in a list of closed ranges, for the character properties whose data is
a table.
-/

namespace KeyedCoding

/-- Code points given by closed ranges. -/
abbrev Ranges := Array (Nat × Nat)

/-- Whether a code point lies in one of the ranges. -/
def Ranges.holds (ranges : Ranges) (code : Nat) : Bool :=
  ranges.any fun range => range.1 ≤ code && code ≤ range.2

end KeyedCoding
