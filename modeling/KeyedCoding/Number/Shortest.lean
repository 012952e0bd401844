import KeyedCoding.Number.Binary

/-!
# Shortest decimals

The decimal written for a binary number is the one with the fewest digits among those that
round back to it, and of those with that many digits the nearest.  For each digit count the two
neighbours of the number on the decimal grid are tested against the interval of reals that round
to it, in exact arithmetic.
-/

namespace KeyedCoding

/-- Decimal digits, most significant first, standing for `0.d₁d₂… · 10 ^ point`. -/
structure Decimal where
  digits : List Char
  point : Int
deriving DecidableEq, Repr

namespace Decimal

/-- A ratio of natural numbers times a power of ten, as a ratio. -/
def scaleTen (num den : Nat) (shift : Int) : Nat × Nat :=
  if 0 ≤ shift then (num * Nat.pow 10 shift.toNat, den) else (num, den * Nat.pow 10 (-shift).toNat)

/-- The least of a few consecutive powers of ten that exceeds the ratio. -/
def leastPower (num den : Nat) : Nat → Int → Int
  | 0, power => power
  | tries + 1, power =>
      let scaled := scaleTen num den (-power)
      if scaled.1 < scaled.2 then power else leastPower num den tries (power + 1)

/-- The `k` with `10 ^ (k - 1) ≤ num / den < 10 ^ k`, for a positive ratio. -/
def decimalPoint (num den : Nat) : Int :=
  let binary := Format.ratioExponent num den
  leastPower num den 4 (binary * 30103 / 100000 - 1)

/-- The reals that round to a number, as numerators over one denominator. -/
structure Interval where
  lower : Nat
  middle : Nat
  upper : Nat
  den : Nat
  closed : Bool

/-- Whether the grid point `count · 10 ^ place` lies in the interval. -/
def Interval.holds (i : Interval) (count : Nat) (place : Int) : Bool :=
  let scaled := scaleTen (count * i.den) 1 place
  let point := scaled.1
  let lower := i.lower * scaled.2
  let upper := i.upper * scaled.2
  if i.closed then lower ≤ point && point ≤ upper else lower < point && point < upper

/-- Of the two grid points around the middle, the one in the interval; the nearer if both are. -/
def Interval.nearest (i : Interval) (place : Int) : Option Nat :=
  let scaled := scaleTen i.middle i.den (-place)
  let below := scaled.1 / scaled.2
  let above := below + 1
  match i.holds below place, i.holds above place with
  | true, true =>
      if 2 * (scaled.1 % scaled.2) < scaled.2 then some below
      else if 2 * (scaled.1 % scaled.2) = scaled.2 then some (below + below % 2)
      else some above
  | true, false => some below
  | false, true => some above
  | false, false => none

/-- The first digit count whose grid meets the interval. -/
def Interval.search (i : Interval) (point : Int) : Nat → Nat → Nat × Int
  | 0, count => ((i.nearest (point - count)).getD 0, point - count)
  | more + 1, count =>
      match i.nearest (point - count) with
      | some n => (n, point - count)
      | none => i.search point more (count + 1)

/-- The interval of a positive magnitude pattern. -/
def interval (f : Format) (magnitude : Nat) : Interval :=
  let (significand, exponent) := f.unpack magnitude
  let atPower := significand = Nat.pow 2 f.fraction && Nat.pow 2 f.fraction < magnitude
  let quarter := Format.scale 1 1 (exponent - 2)
  { lower := (4 * significand - (if atPower then 1 else 2)) * quarter.1
    middle := 4 * significand * quarter.1
    upper := (4 * significand + 2) * quarter.1
    den := quarter.2
    closed := significand % 2 = 0 }

/-- Drop the zeros at the end. -/
def trimZeros (digits : List Char) : List Char :=
  (digits.reverse.dropWhile (· == '0')).reverse

/-- The shortest decimal of a positive magnitude pattern. -/
def shortest (f : Format) (magnitude : Nat) : Decimal :=
  let i := interval f magnitude
  let point := decimalPoint i.middle i.den
  let (count, place) := i.search point 16 1
  let digits := Nat.toDigits 10 count
  { digits := trimZeros digits
    point := place + digits.length }

end Decimal

end KeyedCoding
