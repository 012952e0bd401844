/-!
# Binary interchange numbers

Floating-point numbers as bit patterns.  A finite pattern stands for `± m · 2 ^ q` with natural
`m`; every operation is defined by its exact rational result rounded to the nearest number, a
tie going to the even significand, so nothing depends on a machine's arithmetic.
-/

namespace KeyedCoding

/-- Widths of the stored fraction and of the exponent field. -/
structure Format where
  fraction : Nat
  exponent : Nat
deriving DecidableEq, Repr

namespace Format

/-- Double precision. -/
def binary64 : Format := ⟨52, 11⟩

/-- Single precision. -/
def binary32 : Format := ⟨23, 8⟩

/-- Offset of the exponent field. -/
def bias (f : Format) : Nat := Nat.pow 2 (f.exponent - 1) - 1

/-- The pattern of positive infinity: an exponent field of ones and a zero fraction. -/
def infinity (f : Format) : Nat := (Nat.pow 2 f.exponent - 1) * Nat.pow 2 f.fraction

/-- A quiet not-a-number pattern. -/
def quiet (f : Format) : Nat := f.infinity + Nat.pow 2 (f.fraction - 1)

/-- The pattern of the sign bit. -/
def signBit (f : Format) : Nat := Nat.pow 2 (f.fraction + f.exponent)

/-- Quotient rounded to the nearest natural number, a tie going to the even one. -/
def roundQuotient (num den : Nat) : Nat :=
  let floor := num / den
  let twice := 2 * (num % den)
  if twice < den then floor
  else if twice = den then floor + floor % 2
  else floor + 1

/-- `num · 2 ^ shift / den`, as a numerator and a denominator. -/
def scale (num den : Nat) (shift : Int) : Nat × Nat :=
  if 0 ≤ shift then (num * Nat.pow 2 shift.toNat, den) else (num, den * Nat.pow 2 (-shift).toNat)

/-- Binary exponent of a positive ratio: the `e` with `2 ^ e ≤ num / den < 2 ^ (e + 1)`. -/
def ratioExponent (num den : Nat) : Int :=
  let guess : Int := (num.log2 : Int) - (den.log2 : Int)
  let scaled := scale num den (-guess)
  if scaled.2 ≤ scaled.1 then guess else guess - 1

/-- Pattern of the number nearest to `num / den`; infinity where the ratio rounds past the range. -/
def roundRatio (f : Format) (num den : Nat) : Nat :=
  if num = 0 then 0
  else
    let least : Int := 1 - (f.bias : Int)
    let exponent := max (ratioExponent num den) least
    let unit := exponent - (f.fraction : Int)
    let scaled := scale num den (-unit)
    let significand := roundQuotient scaled.1 scaled.2
    let pattern := (exponent - least).toNat * Nat.pow 2 f.fraction + significand
    if f.infinity ≤ pattern then f.infinity else pattern

/-- Significand and binary exponent of a finite pattern without sign. -/
def unpack (f : Format) (magnitude : Nat) : Nat × Int :=
  let field := magnitude / Nat.pow 2 f.fraction
  let fraction := magnitude % Nat.pow 2 f.fraction
  let least : Int := 1 - (f.bias : Int) - (f.fraction : Int)
  if field = 0 then (fraction, least)
  else (Nat.pow 2 f.fraction + fraction, least + (field : Int) - 1)

end Format

/-- A double-precision number. -/
structure Binary64 where
  bits : UInt64
deriving DecidableEq, Repr

/-- A single-precision number. -/
structure Binary32 where
  bits : UInt32
deriving DecidableEq, Repr

namespace Binary64

/-- Whether the sign bit is set. -/
def negative (x : Binary64) : Bool :=
  Format.binary64.signBit ≤ x.bits.toNat

/-- The pattern without its sign bit. -/
def magnitude (x : Binary64) : Nat :=
  x.bits.toNat % Format.binary64.signBit

/-- Neither infinite nor a not-a-number. -/
def isFinite (x : Binary64) : Bool :=
  x.magnitude < Format.binary64.infinity

/-- One of the not-a-number patterns. -/
def isNaN (x : Binary64) : Bool :=
  Format.binary64.infinity < x.magnitude

/-- A pattern put together from its sign and magnitude. -/
def ofMagnitude (negative : Bool) (magnitude : Nat) : Binary64 :=
  ⟨UInt64.ofNat (if negative then Format.binary64.signBit + magnitude else magnitude)⟩

/-- The number nearest to `± num / den`. -/
def ofRatio (negative : Bool) (num den : Nat) : Binary64 :=
  ofMagnitude negative (Format.binary64.roundRatio num den)

/-- The number nearest to an integer. -/
def ofInt (n : Int) : Binary64 :=
  ofRatio (n < 0) n.natAbs 1

/-- The pattern that stands for every not-a-number. -/
def nan : Binary64 := ofMagnitude false Format.binary64.quiet

/-- The exact ratio that a finite number without sign stands for. -/
def ratio (x : Binary64) : Nat × Nat :=
  let (significand, exponent) := Format.binary64.unpack x.magnitude
  Format.scale significand 1 exponent

/-- Sum of numbers without sign, rounded once. -/
def plus (x y : Binary64) : Binary64 :=
  let (a, b) := x.ratio
  let (c, d) := y.ratio
  ofRatio false (a * d + c * b) (b * d)

/-- Difference of numbers without sign, the second not greater, rounded once. -/
def minus (x y : Binary64) : Binary64 :=
  let (a, b) := x.ratio
  let (c, d) := y.ratio
  ofRatio false (a * d - c * b) (b * d)

/-- Product of numbers without sign, rounded once. -/
def times (x y : Binary64) : Binary64 :=
  let (a, b) := x.ratio
  let (c, d) := y.ratio
  ofRatio false (a * c) (b * d)

/-- Quotient of numbers without sign, the second not zero, rounded once. -/
def dividedBy (x y : Binary64) : Binary64 :=
  let (a, b) := x.ratio
  let (c, d) := y.ratio
  ofRatio false (a * d) (b * c)

/-- Whether a number without sign exceeds another: patterns are in the order of the numbers. -/
def exceeds (x y : Binary64) : Bool := y.magnitude < x.magnitude

/-- The number nearest to a power of ten. -/
def powerOfTen (power : Nat) : Binary64 := ofRatio false (Nat.pow 10 power) 1

end Binary64

namespace Binary32

/-- Whether the sign bit is set. -/
def negative (x : Binary32) : Bool :=
  Format.binary32.signBit ≤ x.bits.toNat

/-- The pattern without its sign bit. -/
def magnitude (x : Binary32) : Nat :=
  x.bits.toNat % Format.binary32.signBit

/-- One of the not-a-number patterns. -/
def isNaN (x : Binary32) : Bool :=
  Format.binary32.infinity < x.magnitude

/-- A pattern put together from its sign and magnitude. -/
def ofMagnitude (negative : Bool) (magnitude : Nat) : Binary32 :=
  ⟨UInt32.ofNat (if negative then Format.binary32.signBit + magnitude else magnitude)⟩

/-- The number nearest to `± num / den`. -/
def ofRatio (negative : Bool) (num den : Nat) : Binary32 :=
  ofMagnitude negative (Format.binary32.roundRatio num den)

/-- The same number in double precision; every finite number is exact there. -/
def widen (x : Binary32) : Binary64 :=
  if x.magnitude < Format.binary32.infinity then
    let (significand, exponent) := Format.binary32.unpack x.magnitude
    let scaled := Format.scale significand 1 exponent
    Binary64.ofRatio x.negative scaled.1 scaled.2
  else if x.isNaN then Binary64.nan
  else Binary64.ofMagnitude x.negative Format.binary64.infinity

end Binary32

/-- The single-precision number nearest to a double-precision one. -/
def Binary64.narrow (x : Binary64) : Binary32 :=
  if x.isFinite then
    let (significand, exponent) := Format.binary64.unpack x.magnitude
    let scaled := Format.scale significand 1 exponent
    Binary32.ofRatio x.negative scaled.1 scaled.2
  else
    Binary32.ofMagnitude x.negative
      (if x.isNaN then Format.binary32.quiet else Format.binary32.infinity)

end KeyedCoding
