/-!
# Doubles

A double is its 64 bits, so that two doubles are equal as data exactly when their bits are.  The
comparison of numbers (`same`) is another relation: a NaN is the same as nothing, and the two zeros
are the same.

A finite double is a whole number of quanta, `significand * 2 ^ exponent`.  Everything that is
computed here is computed on that exact value and rounded once, to the nearest double, a tie going
to the one with the even significand.
-/

namespace DocumentCommand

/-- A number of the 64-bit binary format, held as its bits. -/
structure Binary64 where
  /-- Sign, eleven exponent bits, fifty-two fraction bits, from the highest down. -/
  bits : UInt64
deriving DecidableEq, Repr, Inhabited

namespace Binary64

/-- What the sign bit weighs. -/
def signWeight : Nat := Nat.pow 2 63

/-- What the lowest of the exponent bits weighs; the fraction stays below it. -/
def unitWeight : Nat := Nat.pow 2 52

/-- The exponent bits of the infinities and the NaNs, all of them set. -/
def topExponent : Nat := 2047

/-- Is the sign bit set? -/
def isNegative (x : Binary64) : Bool :=
  signWeight ≤ x.bits.toNat

/-- The eleven exponent bits as a number. -/
def exponentField (x : Binary64) : Nat :=
  x.bits.toNat / unitWeight % (topExponent + 1)

/-- The fifty-two fraction bits as a number. -/
def fractionField (x : Binary64) : Nat :=
  x.bits.toNat % unitWeight

/-- Is it no number? -/
def isNaN (x : Binary64) : Bool :=
  x.exponentField = topExponent ∧ x.fractionField ≠ 0

/-- Is it one of the two infinities? -/
def isInfinite (x : Binary64) : Bool :=
  x.exponentField = topExponent ∧ x.fractionField = 0

/-- Is it neither an infinity nor a NaN? -/
def isFinite (x : Binary64) : Bool :=
  x.exponentField ≠ topExponent

/-- The whole number of quanta in the magnitude of a finite double. -/
def significand (x : Binary64) : Nat :=
  if x.exponentField = 0 then x.fractionField else unitWeight + x.fractionField

/-- The power of two that is the quantum of a finite double. -/
def exponent (x : Binary64) : Int :=
  if x.exponentField = 0 then -1074 else (x.exponentField : Int) - 1075

/-- Is it one of the two zeros? -/
def isZero (x : Binary64) : Bool :=
  x.bits.toNat % signWeight = 0

/-- The double with the given sign bit and the given lower bits. -/
def ofFields (negative : Bool) (magnitude : Nat) : Binary64 :=
  ⟨UInt64.ofNat ((if negative then signWeight else 0) + magnitude)⟩

/-- The infinity of the given sign. -/
def infinity (negative : Bool) : Binary64 :=
  ofFields negative (topExponent * unitWeight)

/-- The zero of the given sign. -/
def zero (negative : Bool) : Binary64 :=
  ofFields negative 0

/-- The NaN with a clear sign and only the first fraction bit set. -/
def nan : Binary64 :=
  ofFields false (topExponent * unitWeight + Nat.pow 2 51)

/-- The quotient rounded to the nearest whole number, a tie to the even one. -/
def roundedQuotient (numerator denominator : Nat) : Nat :=
  let quotient := numerator / denominator
  let twice := 2 * (numerator % denominator)
  if twice < denominator then quotient
  else if denominator < twice then quotient + 1
  else quotient + quotient % 2

/-- The place of the leading binary digit of a positive fraction: the greatest `e` such that
`2 ^ e` is at most the fraction. -/
def leadingPlace (numerator denominator : Nat) : Int :=
  let guess : Int := (Nat.log2 numerator : Int) - Nat.log2 denominator
  let reaches := if guess < 0 then denominator ≤ numerator * Nat.pow 2 (-guess).toNat
    else denominator * Nat.pow 2 guess.toNat ≤ numerator
  if reaches then guess else guess - 1

/-- The double nearest to a non-negative fraction with the given sign, an infinity where the
fraction is too large. -/
def ofRatio (negative : Bool) (numerator denominator : Nat) : Binary64 :=
  if numerator = 0 then zero negative
  else
    let quantum := max (leadingPlace numerator denominator - 52) (-1074)
    let count :=
      if quantum < 0 then roundedQuotient (numerator * Nat.pow 2 (-quantum).toNat) denominator
      else roundedQuotient numerator (denominator * Nat.pow 2 quantum.toNat)
    -- A count of 2 ^ 53 carries into the exponent field by itself.
    let magnitude := (quantum + 1074).toNat * unitWeight + count
    if magnitude < topExponent * unitWeight then ofFields negative magnitude else infinity negative

/-- The double nearest to a natural number. -/
def ofNat (n : Nat) : Binary64 :=
  ofRatio false n 1

/-- The double nearest to `significand * 10 ^ exponent`. -/
def ofDecimal (negative : Bool) (significand : Nat) (exponent : Int) : Binary64 :=
  if exponent < 0 then ofRatio negative significand (Nat.pow 10 (-exponent).toNat)
  else ofRatio negative (significand * Nat.pow 10 exponent.toNat) 1

/-- The exact magnitude of a finite double as a fraction. -/
def magnitudeRatio (x : Binary64) : Nat × Nat :=
  if x.exponent < 0 then (x.significand, Nat.pow 2 (-x.exponent).toNat)
  else (x.significand * Nat.pow 2 x.exponent.toNat, 1)

/-- The product of the magnitudes of two finite doubles. -/
def times (x y : Binary64) : Binary64 :=
  let (a, b) := x.magnitudeRatio
  let (c, d) := y.magnitudeRatio
  ofRatio false (a * c) (b * d)

/-- The quotient of the magnitudes of two finite doubles, the second not zero. -/
def dividedBy (x y : Binary64) : Binary64 :=
  let (a, b) := x.magnitudeRatio
  let (c, d) := y.magnitudeRatio
  ofRatio false (a * d) (b * c)

/-- The same magnitude with the given sign. -/
def withSign (negative : Bool) (x : Binary64) : Binary64 :=
  ofFields negative (x.bits.toNat % signWeight)

/-- Comparison as numbers: a NaN is the same as nothing, itself included, and the zeros are the
same. -/
def same (x y : Binary64) : Bool :=
  !x.isNaN && !y.isNaN && (x.bits == y.bits || x.isZero && y.isZero)

end Binary64

end DocumentCommand
