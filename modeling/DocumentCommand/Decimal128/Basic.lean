/-!
# Decimal numbers of 128 bits

The binary-integer packing of the IEEE 754 decimal128 format: a sign, fourteen exponent bits and a
coefficient of up to 34 digits, with reserved exponent patterns for infinity and NaN.  `magnitude`
unpacks and `ofParts` packs; packing what was unpacked gives the bits back exactly for the
canonical ones.
-/

namespace DocumentCommand

/-- A number of the decimal128 format, held as its bits. -/
structure Decimal128 where
  bits : BitVec 128
deriving DecidableEq, Repr, Inhabited

namespace Decimal128

/-- The greatest number of decimal digits in a coefficient. -/
def precision : Nat := 34

/-- The least exponent. -/
def minExponent : Int := -6176

/-- The greatest exponent. -/
def maxExponent : Int := 6111

/-- What the sign bit weighs. -/
def signWeight : Nat := Nat.pow 2 127

/-- What the lowest of the five bits weighs that tell infinity and NaN from numbers. -/
def kindWeight : Nat := Nat.pow 2 122

/-- What the bit of a signalling NaN weighs. -/
def signallingWeight : Nat := Nat.pow 2 121

/-- What the lowest of the exponent bits weighs; coefficients stay below it. -/
def exponentWeight : Nat := Nat.pow 2 113

/-- What a number is, its sign apart. -/
inductive Magnitude where
  | nan (signalling : Bool)
  | infinity
  /-- `coefficient * 10 ^ exponent`. -/
  | finite (coefficient : Nat) (exponent : Int)
deriving DecidableEq, Repr

/-- Is the sign bit set? -/
def isNegative (d : Decimal128) : Bool :=
  d.bits.getLsbD 127

/-- The unpacked magnitude.  A coefficient that has more than 34 digits counts as zero; every number
of the second packing, whose coefficients start at 2 ^ 113, is of this kind. -/
def magnitude (d : Decimal128) : Magnitude :=
  let n := d.bits.toNat
  if n / kindWeight % 32 = 0b11111 then .nan (n / signallingWeight % 2 = 1)
  else if n / kindWeight % 32 = 0b11110 then .infinity
  else if n / Nat.pow 2 125 % 4 = 0b11 then
    .finite 0 ((n / Nat.pow 2 111 % Nat.pow 2 14 : Nat) + minExponent)
  else
    let coefficient := n % exponentWeight
    .finite (if coefficient < Nat.pow 10 precision then coefficient else 0)
      ((n / exponentWeight % Nat.pow 2 14 : Nat) + minExponent)

/-- The bits below the sign. -/
def Magnitude.pack : Magnitude → Nat
  | .nan signalling => 0b11111 * kindWeight + (if signalling then signallingWeight else 0)
  | .infinity => 0b11110 * kindWeight
  | .finite coefficient exponent => (exponent - minExponent).toNat * exponentWeight + coefficient

/-- The number of the given sign and magnitude. -/
def ofParts (negative : Bool) (m : Magnitude) : Decimal128 :=
  ⟨BitVec.ofNat 128 ((if negative then signWeight else 0) + m.pack)⟩

/-- The sixteen bytes, the lowest first. -/
def toBytes (d : Decimal128) : List UInt8 :=
  (List.range 16).map fun i => UInt8.ofNat (d.bits.toNat / Nat.pow 256 i)

/-- The number whose bytes are given, the lowest first. -/
def ofBytes (bytes : List UInt8) : Decimal128 :=
  ⟨BitVec.ofNat 128 (bytes.foldr (fun b n => b.toNat + 256 * n) 0)⟩

/-- The number whose sixteen bytes are given, none where they are more or fewer. -/
def ofBytes? (bytes : List UInt8) : Option Decimal128 :=
  if bytes.length = 16 then some (ofBytes bytes) else none

end Decimal128

end DocumentCommand
